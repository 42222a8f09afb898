import VoiceIntents.Text.CharClass

/-!
# Names

The names of a context: identifiers, and references to slots in phrases.
-/

/-!
## Identifiers

Names of a context become identifiers of the generated Python module. A name that is a
reserved word is escaped by capitalising it; what is then still unusable has a problem.
-/

namespace VoiceIntents.Identifier

/-- Words that Python reserves. -/
def reserved : List String :=
  ["False", "None", "True", "and", "as", "assert", "async", "await", "break", "class",
    "continue", "def", "del", "elif", "else", "except", "finally", "for", "from", "global",
    "if", "import", "in", "is", "lambda", "nonlocal", "not", "or", "pass", "raise", "return",
    "try", "while", "with", "yield"]

/-- Names that every generated module binds itself. -/
def moduleNames : List String :=
  ["annotations", "builtins", "Any", "Enum", "Mapping", "dataclass", "Intent",
    "NotUnderstood", "InferenceError", "UnknownIntentKind", "MissingRequiredSlot",
    "InvalidSlotValue", "decode", "from_inference"]

/-- Names that mean something in every class before it declares anything. -/
def classNames : List String := ["mro"]

/-- Names that an enumeration refuses for its members. -/
def refusedMembers : List String := classNames

def isReserved (name : String) : Bool := reserved.contains name

/-- The name with its first letter in upper case. -/
def capitalise (name : String) : String :=
  match name.toList with
  | [] => name
  | c :: rest => String.ofList (c.toUpper :: rest)

/-- A reserved word is capitalised; any other name stays as it is. -/
def escape (name : String) : String := if isReserved name then capitalise name else name

/-- Why a name is not usable as an identifier. -/
inductive Problem where
  | empty
  | malformed
  | keyword
  | underscore
  deriving DecidableEq, Repr

/-- The first problem of a name. Capitalised words of the language survive escaping and are
keywords still. -/
def problem? (name : String) : Option Problem :=
  if name = "" then some .empty
  else if !Text.isIdentifier name.toList then some .malformed
  else if isReserved name then some .keyword
  else if name.toList.head? = some '_' then some .underscore
  else none

def Problem.describe (name : String) : Problem → String
  | .empty => "name is empty"
  | .malformed => "'" ++ name ++ "' is not a valid Python identifier"
  | .keyword => "'" ++ name ++ "' is a Python keyword"
  | .underscore => "'" ++ name ++ "' must not start with an underscore"

end VoiceIntents.Identifier

/-!
## Slot references in phrases

A phrase binds variables to slots by references of the form `$slot:variable`, where both
names are runs of ASCII letters, digits and underscores.
-/

namespace VoiceIntents

/-- A reference to a slot and the name of the variable it binds, both as written. -/
structure Reference where
  slot : String
  name : String
  deriving DecidableEq, Repr

namespace Reference

def isWord (c : Char) : Bool := c.isAlphanum || c == '_'

/-- The reference that follows a dollar sign, if its text is one: a word, a colon and the
longest word after it, neither of them empty. -/
def afterDollar? (text : List Char) : Option Reference :=
  let slot := text.takeWhile isWord
  match text.dropWhile isWord with
  | ':' :: rest =>
      let name := rest.takeWhile isWord
      if slot.isEmpty || name.isEmpty then none
      else some ⟨String.ofList slot, String.ofList name⟩
  | _ => none

/-- The references of a text, from left to right: one for each dollar sign that begins one. -/
def scan : List Char → List Reference
  | [] => []
  | c :: rest =>
      if c = '$' then (afterDollar? rest).toList ++ scan rest else scan rest

end Reference

/-- The references of a phrase, in order of appearance. -/
def references (phrase : String) : List Reference := Reference.scan phrase.toList

end VoiceIntents
