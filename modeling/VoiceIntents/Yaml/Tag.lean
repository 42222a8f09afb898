import VoiceIntents.Yaml.Timestamp

/-!
# Tags

The tag of a node says how it is read. A plain scalar without a tag gets one from its text,
by the first of a list of rules that matches it; a scalar that no rule matches is text.
-/

namespace VoiceIntents.Yaml

inductive Tag where
  | null
  | bool
  | int
  | float
  | binary
  | timestamp
  | omap
  | pairs
  | set
  | str
  | seq
  | map
  | merge
  | value
  | yaml
  | other (name : String)
  deriving DecidableEq, Repr

/-- What the handle `!!` stands for. -/
def Tag.core : String := "tag:yaml.org,2002:"

/-- The names of the tags that have a meaning here. -/
def Tag.names : List (String × Tag) :=
  [("null", .null), ("bool", .bool), ("int", .int), ("float", .float), ("binary", .binary),
    ("timestamp", .timestamp), ("omap", .omap), ("pairs", .pairs), ("set", .set), ("str", .str),
    ("seq", .seq), ("map", .map), ("merge", .merge), ("value", .value), ("yaml", .yaml)]

def Tag.ofName (name : String) : Tag :=
  match Tag.names.find? fun entry => Tag.core ++ entry.1 = name with
  | some (_, tag) => tag
  | none => .other name

/-- A rule gives its tag to texts that begin with one of some characters and match. An empty
text is taken by the rules that name no character first. -/
structure ImplicitRule where
  tag : Tag
  first : List (Option Char)
  holds : List Char → Bool

namespace ImplicitRule

/-- The spellings of the truth values. -/
def truthWords : List String :=
  ["yes", "Yes", "YES", "no", "No", "NO", "true", "True", "TRUE", "false", "False", "FALSE",
    "on", "On", "ON", "off", "Off", "OFF"]

def unsigned : List Char → List Char
  | c :: rest => if c = '+' || c = '-' then rest else c :: rest
  | [] => []

/-- Digits of a class and underscores, one at least. -/
def isRun (digit : Char → Bool) (text : List Char) : Bool :=
  !text.isEmpty && text.all fun c => digit c || c = '_'

/-- A digit of a class, then digits and underscores. -/
def isCount (first : Char → Bool) : List Char → Bool
  | c :: rest => first c && rest.all fun a => a.isDigit || a = '_'
  | [] => false

def isOctal (c : Char) : Bool := '0' ≤ c && c ≤ '7'

def isHex (c : Char) : Bool := c.isDigit || ('a' ≤ c && c ≤ 'f') || ('A' ≤ c && c ≤ 'F')

def isNonzero (c : Char) : Bool := c.isDigit && c ≠ '0'

/-- One place of a number in base sixty. -/
def isSixtieth : List Char → Bool
  | [c] => c.isDigit
  | [b, c] => '0' ≤ b && b ≤ '5' && c.isDigit
  | _ => false

/-- The places of a text that are divided by colons. -/
def places (text : List Char) : List (List Char) := text.splitOn ':'

def isInt (text : List Char) : Bool :=
  match unsigned text with
  | '0' :: 'b' :: rest => isRun (fun c => c = '0' || c = '1') rest
  | '0' :: 'x' :: rest => isRun isHex rest
  | '0' :: rest => rest.isEmpty || isRun isOctal rest
  | body =>
      match places body with
      | first :: rest => isCount isNonzero first && rest.all isSixtieth
      | [] => false

/-- An exponent with its sign, or nothing. -/
def isExponent : List Char → Bool
  | [] => true
  | e :: s :: rest =>
      (e = 'e' || e = 'E') && (s = '+' || s = '-') && !rest.isEmpty && rest.all Char.isDigit
  | _ => false

/-- Digits and underscores after a point, then an exponent. -/
def isFraction (text : List Char) : Bool :=
  isExponent (text.dropWhile fun c => c.isDigit || c = '_')

/-- Places in base sixty, the last of them before a point. -/
def isSexagesimal (text : List Char) : Bool :=
  let whole := text.takeWhile (· ≠ '.')
  match places whole, text.dropWhile (· ≠ '.') with
  | first :: second :: rest, '.' :: fraction =>
      isCount Char.isDigit first && (second :: rest).all isSixtieth
        && fraction.all fun c => c.isDigit || c = '_'
  | _, _ => false

def isFloat (text : List Char) : Bool :=
  let body := unsigned text
  let pointed := match body.takeWhile (· ≠ '.'), body.dropWhile (· ≠ '.') with
    | whole, '.' :: rest => isCount Char.isDigit whole && isFraction rest
    | _, _ => false
  let bare := match text with
    | '.' :: c :: rest => c.isDigit && isFraction rest
    | _ => false
  let word := String.ofList text
  pointed || bare || isSexagesimal body || [".inf", ".Inf", ".INF"].contains (String.ofList body)
    || [".nan", ".NaN", ".NAN"].contains word

/-- A date alone has two digits for month and day. -/
def isTimestamp (text : List Char) : Bool :=
  (Timestamp.parse? text).any fun t => t.clock.isSome || t.full

/-- The text is one of some words. -/
def isWord (words : List String) (text : List Char) : Bool := words.contains (String.ofList text)

def startsWith (chars : String) : List (Option Char) := chars.toList.map some

/-- The rules for plain scalars, in the order in which they are tried. -/
def core : List ImplicitRule :=
  [⟨.bool, startsWith "yYnNtTfFoO", isWord truthWords⟩,
    ⟨.float, startsWith "-+0123456789.", isFloat⟩,
    ⟨.int, startsWith "-+0123456789", isInt⟩,
    ⟨.merge, startsWith "<", isWord ["<<"]⟩,
    ⟨.null, none :: startsWith "~nN", isWord ["~", "null", "Null", "NULL", ""]⟩,
    ⟨.timestamp, startsWith "0123456789", isTimestamp⟩,
    ⟨.value, startsWith "=", isWord ["="]⟩,
    ⟨.yaml, startsWith "!&*", isWord ["!", "&", "*"]⟩]

/-- The rules of voice contexts, which use words such as `on` and `off` as names: no plain
scalar is a truth value. -/
def literal : List ImplicitRule := core.filter (·.tag ≠ .bool)

/-- A rule applies to a text that it holds for, also before a last line feed. -/
def applies (rule : ImplicitRule) (text : List Char) : Bool :=
  rule.first.contains text.head?
    && (rule.holds text || (text.getLast? = some '\n' && rule.holds text.dropLast))

end ImplicitRule

/-- The tag that rules give to an untagged plain scalar. -/
def implicitTag (rules : List ImplicitRule) (text : String) : Tag :=
  ((rules.find? (·.applies text.toList)).map (·.tag)).getD .str

end VoiceIntents.Yaml
