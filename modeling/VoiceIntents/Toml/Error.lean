/-!
# Errors of TOML texts

Where a text stops being TOML, and why. A decimal integer with too many digits and values that
are nested too deeply are kept apart: they are well formed, but have no value.
-/

namespace VoiceIntents.Toml

/-- Why a text is malformed. -/
inductive Malformed where
  | noStatement
  | trailingText
  | badKey
  | noEquals
  | noValue
  | noSuchDate
  | unclosedText
  | illegalCharacter
  | badEscape
  | unclosedArray
  | unclosedTable
  | unclosedHeader
  | closedTable
  | repeatedKey
  deriving DecidableEq, Repr

def Malformed.describe : Malformed → String
  | .noStatement => "Invalid statement"
  | .trailingText => "Expected newline or end of document after a statement"
  | .badKey => "Invalid initial character for a key part"
  | .noEquals => "Expected '=' after a key in a key/value pair"
  | .noValue => "Invalid value"
  | .noSuchDate => "Invalid date or datetime"
  | .unclosedText => "Unterminated string"
  | .illegalCharacter => "Illegal character"
  | .badEscape => "Unescaped '\\' in a string"
  | .unclosedArray => "Unclosed array"
  | .unclosedTable => "Unclosed inline table"
  | .unclosedHeader => "Expected ']' at the end of a declaration"
  | .closedTable => "Cannot declare a table twice"
  | .repeatedKey => "Cannot overwrite a value"

/-- Why a well-formed text has no value. -/
inductive Unreadable where
  | tooManyDigits
  | tooDeep
  deriving DecidableEq, Repr

/-- An error in a text. `left` counts the characters from the place of the error to the end. -/
inductive Error where
  | malformed (cause : Malformed) (left : Nat)
  | unreadable (cause : Unreadable)
  deriving DecidableEq, Repr

/-- The line and column, from one, of the place with so many characters left. -/
def place (text : List Char) (left : Nat) : String :=
  let before := text.take (text.length - left)
  let number (n : Nat) : String := String.ofList (Nat.toDigits 10 n)
  if left = 0 then "end of document"
  else "line " ++ number (before.count '\n' + 1) ++ ", column "
    ++ number ((before.reverse.takeWhile (· ≠ '\n')).length + 1)

/-- The wording of an error in a text. -/
def Error.describe (text : List Char) : Error → String
  | .malformed cause left => cause.describe ++ " (at " ++ place text left ++ ")"
  | .unreadable .tooManyDigits => "an integer has too many digits"
  | .unreadable .tooDeep => "values are nested too deeply"

/-- What a reader takes from the start of a text, and the rest of the text. -/
abbrev Taken (α : Type) := α × List Char

/-- The error that has its place before a rest of the text. -/
def fail {α : Type} (cause : Malformed) (rest : List Char) : Except Error α :=
  .error (.malformed cause rest.length)

def isBlank (c : Char) : Bool := c = ' ' || c = '\t'

def skipBlanks (text : List Char) : List Char := text.dropWhile isBlank

/-- Control characters, the tab apart, stand in no comment and no text. -/
def isControl (c : Char) : Bool := (c.toNat < 32 && c ≠ '\t') || c.toNat = 127

/-- The text after a comment, if one starts here. -/
def skipComment (text : List Char) : Except Error (List Char) :=
  match text with
  | '#' :: rest =>
      let body := rest.takeWhile (· ≠ '\n')
      if body.any isControl then fail .illegalCharacter rest else .ok (rest.drop body.length)
  | _ => .ok text

end VoiceIntents.Toml
