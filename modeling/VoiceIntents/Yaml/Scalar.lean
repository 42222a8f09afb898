import VoiceIntents.Number.Numeral
import VoiceIntents.Text.Encoding
import VoiceIntents.Value.Basic
import VoiceIntents.Yaml.Tag

/-!
# Reading scalars

The value of a scalar's text under each of the scalar tags. A text that got its tag from the
rules mostly has a value; under an explicit tag any text may stand.
-/

namespace VoiceIntents.Yaml.ReadScalar

def unreadable {α : Type} (cause : Unreadable) : Except Error α := .error (.unreadable cause)

def numeral {α : Type} : Except Numeral.Fault α → Except Error α
  | .ok a => .ok a
  | .error .malformed => unreadable .notANumber
  | .error .tooManyDigits => unreadable .tooManyDigits

/-- A number's text without underscores, and its sign apart. -/
def signed (text : List Char) : Option (Bool × List Char) :=
  match text.filter (· ≠ '_') with
  | [] => none
  | c :: rest => some (c = '-', if c = '-' || c = '+' then rest else c :: rest)

/-- Places in base sixty, the first of them the greatest. -/
def sexagesimal (digits : List Int) : Int := digits.foldl (fun n d => n * 60 + d) 0

def magnitude (body : List Char) : Except Error Int :=
  match body with
  | [] => unreadable .emptyNumber
  | ['0'] => .ok 0
  | '0' :: 'b' :: rest => numeral (Numeral.integer 2 rest)
  | '0' :: 'x' :: rest => numeral (Numeral.integer 16 rest)
  | '0' :: rest => numeral (Numeral.integer 8 ('0' :: rest))
  | body =>
      if body.contains ':' then do
        let digits ← (ImplicitRule.places body).mapM fun p => numeral (Numeral.integer 10 p)
        return sexagesimal digits
      else numeral (Numeral.integer 10 body)

def int (text : List Char) : Except Error Int :=
  match signed text with
  | none => unreadable .emptyNumber
  | some (negative, body) => (magnitude body).map fun n => if negative then -n else n

def float64 (text : List Char) : Except Error Binary64 :=
  match Numeral.float? text with
  | some x => .ok x
  | none => unreadable .notANumber

/-- Places in base sixty from the least, each rounded as it is added. -/
def addPlaces : (total : Binary64) → (base : Int) → List Binary64 → Except Error Binary64
  | total, _, [] => .ok total
  | total, base, digit :: rest =>
      match Binary64.ofInt? base with
      | none => unreadable .factorTooLarge
      | some factor => addPlaces (total.add (digit.mul factor)) (base * 60) rest

/-- The spelling of the one not-a-number that all documents share. -/
def isNan (text : List Char) : Bool :=
  (signed (text.map Char.toLower)).any fun (_, body) => String.ofList body = ".nan"

def float (text : List Char) : Except Error Binary64 := do
  match signed (text.map Char.toLower) with
  | none => unreadable .emptyNumber
  | some (negative, body) =>
      let turn (x : Binary64) : Binary64 := if negative then x.neg else x
      if String.ofList body = ".inf" then return turn (.infinity false)
      if String.ofList body = ".nan" then return .nan
      if body.contains ':' then
        let digits ← (ImplicitRule.places body).mapM float64
        return turn (← addPlaces (.zero false) 1 digits.reverse)
      return turn (← float64 body)

/-- A truth value in any mixture of cases. -/
def bool (text : List Char) : Except Error Bool :=
  let word := String.ofList (text.map Char.toLower)
  if ["yes", "true", "on"].contains word then .ok true
  else if ["no", "false", "off"].contains word then .ok false
  else unreadable .unknownTruth

/-- A date, or a moment when the text has a time. -/
def timestamp (text : List Char) : Except Error Scalar :=
  let text := if text.getLast? = some '\n' then text.dropLast else text
  match Timestamp.parse? text with
  | none => unreadable .notATimestamp
  | some t =>
      let read := match t.clock with
        | none => t.date?.map Scalar.date
        | some clock => (t.moment? clock).map Scalar.moment
      match read with
      | none => unreadable .noSuchTime
      | some s => .ok s

def binary (mark : Mark) (text : List Char) : Except Error (List UInt8) :=
  match if text.all (·.toNat < 128) then Text.Base64.decode? text else none with
  | none => .error (.malformed .badBinary mark)
  | some data => .ok data

end VoiceIntents.Yaml.ReadScalar

namespace VoiceIntents.Yaml

/-- Tags of scalars. -/
def Tag.isScalar : Tag → Bool
  | .null | .str | .bool | .int | .float | .binary | .timestamp => true
  | _ => false

/-- The value of a text under a scalar tag; under no other has it one. -/
def readScalar (tag : Tag) (mark : Mark) (text : String) : Except Error Scalar :=
  let chars := text.toList
  match tag with
  | .null => .ok .null
  | .str => .ok (.text text)
  | .bool => (ReadScalar.bool chars).map Scalar.bool
  | .int => (ReadScalar.int chars).map Scalar.int
  | .float => (ReadScalar.float chars).map Scalar.float
  | .binary => (ReadScalar.binary mark chars).map Scalar.bytes
  | .timestamp => ReadScalar.timestamp chars
  | _ => .error (.malformed .unknownTag mark)

end VoiceIntents.Yaml
