import VoiceIntents.Number.Binary64
import VoiceIntents.Text.CharClass

/-!
# Numerals

Numbers as texts: an optional sign and digits, with blanks around them. A digit may come from
any script that counts in tens.
-/

namespace VoiceIntents.Numeral

/-- The zeros of the scripts with decimal digits (Unicode 14); nine digits follow each. -/
def zeros : List Nat :=
  [0x30, 0x660, 0x6F0, 0x7C0, 0x966, 0x9E6, 0xA66, 0xAE6, 0xB66, 0xBE6, 0xC66, 0xCE6, 0xD66,
    0xDE6, 0xE50, 0xED0, 0xF20, 0x1040, 0x1090, 0x17E0, 0x1810, 0x1946, 0x19D0, 0x1A80, 0x1A90,
    0x1B50, 0x1BB0, 0x1C40, 0x1C50, 0xA620, 0xA8D0, 0xA900, 0xA9D0, 0xA9F0, 0xAA50, 0xABF0,
    0xFF10, 0x104A0, 0x10D30, 0x11066, 0x110F0, 0x11136, 0x111D0, 0x112F0, 0x11450, 0x114D0,
    0x11650, 0x116C0, 0x11730, 0x118E0, 0x11950, 0x11C50, 0x11D50, 0x11DA0, 0x16A60, 0x16AC0,
    0x16B50, 0x1D7CE, 0x1D7D8, 0x1D7E2, 0x1D7EC, 0x1D7F6, 0x1E140, 0x1E2F0, 0x1E950, 0x1FBF0]

/-- The value of a decimal digit. -/
def decimal? (c : Char) : Option Nat :=
  (zeros.find? fun first => first ≤ c.toNat && c.toNat < first + 10).map (c.toNat - ·)

def blanks : Text.Ranges :=
  [(0x9, 0xD), (0x20, 0x20), (0x85, 0x85), (0xA0, 0xA0), (0x1680, 0x1680), (0x2000, 0x200A),
    (0x2028, 0x2029), (0x202F, 0x202F), (0x205F, 0x205F), (0x3000, 0x3000)]

def isBlank (c : Char) : Bool := blanks.contains c

/-- A text without the blanks around it. -/
def trim (text : List Char) : List Char :=
  ((text.dropWhile isBlank).reverse.dropWhile isBlank).reverse

/-- The value of a digit in bases up to sixteen. -/
def digit? (c : Char) : Option Nat :=
  if 'a' ≤ c && c ≤ 'f' then some (c.toNat - 87)
  else if 'A' ≤ c && c ≤ 'F' then some (c.toNat - 55)
  else decimal? c

/-- A sign, if the text has one, and the rest. -/
def sign : List Char → Bool × List Char
  | '-' :: rest => (true, rest)
  | '+' :: rest => (false, rest)
  | text => (false, text)

/-- The natural number that digits spell in a base. -/
def natural? (base : Nat) (digits : List Char) : Option Nat :=
  if digits.isEmpty then none
  else digits.foldl (fun n c => do
    let d ← digit? c
    if d < base then return (← n) * base + d else none) (some 0)

/-- Digits with the mark of their base before them, such as `0x`, lose it. -/
def dropBaseMark (base : Nat) : List Char → List Char
  | zero :: c :: rest =>
      let lower := c.toLower
      if decimal? zero = some 0
        && ((base = 16 && lower = 'x') || (base = 8 && lower = 'o') || (base = 2 && lower = 'b'))
      then rest else zero :: c :: rest
  | text => text

inductive Fault where
  | malformed
  | tooManyDigits
  deriving DecidableEq, Repr

/-- The most digits that a decimal integer is read or written with. -/
def digitLimit : Nat := 4300

/-- The integer that a text spells in a base. -/
def integer (base : Nat) (text : List Char) : Except Fault Int :=
  let (negative, digits) := sign (trim text)
  let digits := dropBaseMark base digits
  match natural? base digits with
  | none => .error .malformed
  | some n =>
      if base = 10 && digitLimit < digits.length then .error .tooManyDigits
      else .ok (if negative then -(n : Int) else n)

/-- Decimal digits, their count and the rest of the text. -/
def decimals (text : List Char) : Nat × Nat × List Char :=
  let run := text.takeWhile fun c => (decimal? c).isSome
  (run.foldl (fun n c => n * 10 + (decimal? c).getD 0) 0, run.length, text.drop run.length)

/-- The exponent at the end of a decimal. -/
def exponent? : List Char → Option Int
  | [] => some 0
  | c :: rest =>
      if c = 'e' || c = 'E' then
        let (negative, digits) := sign rest
        let (n, count, rest) := decimals digits
        if count = 0 || !rest.isEmpty then none
        else some (if negative then -(n : Int) else n)
      else none

/-- The binary64 number nearest to the decimal that a text spells. -/
def float? (text : List Char) : Option Binary64 :=
  let (negative, body) := sign (trim text)
  let word := String.ofList (body.map Char.toLower)
  if word = "inf" || word = "infinity" then some (.infinity negative)
  else if word = "nan" then some .nan
  else
    let (whole, wholeCount, rest) := decimals body
    let (fraction, fractionCount, rest) := match rest with
      | '.' :: rest => decimals rest
      | _ => (0, 0, rest)
    if wholeCount + fractionCount = 0 then none
    else do
      let exponent ← exponent? rest
      return .ofDecimal negative (whole * Binary64.tenTo fractionCount + fraction)
        (exponent - fractionCount)

end VoiceIntents.Numeral
