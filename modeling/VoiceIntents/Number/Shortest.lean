import VoiceIntents.Number.Binary64

/-!
# Shortest decimal text

The decimal text of a binary64 number: the fewest digits that read back as the number and,
among those, the nearest. Exponents from -4 to 15 are written positionally.
-/

namespace VoiceIntents.Binary64

/-- The power of ten of the leading digit of `num / den`. -/
def leadingPower (num den : Nat) : Int :=
  (digitCount (num * tenTo 400 / den) : Int) - 401

/-- The quotient `num / den` counted in units of `10 ^ power`, rounded down, with the
remainder and the divisor. -/
def countUnits (num den : Nat) (power : Int) : Nat × Nat × Nat :=
  match power with
  | .ofNat p => (num / (den * tenTo p), num % (den * tenTo p), den * tenTo p)
  | .negSucc p => (num * tenTo (p + 1) / den, num * tenTo (p + 1) % den, den)

/-- A decimal of units `10 ^ power` next to the number that reads back as it, the nearer of
two; a tie goes to the even one. -/
def readsBack? (significand : Nat) (exponent power : Int) : Option Nat :=
  let (num, den) := magnitude significand exponent
  let (below, rest, unit) := countUnits num den power
  let target := Binary64.finite false significand exponent
  let low := ofDecimal false below power = target
  let high := ofDecimal false (below + 1) power = target
  match decide low, decide high with
  | true, true => some (roundDiv (below * unit + rest) unit)
  | true, false => some below
  | false, true => some (below + 1)
  | false, false => none

/-- The first decimal that reads back, trying ever smaller units. -/
def searchDigits (significand : Nat) (exponent lead : Int) : Nat → Nat → Nat × Int
  | 0, count => (0, lead - count)
  | fuel + 1, count =>
      match readsBack? significand exponent (lead - count) with
      | some digits => (digits, lead - count)
      | none => searchDigits significand exponent lead fuel (count + 1)

/-- Digits and a power of ten whose product is the shortest decimal of a nonzero number;
seventeen digits always suffice. -/
def shortest (significand : Nat) (exponent : Int) : Nat × Int :=
  let (num, den) := magnitude significand exponent
  searchDigits significand exponent (leadingPower num den) 18 0

def zeros (n : Nat) : List Char := List.replicate n '0'

/-- Digits without trailing zeros, each dropped zero raising the power. -/
def trimZeros : Nat → Nat → Int → Nat × Int
  | 0, digits, power => (digits, power)
  | fuel + 1, digits, power =>
      if digits ≠ 0 && digits % 10 = 0 then trimZeros fuel (digits / 10) (power + 1)
      else (digits, power)

def exponentText (e : Int) : List Char :=
  let digits := Nat.toDigits 10 e.natAbs
  ['e', if e < 0 then '-' else '+'] ++ zeros (2 - digits.length) ++ digits

/-- The text of `digits * 10 ^ power`. -/
def decimalText (digits : Nat) (power : Int) : List Char :=
  let (digits, power) := trimZeros 20 digits power
  let text := Nat.toDigits 10 digits
  let lead := power + text.length - 1
  if lead < -4 || 16 ≤ lead then
    let mantissa := match text with
      | [] => []
      | [d] => [d]
      | d :: rest => d :: '.' :: rest
    mantissa ++ exponentText lead
  else if 0 ≤ power then text ++ zeros power.toNat ++ ['.', '0']
  else if 0 ≤ lead then
    text.take (lead + 1).toNat ++ '.' :: text.drop (lead + 1).toNat
  else ['0', '.'] ++ zeros (-lead - 1).toNat ++ text

def toText : Binary64 → String
  | .nan => "nan"
  | .infinity s => if s then "-inf" else "inf"
  | .finite s m e =>
      let body := if m = 0 then ['0', '.', '0'] else
        let (digits, power) := shortest m e
        decimalText digits power
      String.ofList (if s then '-' :: body else body)

end VoiceIntents.Binary64
