/-!
# Binary64 numbers

Double-precision numbers as exact data: a sign, a natural significand below `2 ^ 53` and a
power of two. Every operation computes on naturals and rounds once, to nearest with ties to
the even significand.
-/

namespace VoiceIntents

/-- A double-precision number. A finite one is `± significand * 2 ^ exponent`, with the
exponent as small as the format allows and the significand full unless the exponent is least. -/
inductive Binary64 where
  | finite (negative : Bool) (significand : Nat) (exponent : Int)
  | infinity (negative : Bool)
  | nan
  deriving DecidableEq, Repr

namespace Binary64

def leastExponent : Int := -1074

def greatestExponent : Int := 971

def zero (negative : Bool) : Binary64 := .finite negative 0 leastExponent

/-- A power of two. -/
def twoTo (n : Nat) : Nat := Nat.pow 2 n

/-- A power of ten. -/
def tenTo (n : Nat) : Nat := Nat.pow 10 n

/-- The nearest natural to a quotient; a half goes to the even neighbour. -/
def roundDiv (num den : Nat) : Nat :=
  let quotient := num / den
  let twice := 2 * (num % den)
  if twice < den then quotient
  else if twice = den then quotient + quotient % 2
  else quotient + 1

/-- `num / den` scaled by `2 ^ -exponent`, as a numerator and a denominator. -/
def scale (num den : Nat) (exponent : Int) : Nat × Nat :=
  match exponent with
  | .ofNat e => (num, den * twoTo e)
  | .negSucc e => (num * twoTo (e + 1), den)

/-- The exponent at which `num / den` fills the significand, but none below the least. -/
def fittingExponent (num den : Nat) : Int :=
  let estimate : Int := (num.log2 : Int) - den.log2
  let (n, d) := scale num den estimate
  max leastExponent (if d ≤ n then estimate - 52 else estimate - 53)

/-- The number nearest to `± num / den`. -/
def ofRatio (negative : Bool) (num den : Nat) : Binary64 :=
  if num = 0 || den = 0 then zero negative
  else
    let exponent := fittingExponent num den
    let (n, d) := scale num den exponent
    let significand := roundDiv n d
    let (significand, exponent) :=
      if significand = twoTo 53 then (twoTo 52, exponent + 1) else (significand, exponent)
    if greatestExponent < exponent then .infinity negative
    else .finite negative significand exponent

/-- Decimal digits in a natural number; zero has one. -/
def digitCount (n : Nat) : Nat := (Nat.toDigits 10 n).length

/-- The number nearest to `± digits * 10 ^ exponent`. Values beyond every finite number, or
below half the least one, are settled by their size alone. -/
def ofDecimal (negative : Bool) (digits : Nat) (exponent : Int) : Binary64 :=
  if digits = 0 then zero negative
  else
    let size := (digitCount digits : Int) + exponent
    if 310 < size then .infinity negative
    else if size < -330 then zero negative
    else
      match exponent with
      | .ofNat e => ofRatio negative (digits * tenTo e) 1
      | .negSucc e => ofRatio negative digits (tenTo (e + 1))

/-- The number nearest to an integer; none when it exceeds every finite number. -/
def ofInt? (n : Int) : Option Binary64 :=
  match ofRatio (n < 0) n.natAbs 1 with
  | .infinity _ => none
  | x => some x

def neg : Binary64 → Binary64
  | .finite s m e => .finite (!s) m e
  | .infinity s => .infinity (!s)
  | .nan => .nan

/-- The magnitude of a finite number as a quotient of naturals. -/
def magnitude (significand : Nat) (exponent : Int) : Nat × Nat :=
  match exponent with
  | .ofNat e => (significand * twoTo e, 1)
  | .negSucc e => (significand, twoTo (e + 1))

def mul : Binary64 → Binary64 → Binary64
  | .nan, _ | _, .nan => .nan
  | .infinity s, .infinity t => .infinity (s != t)
  | .infinity s, .finite t m _ | .finite t m _, .infinity s =>
      if m = 0 then .nan else .infinity (s != t)
  | .finite s m e, .finite t n f =>
      let (num, den) := magnitude (m * n) (e + f)
      ofRatio (s != t) num den

/-- The integer `± significand * 2 ^ (exponent - unit)`, for an exponent not below the unit. -/
def units (negative : Bool) (significand : Nat) (exponent unit : Int) : Int :=
  let n : Int := (significand * twoTo (exponent - unit).toNat : Nat)
  if negative then -n else n

def add : Binary64 → Binary64 → Binary64
  | .nan, _ | _, .nan => .nan
  | .infinity s, .infinity t => if s = t then .infinity s else .nan
  | .infinity s, _ | _, .infinity s => .infinity s
  | .finite s m e, .finite t n f =>
      let unit := min e f
      let total := units s m e unit + units t n f unit
      if total = 0 then zero (s && t)
      else
        let (num, den) := magnitude total.natAbs unit
        ofRatio (total < 0) num den

/-- Numeric equality: the zeros are equal, and a not-a-number equals nothing. -/
def equal : Binary64 → Binary64 → Bool
  | .nan, _ | _, .nan => false
  | .finite s m e, .finite t n f => (m = 0 && n = 0) || (s = t && m = n && e = f)
  | .infinity s, .infinity t => s = t
  | _, _ => false

/-- Exact equality with an integer. -/
def equalInt (x : Binary64) (n : Int) : Bool :=
  match x with
  | .finite s m e =>
      let (num, den) := magnitude m e
      num = n.natAbs * den && (n = 0 || s = decide (n < 0))
  | _ => false

/-- The integer that a number is, if it is one. -/
def toInt? : Binary64 → Option Int
  | .finite negative significand exponent =>
      let (num, den) := magnitude significand exponent
      if num % den = 0 then some (if negative then -((num / den : Nat) : Int) else (num / den : Nat))
      else none
  | .infinity _ | .nan => none

def isZero : Binary64 → Bool
  | .finite _ m _ => m = 0
  | _ => false

end Binary64

end VoiceIntents
