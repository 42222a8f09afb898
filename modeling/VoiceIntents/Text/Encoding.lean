import VoiceIntents.Text.Literal

/-!
# Digits, lines and bytes

What texts are written with below their characters: digits that spell numbers, line ends, and
the bytes of base 64 and of UTF-8.
-/

/-!
## Digits

ASCII digits, and runs of them at the start of a text.
-/

namespace VoiceIntents.Text

/-- The number that decimal digits spell. -/
def number (digits : List Char) : Nat := digits.foldl (fun n c => n * 10 + (c.toNat - 48)) 0

/-- Between `least` and `most` digits, as many as there are, and the rest. -/
def digits? (least most : Nat) (text : List Char) : Option (List Char × List Char) :=
  let run := (text.take most).takeWhile Char.isDigit
  if run.length < least then none else some (run, text.drop run.length)

/-- The rest after a character. -/
def expect? (c : Char) : List Char → Option (List Char)
  | a :: rest => if a = c then some rest else none
  | [] => none

/-- The value of a hexadecimal digit. -/
def hexValue? (c : Char) : Option Nat :=
  if '0' ≤ c && c ≤ '9' then some (c.toNat - 48)
  else if 'a' ≤ c && c ≤ 'f' then some (c.toNat - 87)
  else if 'A' ≤ c && c ≤ 'F' then some (c.toNat - 55)
  else none

/-- The first six digits of a fraction, as millionths. -/
def millionths (fraction : List Char) : Nat :=
  number ((fraction ++ List.replicate 6 '0').take 6)

end VoiceIntents.Text

/-!
## Line ends

Files are read with every line end, be it a carriage return, a line feed or both, as a single
line feed. Where only the carriage return before a line feed is dropped, one that stands alone
is a character of the text.
-/

namespace VoiceIntents.Text

def joinLines : List Char → List Char
  | '\r' :: '\n' :: rest => '\n' :: joinLines rest
  | c :: rest => (if c = '\r' then '\n' else c) :: joinLines rest
  | [] => []

/-- A text with its line ends as line feeds. -/
def universalLines (text : String) : String := String.ofList (joinLines text.toList)

/-- A carriage return before a line feed does not count. -/
def dropReturns : List Char → List Char
  | '\r' :: '\n' :: rest => '\n' :: dropReturns rest
  | c :: rest => c :: dropReturns rest
  | [] => []

end VoiceIntents.Text

/-!
## Base 64

Reading of base 64 text. Characters outside the alphabet are passed over, and reading ends
where padding completes a group of four.
-/

namespace VoiceIntents.Text.Base64

/-- The number of a character of the alphabet. -/
def sextet? (c : Char) : Option Nat :=
  if 'A' ≤ c && c ≤ 'Z' then some (c.toNat - 65)
  else if 'a' ≤ c && c ≤ 'z' then some (c.toNat - 71)
  else if '0' ≤ c && c ≤ '9' then some (c.toNat + 4)
  else if c = '+' then some 62
  else if c = '/' then some 63
  else none

/-- Reading after `place` characters of a group, with the bits that are left over and the
padding marks seen since; none when the last group is incomplete. -/
def decodeFrom (place left pads : Nat) : List Char → Option (List UInt8)
  | [] => if place = 0 then some [] else none
  | c :: rest =>
      if c = '=' then
        if 2 ≤ place && 4 ≤ place + pads + 1 then some []
        else decodeFrom place left (if 2 ≤ place then pads + 1 else pads) rest
      else
        match sextet? c with
        | none => decodeFrom place left pads rest
        | some n =>
            if place = 0 then decodeFrom 1 n 0 rest
            else if place = 1 then
              (decodeFrom 2 (n % 16) 0 rest).map (UInt8.ofNat (left * 4 + n / 16) :: ·)
            else if place = 2 then
              (decodeFrom 3 (n % 4) 0 rest).map (UInt8.ofNat (left * 16 + n / 4) :: ·)
            else (decodeFrom 0 0 0 rest).map (UInt8.ofNat (left * 64 + n) :: ·)

def decode? (text : List Char) : Option (List UInt8) := decodeFrom 0 0 0 text

end VoiceIntents.Text.Base64

/-!
## UTF-8

Texts as bytes and back. Decoding fails at the first byte sequence that is no character, and
says which bytes those are and what is wrong with them.
-/

namespace VoiceIntents.Text.Utf8

/-- What is wrong with a byte sequence. -/
inductive Reason where
  | invalidStart
  | invalidContinuation
  | unexpectedEnd
  deriving DecidableEq, Repr

/-- The bytes at positions from `start` to before `stop` begin with `byte` and are no
character. -/
structure Fault where
  byte : UInt8
  start : Nat
  stop : Nat
  reason : Reason
  deriving DecidableEq, Repr

def Reason.describe : Reason → String
  | .invalidStart => "invalid start byte"
  | .invalidContinuation => "invalid continuation byte"
  | .unexpectedEnd => "unexpected end of data"

/-- A single byte is shown, a longer sequence is given by its first and last position. -/
def Fault.describe (f : Fault) : String :=
  let place :=
    if f.stop = f.start + 1 then
      "byte 0x" ++ String.ofList (hexDigits 2 f.byte.toNat) ++ " in position "
        ++ String.ofList (Nat.toDigits 10 f.start)
    else
      "bytes in position " ++ String.ofList (Nat.toDigits 10 f.start) ++ "-"
        ++ String.ofList (Nat.toDigits 10 (f.stop - 1))
  "'utf-8' codec can't decode " ++ place ++ ": " ++ f.reason.describe

def within (low high : Nat) (b : UInt8) : Bool := low ≤ b.toNat && b.toNat ≤ high

def isTail (b : UInt8) : Bool := within 0x80 0xBF b

/-- The least and the greatest second byte after a first byte of three or four. -/
def secondRange (lead : UInt8) : Nat × Nat :=
  if lead = 0xE0 then (0xA0, 0xBF)
  else if lead = 0xED then (0x80, 0x9F)
  else if lead = 0xF0 then (0x90, 0xBF)
  else if lead = 0xF4 then (0x80, 0x8F)
  else (0x80, 0xBF)

def isSecond (lead b : UInt8) : Bool := within (secondRange lead).1 (secondRange lead).2 b

/-- The low six bits of a later byte of a character. -/
def tailBits (b : UInt8) : Nat := b.toNat % 64

/-- The characters of a byte sequence that begins at the given position. -/
def decodeFrom : Nat → List UInt8 → Except Fault (List Char)
  | _, [] => .ok []
  | p, a :: rest =>
      let bad (length : Nat) : Except Fault (List Char) :=
        .error ⟨a, p, p + length, .invalidContinuation⟩
      let cut (length : Nat) : Except Fault (List Char) :=
        .error ⟨a, p, p + length, .unexpectedEnd⟩
      if a.toNat < 0x80 then
        (decodeFrom (p + 1) rest).map (Char.ofNat a.toNat :: ·)
      else if within 0xC2 0xDF a then
        match rest with
        | [] => cut 1
        | b :: rest =>
            if isTail b then
              (decodeFrom (p + 2) rest).map (Char.ofNat (a.toNat % 32 * 64 + tailBits b) :: ·)
            else bad 1
      else if within 0xE0 0xEF a then
        match rest with
        | [] => cut 1
        | [b] => if isSecond a b then cut 2 else bad 1
        | b :: c :: rest =>
            if !isSecond a b then bad 1
            else if !isTail c then bad 2
            else
              (decodeFrom (p + 3) rest).map
                (Char.ofNat ((a.toNat % 16 * 64 + tailBits b) * 64 + tailBits c) :: ·)
      else if within 0xF0 0xF4 a then
        match rest with
        | [] => cut 1
        | [b] => if isSecond a b then cut 2 else bad 1
        | [b, c] => if !isSecond a b then bad 1 else if !isTail c then bad 2 else cut 3
        | b :: c :: d :: rest =>
            if !isSecond a b then bad 1
            else if !isTail c then bad 2
            else if !isTail d then bad 3
            else
              (decodeFrom (p + 4) rest).map
                (Char.ofNat (((a.toNat % 8 * 64 + tailBits b) * 64 + tailBits c) * 64
                  + tailBits d) :: ·)
      else .error ⟨a, p, p + 1, .invalidStart⟩

def decode (data : List UInt8) : Except Fault String := (decodeFrom 0 data).map String.ofList

/-- The bytes of a character: the fewest that hold its number. -/
def encodeChar (c : Char) : List UInt8 :=
  let n := c.toNat
  let tail (k : Nat) : UInt8 := UInt8.ofNat (0x80 + k % 64)
  if n < 0x80 then [UInt8.ofNat n]
  else if n < 0x800 then [UInt8.ofNat (0xC0 + n / 64), tail n]
  else if n < 0x10000 then [UInt8.ofNat (0xE0 + n / 4096), tail (n / 64), tail n]
  else [UInt8.ofNat (0xF0 + n / 262144), tail (n / 4096), tail (n / 64), tail n]

def encode (text : String) : List UInt8 := text.toList.flatMap encodeChar

end VoiceIntents.Text.Utf8
