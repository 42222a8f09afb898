/-!
# Dates and times

Calendar dates from year 1 to 9999, times of day to the microsecond, and moments: a date and
a time, with the distance from universal time where it is known.
-/

namespace VoiceIntents

structure Date where
  year : Nat
  month : Nat
  day : Nat
  deriving DecidableEq, Repr

structure TimeOfDay where
  hour : Nat
  minute : Nat
  second : Nat
  micro : Nat
  deriving DecidableEq, Repr

/-- A date and a time of day. The offset counts seconds east of universal time. -/
structure Moment where
  date : Date
  time : TimeOfDay
  offset : Option Int
  deriving DecidableEq, Repr

/-- A number padded with zeros to a width. -/
def padded (width n : Nat) : String :=
  let digits := Nat.toDigits 10 n
  String.ofList (List.replicate (width - digits.length) '0' ++ digits)

namespace Date

def isLeap (year : Nat) : Bool := year % 4 = 0 && (year % 100 ≠ 0 || year % 400 = 0)

def daysIn (year month : Nat) : Nat :=
  if month = 2 then (if isLeap year then 29 else 28)
  else if month = 4 || month = 6 || month = 9 || month = 11 then 30
  else 31

/-- The date with these parts, if the calendar has it. -/
def ofParts? (year month day : Nat) : Option Date :=
  if 1 ≤ year && year ≤ 9999 && 1 ≤ month && month ≤ 12 && 1 ≤ day && day ≤ daysIn year month
  then some ⟨year, month, day⟩ else none

/-- Days before the first of January of a year. -/
def daysBefore (year : Nat) : Nat :=
  let y := year - 1
  y * 365 + y / 4 - y / 100 + y / 400

/-- Days since the day before year 1. -/
def ordinal (d : Date) : Nat :=
  (List.range (d.month - 1)).foldl (fun n m => n + daysIn d.year (m + 1)) (daysBefore d.year) + d.day

def toText (d : Date) : String :=
  padded 4 d.year ++ "-" ++ padded 2 d.month ++ "-" ++ padded 2 d.day

end Date

namespace TimeOfDay

/-- The time with these parts, if a day has it. -/
def ofParts? (hour minute second micro : Nat) : Option TimeOfDay :=
  if hour < 24 && minute < 60 && second < 60 && micro < 1000000
  then some ⟨hour, minute, second, micro⟩ else none

def seconds (t : TimeOfDay) : Nat := t.hour * 3600 + t.minute * 60 + t.second

/-- Hours to seconds, and the fraction when there is one. -/
def toText (t : TimeOfDay) : String :=
  let whole := padded 2 t.hour ++ ":" ++ padded 2 t.minute ++ ":" ++ padded 2 t.second
  if t.micro = 0 then whole else whole ++ "." ++ padded 6 t.micro

end TimeOfDay

namespace Moment

/-- Offsets stay within a day on either side. -/
def validOffset (seconds : Int) : Bool := seconds.natAbs < 86400

/-- Microseconds since the start of the calendar, in universal time when the offset is known. -/
def instant (m : Moment) : Int :=
  let civil : Int := (m.date.ordinal * 86400 + m.time.seconds : Nat)
  (civil - m.offset.getD 0) * 1000000 + m.time.micro

/-- Moments with offsets are the same at the same instant; those without by their parts. -/
def same (a b : Moment) : Bool :=
  a.offset.isSome = b.offset.isSome && a.instant = b.instant

def offsetText (seconds : Int) : String :=
  let n := seconds.natAbs
  let base := (if seconds < 0 then "-" else "+") ++ padded 2 (n / 3600) ++ ":"
    ++ padded 2 (n / 60 % 60)
  if n % 60 = 0 then base else base ++ ":" ++ padded 2 (n % 60)

def toText (m : Moment) : String :=
  m.date.toText ++ " " ++ m.time.toText ++ (m.offset.map offsetText).getD ""

end Moment

end VoiceIntents
