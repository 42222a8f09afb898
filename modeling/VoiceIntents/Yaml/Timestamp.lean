import VoiceIntents.Calendar
import VoiceIntents.Text.Encoding
import VoiceIntents.Yaml.Error

/-!
# Timestamps

The parts of a timestamp as they are spelled, and the date or moment that they name.
-/

namespace VoiceIntents.Yaml

/-- The zone of a timestamp: universal time, or hours and minutes before or after it. -/
inductive ZoneText where
  | universal
  | offset (negative : Bool) (hours minutes : Nat)
  deriving Repr

structure ClockText where
  hour : Nat
  minute : Nat
  second : Nat
  fraction : List Char
  zone : Option ZoneText
  deriving Repr

/-- A spelled timestamp. `full` tells whether month and day have two digits each. -/
structure TimestampText where
  year : Nat
  month : Nat
  day : Nat
  full : Bool
  clock : Option ClockText
  deriving Repr

namespace Timestamp

open Text (number digits? expect?)

/-- What stands between a date and a time: a letter T or blanks. -/
def gap? : List Char → Option (List Char)
  | c :: rest =>
      if c = 'T' || c = 't' then some rest
      else if c = ' ' || c = '\t' then some (rest.dropWhile fun a => a = ' ' || a = '\t')
      else none
  | [] => none

/-- The zone after a time; it ends the text. -/
def zone? (text : List Char) : Option (Option ZoneText) :=
  match text.dropWhile fun a => a = ' ' || a = '\t' with
  | [] => if text.isEmpty then some none else none
  | 'Z' :: rest => if rest.isEmpty then some (some .universal) else none
  | c :: rest => do
      if c ≠ '+' && c ≠ '-' then none
      let (hours, rest) ← digits? 1 2 rest
      if rest.isEmpty then return some (.offset (c = '-') (number hours) 0)
      let (minutes, rest) ← digits? 2 2 (← expect? ':' rest)
      if rest.isEmpty then return some (.offset (c = '-') (number hours) (number minutes)) else none

def clock? (text : List Char) : Option ClockText := do
  let (hour, rest) ← digits? 1 2 (← gap? text)
  let (minute, rest) ← digits? 2 2 (← expect? ':' rest)
  let (second, rest) ← digits? 2 2 (← expect? ':' rest)
  let (fraction, rest) := match rest with
    | '.' :: rest => (rest.takeWhile Char.isDigit, rest.dropWhile Char.isDigit)
    | _ => ([], rest)
  return ⟨number hour, number minute, number second, fraction, ← zone? rest⟩

/-- The parts of a timestamp, if the whole text is one. -/
def parse? (text : List Char) : Option TimestampText := do
  let (year, rest) ← digits? 4 4 text
  let (month, rest) ← digits? 1 2 (← expect? '-' rest)
  let (day, rest) ← digits? 1 2 (← expect? '-' rest)
  let full := month.length = 2 && day.length = 2
  if rest.isEmpty then return ⟨number year, number month, number day, full, none⟩
  return ⟨number year, number month, number day, full, some (← clock? rest)⟩

def offset? : Option ZoneText → Option (Option Int)
  | none => some none
  | some .universal => some (some 0)
  | some (.offset negative hours minutes) =>
      let seconds : Int := (hours * 3600 + minutes * 60 : Nat)
      let seconds := if negative then -seconds else seconds
      if Moment.validOffset seconds then some (some seconds) else none

end Timestamp

namespace TimestampText

/-- A timestamp without a time is a date. -/
def date? (t : TimestampText) : Option Date := Date.ofParts? t.year t.month t.day

/-- The moment of a timestamp with a time. -/
def moment? (t : TimestampText) (c : ClockText) : Option Moment := do
  let offset ← Timestamp.offset? c.zone
  let date ← t.date?
  let time ← TimeOfDay.ofParts? c.hour c.minute c.second (Text.millionths c.fraction)
  return ⟨date, time, offset⟩

end TimestampText

end VoiceIntents.Yaml
