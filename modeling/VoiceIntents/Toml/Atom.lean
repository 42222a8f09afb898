import VoiceIntents.Number.Numeral
import VoiceIntents.Text.Encoding
import VoiceIntents.Toml.Error
import VoiceIntents.Value.Basic

/-!
# Numbers, dates and times

The scalars without quotes. Each reader takes the longest spelling at the start of a text and
gives nothing where there is none.
-/

namespace VoiceIntents.Toml

/-- Two digits that spell a number in a range. -/
def twoDigits? (low high : Nat) (text : List Char) : Option (Taken Nat) := do
  let (digits, rest) ← Text.digits? 2 2 text
  let n := Text.number digits
  if low ≤ n && n ≤ high then some (n, rest) else none

/-- A point and digits; only the first six count. -/
def fraction (text : List Char) : Taken Nat :=
  match text with
  | '.' :: rest =>
      let digits := rest.takeWhile Char.isDigit
      if digits.isEmpty then (0, text) else (Text.millionths digits, rest.drop digits.length)
  | _ => (0, text)

/-- A time of day, to the second at least. -/
def time? (text : List Char) : Option (Taken TimeOfDay) := do
  let (hour, rest) ← twoDigits? 0 23 text
  let (minute, rest) ← twoDigits? 0 59 (← Text.expect? ':' rest)
  let (second, rest) ← twoDigits? 0 59 (← Text.expect? ':' rest)
  let (micro, rest) := fraction rest
  return (⟨hour, minute, second, micro⟩, rest)

/-- Year, month and day; the month may still have fewer days. -/
def dateParts? (text : List Char) : Option (Taken (Nat × Nat × Nat)) := do
  let (year, rest) ← Text.digits? 4 4 text
  let (month, rest) ← twoDigits? 1 12 (← Text.expect? '-' rest)
  let (day, rest) ← twoDigits? 1 31 (← Text.expect? '-' rest)
  return ((Text.number year, month, day), rest)

/-- The seconds of an offset in hours and minutes. -/
def zoneSeconds? (text : List Char) : Option (Taken Int) := do
  let (hours, rest) ← twoDigits? 0 23 text
  let (minutes, rest) ← twoDigits? 0 59 (← Text.expect? ':' rest)
  return (((hours * 60 + minutes) * 60 : Nat), rest)

/-- The offset after a time, where it has one. -/
def zone (text : List Char) : Taken (Option Int) :=
  match text with
  | c :: rest =>
      if c = 'Z' || c = 'z' then (some 0, rest)
      else if c = '+' then ((zoneSeconds? rest).map fun (n, rest) => (some n, rest)).getD (none, text)
      else if c = '-' then
        ((zoneSeconds? rest).map fun (n, rest) => (some (-n), rest)).getD (none, text)
      else (none, text)
  | [] => (none, [])

/-- The time after a date, if a letter T or one space leads to it. -/
def timeAfter? (text : List Char) : Option (Taken TimeOfDay) :=
  match text with
  | c :: rest => if c = 'T' || c = 't' || c = ' ' then time? rest else none
  | [] => none

/-- A date, or a moment where a time follows. The date has to be in the calendar. -/
def dateOrMoment? (text : List Char) : Option (Option (Taken Scalar)) := do
  let ((year, month, day), rest) ← dateParts? text
  let date := Date.ofParts? year month day
  match timeAfter? rest with
  | none => return date.map fun date => (.date date, rest)
  | some (time, rest) =>
      let (offset, rest) := zone rest
      return date.map fun date => (.moment ⟨date, time, offset⟩, rest)

/-- Digits, with single underscores between them left out. -/
def digitRun (isDigit : Char → Bool) : List Char → Taken (List Char)
  | '_' :: c :: rest =>
      if isDigit c then
        let (run, rest) := digitRun isDigit rest
        (c :: run, rest)
      else ([], '_' :: c :: rest)
  | c :: rest =>
      if isDigit c then
        let (run, rest) := digitRun isDigit rest
        (c :: run, rest)
      else ([], c :: rest)
  | [] => ([], [])

/-- A run that starts with a digit. -/
def digitRun? (isDigit : Char → Bool) (text : List Char) : Option (Taken (List Char)) :=
  match text with
  | c :: _ => if isDigit c then some (digitRun isDigit text) else none
  | [] => none

/-- The digits of an integer in base sixteen, eight or two after a zero and the base's letter. -/
def basedDigits? (text : List Char) : Option (Nat × Taken (List Char)) :=
  match text with
  | '0' :: 'x' :: rest => (digitRun? (fun c => (Text.hexValue? c).isSome) rest).map (16, ·)
  | '0' :: 'o' :: rest => (digitRun? (fun c => '0' ≤ c && c ≤ '7') rest).map (8, ·)
  | '0' :: 'b' :: rest => (digitRun? (fun c => c = '0' || c = '1') rest).map (2, ·)
  | _ => none

/-- A sign as it is spelled. -/
def spelledSign (text : List Char) : Taken (List Char) :=
  match text with
  | c :: rest => if c = '+' || c = '-' then ([c], rest) else ([], text)
  | [] => ([], [])

/-- The whole part of a decimal: a zero alone, or digits that start with another one. -/
def wholeDigits? (text : List Char) : Option (Taken (List Char)) :=
  match text with
  | '0' :: rest => some (['0'], rest)
  | _ => digitRun? Char.isDigit text

/-- A point and digits as they are spelled. -/
def spelledFraction (text : List Char) : Taken (List Char) :=
  match text with
  | '.' :: rest =>
      ((digitRun? Char.isDigit rest).map fun (run, rest) => ('.' :: run, rest)).getD ([], text)
  | _ => ([], text)

/-- An exponent as it is spelled. -/
def spelledExponent (text : List Char) : Taken (List Char) :=
  match text with
  | c :: rest =>
      if c = 'e' || c = 'E' then
        let (sign, digits) := spelledSign rest
        ((digitRun? Char.isDigit digits).map fun (run, rest) =>
          ('e' :: sign ++ run, rest)).getD ([], text)
      else ([], text)
  | [] => ([], [])

/-- The value of an integer's digits. -/
def integer (base : Nat) (digits : List Char) : Except Error Scalar :=
  match Numeral.integer base digits with
  | .ok n => .ok (.int n)
  | .error _ => .error (.unreadable .tooManyDigits)

/-- A decimal is an integer unless it has a fraction or an exponent. -/
def decimal? (text : List Char) : Option (Except Error (Taken Scalar)) := do
  let (sign, rest) := spelledSign text
  let (whole, rest) ← wholeDigits? rest
  let (fraction, rest) := spelledFraction rest
  let (exponent, rest) := spelledExponent rest
  if fraction.isEmpty && exponent.isEmpty then
    return (integer 10 (sign ++ whole)).map (·, rest)
  else
    return .ok (.float (← Numeral.float? (sign ++ whole ++ fraction ++ exponent)), rest)

def number? (text : List Char) : Option (Except Error (Taken Scalar)) :=
  match basedDigits? text with
  | some (base, digits, rest) => some ((integer base digits).map (·, rest))
  | none => decimal? text

/-- The words for infinity and for what is not a number, after a sign if there is one. -/
def word? (text : List Char) : Option (Taken Scalar) :=
  match spelledSign text with
  | (sign, 'i' :: 'n' :: 'f' :: rest) => some (.float (.infinity (sign = ['-'])), rest)
  | (_, 'n' :: 'a' :: 'n' :: rest) => some (.float .nan, rest)
  | _ => none

/-- The number, date or time at the start of a text. -/
def readAtom (text : List Char) : Except Error (Taken Scalar) :=
  match dateOrMoment? text with
  | some (some taken) => .ok taken
  | some none => fail .noSuchDate text
  | none =>
      match time? text with
      | some (time, rest) => .ok (.time time, rest)
      | none =>
          match number? text with
          | some taken => taken
          | none =>
              match word? text with
              | some taken => .ok taken
              | none => fail .noValue text

end VoiceIntents.Toml
