import VoiceIntents.Number.Numeral
import VoiceIntents.Number.Shortest
import VoiceIntents.Text.Literal
import VoiceIntents.Value.Basic

/-!
# The text of values

Every value has a plain text, which names and phrases are made of, and an inspected text for
messages and for what stands inside collections. They differ only for texts, dates and times.
An integer of more than 4300 digits has neither, nor has a collection with too many levels.
-/

namespace VoiceIntents

/-- Why a value has no text. -/
inductive DisplayFault where
  | tooManyDigits
  | tooDeep
  deriving DecidableEq, Repr

def displayInt (n : Int) : Except DisplayFault String :=
  let digits := Nat.toDigits 10 n.natAbs
  if digits.length ≤ Numeral.digitLimit then
    .ok ((if n < 0 then "-" else "") ++ String.ofList digits)
  else .error .tooManyDigits

/-- A call with its arguments. -/
def callText (name : String) (arguments : List String) : String :=
  name ++ "(" ++ ", ".intercalate arguments ++ ")"

def natText (n : Nat) : String := String.ofList (Nat.toDigits 10 n)

def intText (n : Int) : String := (if n < 0 then "-" else "") ++ natText n.natAbs

namespace Date

def inspect (d : Date) : String :=
  callText "datetime.date" [natText d.year, natText d.month, natText d.day]

end Date

namespace TimeOfDay

/-- Hour and minute, then seconds and microseconds up to the last that is not zero. -/
def parts (t : TimeOfDay) : List String :=
  [natText t.hour, natText t.minute]
    ++ (if t.micro ≠ 0 then [natText t.second, natText t.micro]
        else if t.second ≠ 0 then [natText t.second] else [])

def inspect (t : TimeOfDay) : String := callText "datetime.time" t.parts

end TimeOfDay

namespace Moment

/-- A duration in whole days and the seconds of a day that remain. -/
def inspectDuration (seconds : Int) : String :=
  let days := seconds / 86400
  let rest := seconds % 86400
  let shown := (if days ≠ 0 then ["days=" ++ intText days] else [])
    ++ (if rest ≠ 0 then ["seconds=" ++ intText rest] else [])
  callText "datetime.timedelta" (if shown.isEmpty then ["0"] else shown)

def inspectOffset (seconds : Int) : String :=
  if seconds = 0 then "datetime.timezone.utc"
  else callText "datetime.timezone" [inspectDuration seconds]

def inspect (m : Moment) : String :=
  callText "datetime.datetime"
    ([natText m.date.year, natText m.date.month, natText m.date.day] ++ m.time.parts
      ++ (m.offset.map fun s => "tzinfo=" ++ inspectOffset s).toList)

end Moment

namespace Scalar

/-- The text of a scalar inside messages and collections. -/
def inspect : Scalar → Except DisplayFault String
  | .null => .ok "None"
  | .bool b => .ok (if b then "True" else "False")
  | .int n => displayInt n
  | .float x => .ok x.toText
  | .text s => .ok (Text.inspect s)
  | .bytes data => .ok (Text.inspectBytes data)
  | .date d => .ok d.inspect
  | .time t => .ok t.inspect
  | .moment m => .ok m.inspect

/-- The plain text of a scalar. -/
def display : Scalar → Except DisplayFault String
  | .text s => .ok s
  | .date d => .ok d.toText
  | .time t => .ok t.toText
  | .moment m => .ok m.toText
  | s => s.inspect

end Scalar

/-- How a collection is shown where it contains itself. -/
def Shape.inspect : Shape → String
  | .list => "[...]"
  | .map => "\x7b...\x7d"
  | .pair => "(...)"

namespace Value

mutual

def inspect : Value → Except DisplayFault String
  | .scalar s => s.inspect
  | .list items => do
      return "[" ++ ", ".intercalate (← inspectAll items) ++ "]"
  | .map entries => do
      return "\x7b" ++ ", ".intercalate (← inspectEntries entries) ++ "\x7d"
  | .set members => do
      if members.isEmpty then return "set()"
      return "\x7b" ++ ", ".intercalate (← members.mapM Scalar.inspect) ++ "\x7d"
  | .pair first second => do
      return "(" ++ (← inspect first) ++ ", " ++ (← inspect second) ++ ")"
  | .again shape _ => .ok shape.inspect
  | .deep => .error .tooDeep

def inspectAll : List Value → Except DisplayFault (List String)
  | [] => .ok []
  | v :: rest => do
      let shown ← inspect v
      return shown :: (← inspectAll rest)

def inspectEntries : List (Scalar × Value) → Except DisplayFault (List String)
  | [] => .ok []
  | (key, v) :: rest => do
      let shown := (← key.inspect) ++ ": " ++ (← inspect v)
      return shown :: (← inspectEntries rest)

end

def display : Value → Except DisplayFault String
  | .scalar s => s.display
  | v => v.inspect

end Value

end VoiceIntents
