import VoiceIntents.Calendar
import VoiceIntents.Number.Binary64

/-!
# Document values

The values that documents hold. Map keys and set members are scalars, maps keep the order of
their entries, and a collection that contains itself is cut where it is met again.
-/

namespace VoiceIntents

inductive Scalar where
  | null
  | bool (b : Bool)
  | int (n : Int)
  | float (x : Binary64)
  | text (s : String)
  | bytes (data : List UInt8)
  | date (d : Date)
  | time (t : TimeOfDay)
  | moment (m : Moment)
  deriving DecidableEq, Repr

/-- The kinds of collection that can contain themselves. -/
inductive Shape where
  | list
  | map
  | pair
  deriving DecidableEq, Repr

/-- A document value. The members of a set stand in the order in which it lists them, and
`again shape levels` stands for the collection `levels` levels up, which contains itself there.
Of a collection that has too many levels to be shown only that much is kept. -/
inductive Value where
  | scalar (s : Scalar)
  | list (items : List Value)
  | map (entries : List (Scalar × Value))
  | set (members : List Scalar)
  | pair (first second : Value)
  | again (shape : Shape) (levels : Nat)
  | deep
  deriving Repr

instance : Inhabited Value := ⟨.scalar .null⟩

namespace Scalar

/-- The integer that a boolean or an integer counts as. -/
def integer? : Scalar → Option Int
  | .bool b => some (if b then 1 else 0)
  | .int n => some n
  | _ => none

/-- Equality as keys: numbers and booleans compare by value, moments by their instant. A
not-a-number is not the same as any key. -/
def same (a b : Scalar) : Bool :=
  match a, b with
  | .float x, .float y => x.equal y
  | .float x, b => b.integer?.any x.equalInt
  | a, .float y => a.integer?.any y.equalInt
  | .moment x, .moment y => x.same y
  | a, b =>
      match a.integer?, b.integer? with
      | some m, some n => m = n
      | none, none => a = b
      | _, _ => false

/-- Null, false, zero and nothing at all count as empty. -/
def isEmpty : Scalar → Bool
  | .null => true
  | .bool b => !b
  | .int n => n = 0
  | .float x => x.isZero
  | .text s => s = ""
  | .bytes data => data.isEmpty
  | _ => false

end Scalar

namespace Value

def null : Value := .scalar .null

def text (s : String) : Value := .scalar (.text s)

def bool (b : Bool) : Value := .scalar (.bool b)

def int (n : Int) : Value := .scalar (.int n)

def isEmpty : Value → Bool
  | .scalar s => s.isEmpty
  | .list items => items.isEmpty
  | .map entries => entries.isEmpty
  | .set members => members.isEmpty
  | .pair _ _ | .again _ _ | .deep => false

mutual

/-- The levels of a value. A set is shown through the list of its members. -/
def levels : Value → Nat
  | .scalar _ | .again _ _ | .deep => 1
  | .list items => mostLevels items + 1
  | .map entries => mostEntryLevels entries + 1
  | .set members => if members.isEmpty then 1 else 3
  | .pair first second => max first.levels second.levels + 1

def mostLevels : List Value → Nat
  | [] => 0
  | v :: rest => max v.levels (mostLevels rest)

def mostEntryLevels : List (Scalar × Value) → Nat
  | [] => 0
  | (_, v) :: rest => max v.levels (mostEntryLevels rest)

end

end Value

/-- The entry of a text key. -/
def lookup (entries : List (Scalar × Value)) (key : String) : Option Value :=
  (entries.find? fun entry => entry.1 = .text key).map (·.2)

end VoiceIntents
