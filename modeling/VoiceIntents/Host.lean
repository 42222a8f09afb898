import VoiceIntents.Text.CharClass
import VoiceIntents.Value.Basic

/-!
# Hosts

What the program takes from the interpreter and the terminal that it runs with. Versions and
machines differ in it; of names no more is assumed than that those in ASCII are taken as they are
written. The order in which sets list their members changes even from one run to the next.
-/

namespace VoiceIntents

class Host where
  /-- The name that a name in a module stands for; names may be spelled in several ways. -/
  fold : String → String
  fold_ascii : ∀ name, Text.IsAscii name → fold name = name
  /-- Whether an enumeration without members answers that it has no member of a value. Elsewhere
  it cannot be asked at all. -/
  asksEmptyEnums : Bool
  /-- The most collections of a document that are open at once. -/
  openRoom : Nat
  /-- The most mappings that are merged inside each other. -/
  mergeRoom : Nat
  /-- The most mappings in a row that stand for an entry of theirs. -/
  defaultRoom : Nat
  /-- The most levels of a value that are shown. -/
  levelRoom : Nat
  /-- The room for values inside each other in a manifest. -/
  nestingRoom : Nat
  /-- The length of the lines that tables are shown on. -/
  lineLength : Nat
  /-- The line that names the interpreter and its version. -/
  versionLine : String
  /-- What a call is answered with that cannot be understood. -/
  usageText : String
  /-- What a call for help is answered with. -/
  helpText : String

/-- The order in which each set of a run, by its number, lists members that are not all numbers. -/
class Listing where
  order : (set : Nat) → List Scalar → List Scalar
  order_perm : ∀ set members, (order set members).Perm members

namespace Text

/-- Letters that are written as one character. -/
def ligatures : List (Char × List Char) :=
  [('\ufb00', ['f', 'f']), ('\ufb01', ['f', 'i']), ('\ufb02', ['f', 'l']),
    ('\ufb03', ['f', 'f', 'i']), ('\ufb04', ['f', 'f', 'l']), ('\ufb05', ['s', 't']),
    ('\ufb06', ['s', 't'])]

/-- The characters that a character of a name stands for. -/
def foldChar (c : Char) : List Char :=
  if c.toNat < 128 then [c]
  -- The wide forms of ASCII stand in its order.
  else if 0xFF01 ≤ c.toNat && c.toNat ≤ 0xFF5E then [Char.ofNat (c.toNat - 0xFEE0)]
  else (ligatures.lookup c).getD [c]

/-- A name with plain letters for wide ones and for ligatures. -/
def foldName (name : String) : String := String.ofList (name.toList.flatMap foldChar)

theorem foldName_ascii (name : String) (h : IsAscii name) : foldName name = name := by
  have hchars (text : List Char) (h : ∀ c ∈ text, c.toNat < 128) :
      text.flatMap foldChar = text := by
    induction text with
    | nil => rfl
    | cons c rest ih =>
        obtain ⟨hc, hrest⟩ := List.forall_mem_cons.mp h
        rw [List.flatMap_cons, ih hrest, foldChar, if_pos hc]
        rfl
  rw [foldName, hchars name.toList h, String.ofList_toList]

end Text

/-- A host with a wide terminal. Names are folded as far as ligatures and wide letters go. -/
@[reducible] def Host.plain : Host where
  fold := Text.foldName
  fold_ascii := Text.foldName_ascii
  asksEmptyEnums := true
  openRoom := 488
  mergeRoom := 980
  defaultRoom := 978
  levelRoom := 985
  nestingRoom := 984
  lineLength := 400
  versionLine := "Python CPython 3.11.2"
  usageText := "Try 'rhinogen --help' for help.\n"
  helpText := "Usage: rhinogen [OPTIONS] COMMAND [ARGS]...\n"

/-- Sets list their members as they were written. -/
@[reducible] def Listing.written : Listing where
  order := fun _ members => members
  order_perm := fun _ members => .refl members

end VoiceIntents
