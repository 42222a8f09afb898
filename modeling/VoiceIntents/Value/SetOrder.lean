import VoiceIntents.Host

/-!
# The order of sets

A set is shown in the order in which its members stand in a table, not in the order in which
they came. The residue of a number says which places it may take, and it takes the first that
is free. Equal numbers have equal residues, whatever their kind. Members of other kinds have
none, and the order of a set that has such members is up to the run.
-/

namespace VoiceIntents

namespace Binary64

/-- The prime that residues are taken by. -/
def residuePrime : Nat := twoTo 61 - 1

/-- The residue of a magnitude, with its sign. The residue `-1` is not used. -/
def signedResidue (negative : Bool) (magnitude : Nat) : Int :=
  let residue := magnitude % residuePrime
  if negative then (if residue = 1 then -2 else -(residue : Int)) else residue

/-- The residue of a number. Doubling 61 times changes nothing by this prime, so to halve is to
double 60 times. -/
def residue? : Binary64 → Option Int
  | .finite negative significand (.ofNat e) =>
      some (signedResidue negative (significand * twoTo (e % 61)))
  | .finite negative significand (.negSucc e) =>
      some (signedResidue negative (significand * twoTo (60 * (e + 1) % 61)))
  | .infinity negative => some (if negative then -314159 else 314159)
  | .nan => none

end Binary64

/-- The residue of a number or a boolean. -/
def Scalar.residue? : Scalar → Option Int
  | .float x => x.residue?
  | s => s.integer?.map fun n => Binary64.signedResidue (n < 0) n.natAbs

namespace SetOrder

/-- Places and their members. -/
abbrev Table := List (Nat × Scalar)

/-- The places of a table for some members: eight, or a power of two above twice their number. -/
def size (members : Nat) : Nat :=
  if members ≤ 4 then 8 else Binary64.twoTo ((2 * members).log2 + 1)

/-- How many places after a place are tried with it, unless the table ends before. -/
def neighbours : Nat := 9

/-- A place and the neighbours that are tried with it. -/
def stretch (size place : Nat) : List Nat :=
  List.range' place (if place + neighbours < size then neighbours + 1 else 1)

/-- The first free place from a place on. Where a whole stretch is taken, what is left of the
residue decides where to go on. -/
def freePlace (size : Nat) (taken : Nat → Bool) : (rounds place rest : Nat) → Nat
  | 0, place, _ => place
  | rounds + 1, place, rest =>
      match (stretch size place).find? fun p => !taken p with
      | some free => free
      | none => freePlace size taken rounds ((place * 5 + 1 + rest / 32) % size) (rest / 32)

/-- Puts a member into a table. Its residue counts as a word of 64 bits, which is used up after
13 rounds; from then on the rounds go through all places. -/
def put (size : Nat) (table : Table) (residue : Int) (member : Scalar) : Table :=
  let word := (residue % (Binary64.twoTo 64 : Int)).toNat
  let taken (p : Nat) : Bool := table.any (·.1 = p)
  (freePlace size taken (size + 13) (word % size) word, member) :: table

end SetOrder

/-- The members of a set, by its number, in the order in which they are shown. -/
def setOrder [Listing] (set : Nat) (members : List Scalar) : List Scalar :=
  match members.mapM fun member => member.residue?.map (·, member) with
  | none => Listing.order set members
  | some keyed =>
      let size := SetOrder.size members.length
      let table := keyed.foldl (fun table entry => SetOrder.put size table entry.1 entry.2) []
      (List.range size).filterMap fun place => table.lookup place

end VoiceIntents
