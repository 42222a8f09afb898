import VoiceIntents.Proofs.WellFormed

/-!
# The slots of an inference

An inference reports the value of a variable under one of its two names, the one that is
written and the one that is escaped. No two variables of an intent share a name, so what one of
them is given does not depend on the others.
-/

namespace VoiceIntents

open Identifier (escape)

section Lookup
variable {entries : List (Scalar × Value)} {key : String} {x : Value}

theorem mem_of_lookup (h : lookup entries key = some x) : (.text key, x) ∈ entries := by
  obtain ⟨⟨k, y⟩, hfound, rfl⟩ := Option.map_eq_some_iff.mp h
  have hk : k = .text key := by simpa using List.find?_some hfound
  exact hk ▸ List.mem_of_find?_eq_some hfound

theorem lookup_eq_none (h : ∀ y, (.text key, y) ∉ entries) : lookup entries key = none := by
  rw [Option.eq_none_iff_forall_ne_some]
  intro y hy
  exact h y (mem_of_lookup hy)

/-- An entry is found when its key has no other value. -/
theorem lookup_of_mem_unique (hmem : (.text key, x) ∈ entries)
    (hunique : ∀ y, (.text key, y) ∈ entries → y = x) : lookup entries key = some x := by
  cases hfound : lookup entries key with
  | none =>
      simp only [lookup, Option.map_eq_none_iff, List.find?_eq_none] at hfound
      exact absurd (by simp) (hfound _ hmem)
  | some y => rw [hunique y (mem_of_lookup hfound)]

end Lookup

def Value.isNull : Value → Bool
  | .scalar .null => true
  | _ => false

/-- The entry of a key, unless it is null. -/
def present (slots : List (Scalar × Value)) (key : String) : Option Value :=
  (lookup slots key).filter fun v => !v.isNull

namespace Variable

/-- The names under which the value of a variable may stand. -/
def names (v : Variable) : List String := [v.rawName, v.name]

/-- The value of a variable stands under its name as written or under the escaped one. -/
def given (v : Variable) (slots : List (Scalar × Value)) : Option Value :=
  (present slots v.rawName).or (present slots v.name)

end Variable

section Names
variable {g : Grammar} {i : Intent}

/-- Both names of a variable are escaped to its identifier. -/
theorem escape_of_mem_names (hg : g.WellFormed) (hi : i ∈ g.intents) {v : Variable}
    (hv : v ∈ i.vars) {name : String} (hname : name ∈ v.names) : escape name = v.name := by
  simp only [Variable.names, List.mem_cons, List.not_mem_nil, or_false] at hname
  rcases hname with rfl | rfl
  · exact hg.vars_escaped i hi v hv
  · exact (hg.vars_usable i hi v hv).escape_eq

/-- No two variables of an intent have a name in common. -/
theorem eq_of_mem_names (hg : g.WellFormed) (hi : i ∈ g.intents) {v w : Variable}
    (hv : v ∈ i.vars) (hw : w ∈ i.vars) {name : String} (hname : name ∈ v.names)
    (hname' : name ∈ w.names) : v = w := by
  apply List.inj_on_of_nodup_map (hg.vars_distinct i hi) hv hw
  rw [← escape_of_mem_names hg hi hv hname, escape_of_mem_names hg hi hw hname']

end Names

section Given
variable {slots : List (Scalar × Value)}

theorem present_eq_none {name : String} (h : lookup slots name = none) :
    present slots name = none := by
  rw [present, h]
  rfl

theorem present_eq_text {name word : String} (h : lookup slots name = some (.text word)) :
    present slots name = some (.text word) := by
  rw [present, h]
  rfl

/-- A variable without an entry under its names is given no value. -/
theorem given_eq_none {v : Variable} (h : ∀ name ∈ v.names, lookup slots name = none) :
    v.given slots = none := by
  rw [Variable.given, present_eq_none (h v.rawName (by simp [Variable.names])),
    present_eq_none (h v.name (by simp [Variable.names]))]
  rfl

/-- A variable with a word under one of its names only is given the word. -/
theorem given_eq_text {v : Variable} {name word : String} (hname : name ∈ v.names)
    (h : lookup slots name = some (.text word))
    (hother : ∀ other ∈ v.names, name ≠ other → lookup slots other = none) :
    v.given slots = some (.text word) := by
  unfold Variable.given
  by_cases hraw : name = v.rawName
  · rw [← hraw, present_eq_text h]
    rfl
  · have hescaped : name = v.name := by simpa [Variable.names, hraw] using hname
    rw [present_eq_none (hother v.rawName (by simp [Variable.names]) hraw), ← hescaped,
      present_eq_text h]
    rfl

end Given

end VoiceIntents
