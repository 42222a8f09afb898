import VoiceIntents.Proofs.Stepwise
import VoiceIntents.Value.Display

/-!
# Values without a text

A value has no text only because of a part of it that has none: an integer with too many digits,
be it an item, a key, an entry or a member, or a collection with too many levels.
-/

namespace VoiceIntents

open Stepwise

/-- An integer with more digits than are shown. -/
def TooLong (n : Int) : Prop := Numeral.digitLimit < (Nat.toDigits 10 n.natAbs).length

/-- What stands in collections that is none, or is not kept. -/
inductive Value.Part where
  | scalar (s : Scalar)
  | deep

/-- A part stands somewhere in a value. -/
inductive Value.Holds : Part → Value → Prop
  | scalar {s : Scalar} : Holds (.scalar s) (.scalar s)
  | deep : Holds .deep .deep
  | item {part : Part} {items : List Value} {v : Value} (hv : v ∈ items) (h : Holds part v) :
      Holds part (.list items)
  | key {s : Scalar} {entries : List (Scalar × Value)} {v : Value} (h : (s, v) ∈ entries) :
      Holds (.scalar s) (.map entries)
  | entry {part : Part} {entries : List (Scalar × Value)} {key : Scalar} {v : Value}
      (hv : (key, v) ∈ entries) (h : Holds part v) : Holds part (.map entries)
  | member {s : Scalar} {members : List Scalar} (h : s ∈ members) : Holds (.scalar s) (.set members)
  | first {part : Part} {v w : Value} (h : Holds part v) : Holds part (.pair v w)
  | second {part : Part} {v w : Value} (h : Holds part w) : Holds part (.pair v w)

theorem Value.Holds.map_mono {part : Part} {entries entries' : List (Scalar × Value)}
    (h : Holds part (.map entries)) (hsub : entries ⊆ entries') : Holds part (.map entries') := by
  cases h with
  | key h => exact .key (hsub h)
  | entry hv h => exact .entry (hsub hv) h

/-- A part has no text for a cause. -/
inductive Value.Part.Textless : Part → DisplayFault → Prop
  | tooLong {n : Int} (h : TooLong n) : Textless (.scalar (.int n)) .tooManyDigits
  | tooDeep : Textless .deep .tooDeep

/-- A part without a text stands somewhere in the value. -/
def Value.Textless (v : Value) (cause : DisplayFault) : Prop :=
  ∃ part : Part, part.Textless cause ∧ Holds part v

theorem displayInt_eq_error {n : Int} {cause : DisplayFault} (h : displayInt n = .error cause) :
    TooLong n ∧ cause = .tooManyDigits := by
  unfold displayInt at h
  dsimp only at h
  split at h
  · cases h
  · next hlong => exact ⟨Nat.lt_of_not_le hlong, (Except.error.inj h).symm⟩

theorem Scalar.inspect_eq_error {s : Scalar} {cause : DisplayFault}
    (h : s.inspect = .error cause) : (Value.Part.scalar s).Textless cause := by
  cases s with
  | int n =>
      obtain ⟨hn, rfl⟩ := displayInt_eq_error h
      exact .tooLong hn
  | _ => cases h

theorem Scalar.display_eq_error {s : Scalar} {cause : DisplayFault}
    (h : s.display = .error cause) : (Value.Part.scalar s).Textless cause := by
  cases s with
  | int n => exact inspect_eq_error h
  | _ => cases h

namespace Value

mutual

theorem inspect_eq_error {cause : DisplayFault} :
    ∀ v : Value, v.inspect = .error cause → v.Textless cause
  | .scalar s, h => ⟨_, Scalar.inspect_eq_error h, .scalar⟩
  | .list items, h => by
      rw [inspect] at h
      rcases bind_eq_error_iff.mp h with h | ⟨_, _, h⟩
      · obtain ⟨v, hv, part, hpart, hin⟩ := inspectAll_eq_error items h
        exact ⟨part, hpart, .item hv hin⟩
      · cases h
  | .map entries, h => by
      rw [inspect] at h
      rcases bind_eq_error_iff.mp h with h | ⟨_, _, h⟩
      · exact inspectEntries_eq_error entries h
      · cases h
  | .set members, h => by
      rw [inspect] at h
      split at h
      · cases h
      · rcases bind_eq_error_iff.mp h with h | ⟨_, _, h⟩
        · obtain ⟨s, hs, h⟩ := exists_of_mapM_eq_error h
          exact ⟨_, Scalar.inspect_eq_error h, .member hs⟩
        · cases h
  | .pair first second, h => by
      rw [inspect] at h
      rcases bind_eq_error_iff.mp h with h | ⟨_, _, h⟩
      · obtain ⟨part, hpart, hin⟩ := inspect_eq_error first h
        exact ⟨part, hpart, .first hin⟩
      · rcases bind_eq_error_iff.mp h with h | ⟨_, _, h⟩
        · obtain ⟨part, hpart, hin⟩ := inspect_eq_error second h
          exact ⟨part, hpart, .second hin⟩
        · cases h
  | .again shape levels, h => by cases h
  | .deep, h => by
      rw [← Except.error.inj h]
      exact ⟨.deep, .tooDeep, .deep⟩

theorem inspectAll_eq_error {cause : DisplayFault} :
    ∀ items : List Value, inspectAll items = .error cause → ∃ v ∈ items, v.Textless cause
  | [], h => by cases h
  | v :: rest, h => by
      rw [inspectAll] at h
      rcases bind_eq_error_iff.mp h with h | ⟨_, _, h⟩
      · exact ⟨v, List.mem_cons_self, inspect_eq_error v h⟩
      · rcases bind_eq_error_iff.mp h with h | ⟨_, _, h⟩
        · obtain ⟨w, hw, hin⟩ := inspectAll_eq_error rest h
          exact ⟨w, List.mem_cons_of_mem v hw, hin⟩
        · cases h

theorem inspectEntries_eq_error {cause : DisplayFault} :
    ∀ entries : List (Scalar × Value), inspectEntries entries = .error cause →
      (Value.map entries).Textless cause
  | [], h => by cases h
  | (key, v) :: rest, h => by
      rw [inspectEntries] at h
      rcases bind_eq_error_iff.mp h with h | ⟨_, _, h⟩
      · exact ⟨_, Scalar.inspect_eq_error h, .key List.mem_cons_self⟩
      · rcases bind_eq_error_iff.mp h with h | ⟨_, _, h⟩
        · obtain ⟨part, hpart, hin⟩ := inspect_eq_error v h
          exact ⟨part, hpart, .entry List.mem_cons_self hin⟩
        · rcases bind_eq_error_iff.mp h with h | ⟨_, _, h⟩
          · obtain ⟨part, hpart, hin⟩ := inspectEntries_eq_error rest h
            exact ⟨part, hpart, hin.map_mono (List.subset_cons_self _ _)⟩
          · cases h

end

theorem display_eq_error {v : Value} {cause : DisplayFault} (h : v.display = .error cause) :
    v.Textless cause := by
  cases v with
  | scalar s => exact ⟨_, Scalar.display_eq_error h, .scalar⟩
  | _ => exact inspect_eq_error _ h

end Value

end VoiceIntents
