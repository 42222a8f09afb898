import Mathlib.Data.List.Basic
import VoiceIntents.Context

/-!
# Sets that every run lists alike

The members of a set of numbers have one order, and those of any other set have one only if there
are not two of them. A document in which all sets are of these kinds has one value in every run,
and so it has one grammar.
-/

namespace VoiceIntents

/-- Every run lists the members in one order: there is at most one, or they are all numbers. -/
def ListedAlike (members : List Scalar) : Prop :=
  members.length ≤ 1 ∨ ∀ member ∈ members, member.residue?.isSome

instance (members : List Scalar) : Decidable (ListedAlike members) :=
  inferInstanceAs (Decidable (_ ∨ _))

/-- A list of at most one member has no other order. -/
theorem Listing.order_eq (listing : Listing) {members : List Scalar} (h : members.length ≤ 1)
    (set : Nat) : listing.order set members = members := by
  have hperm := listing.order_perm set members
  match members, h with
  | [], _ => exact hperm.eq_nil
  | [member], _ => exact List.perm_singleton.mp hperm

/-- Members that are all numbers have all their residues. -/
theorem mapM_residue_ne_none {members : List Scalar}
    (h : ∀ member ∈ members, member.residue?.isSome) :
    (members.mapM fun member => member.residue?.map (·, member)) ≠ none := by
  induction members with
  | nil => simp
  | cons member rest ih =>
      obtain ⟨hmember, hrest⟩ := List.forall_mem_cons.mp h
      obtain ⟨residue, hresidue⟩ := Option.isSome_iff_exists.mp hmember
      obtain ⟨keyed, hkeyed⟩ := Option.ne_none_iff_exists'.mp (ih hrest)
      simp [List.mapM_cons, hresidue, hkeyed]

theorem setOrder_alike (first second : Listing) (set : Nat) {members : List Scalar}
    (h : ListedAlike members) : @setOrder first set members = @setOrder second set members := by
  unfold setOrder
  split
  · next hnone =>
      have hfew := h.resolve_right fun hnumbers => mapM_residue_ne_none hnumbers hnone
      rw [first.order_eq hfew, second.order_eq hfew]
  · rfl

namespace Yaml.Document

/-- All sets of a document are listed alike. -/
def ListedAlike (d : Document) : Prop :=
  ∀ set members, (set, Collection.set members) ∈ d.collections → VoiceIntents.ListedAlike members

section Values
variable {d : Document} (h : d.ListedAlike) (first second : Listing)
include h

theorem view_alike : @view first d = @view second d := by
  funext item
  cases item with
  | scalar s => rfl
  | node id =>
      simp only [view]
      split
      · rfl
      · rfl
      · next members hfound =>
          obtain ⟨before, after, hcollections, _⟩ := List.lookup_eq_some_iff.mp hfound
          rw [setOrder_alike first second id (h id members (by simp [hcollections]))]
      · rfl
      · rfl
  | pair id place => rfl

theorem unfold_alike (fuel : Nat) :
    @Document.unfold first d fuel = @Document.unfold second d fuel := by
  induction fuel with
  | zero => rfl
  | succ fuel ih =>
      funext path item
      simp only [Document.unfold, ih, view_alike h first second]

theorem share_alike (fuel : Nat) : @share first d fuel = @share second d fuel := by
  induction fuel with
  | zero => rfl
  | succ fuel ih =>
      funext path item
      simp only [share, ih, view_alike h first second]

theorem wholeValue_alike : @wholeValue first d = @wholeValue second d := by
  funext item
  unfold wholeValue
  rw [share_alike h first second, unfold_alike h first second]

theorem itemValue_alike [Host] : @itemValue first _ d = @itemValue second _ d := by
  funext item
  unfold itemValue
  rw [wholeValue_alike h first second]

theorem select_alike [Host] (keys : List (Scalar → Bool)) :
    @select first _ d keys = @select second _ d keys := by
  induction keys with
  | nil =>
      funext item
      simp only [select, outline, view_alike h first second, itemValue_alike h first second]
  | cons asked deeper ih =>
      funext item
      simp only [select, outline, view_alike h first second, ih]

end Values

end Yaml.Document

/-- A text whose sets are listed alike has one grammar. -/
theorem Context.grammar_alike [Host] (first second : Listing) {source : Option String}
    {text : String} {d : Yaml.Document} (hload : Context.load source text = .ok d)
    (h : d.ListedAlike) :
    @Context.grammar _ first source text = @Context.grammar _ second source text := by
  have hvalue : @Context.value _ first d = @Context.value _ second d :=
    congrFun (Yaml.Document.select_alike h first second Context.keys) d.root
  unfold Context.grammar
  simp only [hload, bind, Except.bind, hvalue]

end VoiceIntents
