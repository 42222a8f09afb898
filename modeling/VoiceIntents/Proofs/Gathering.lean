import Mathlib.Algebra.GroupWithZero.Nat
import Mathlib.Algebra.Order.BigOperators.Group.Finset
import VoiceIntents.Proofs.Merging

/-!
# What a mapping gathers

Once its merge keys are replaced, a mapping has the pairs of every mapping that a chain of merge
keys leads to from it, and no others. Chains may lead back to where they have been: a mapping
that is being merged lends the pairs that it has by then, and nothing is lost to the one whose
merging began.
-/

namespace VoiceIntents.Yaml

/-- The rounds that a node may take as the entry of a merge key. -/
def Content.rounds : Content → Nat
  | .sequence items => items.length + 1
  | _ => 1

namespace Graph

open Relation (ReflTransGen TransGen)
open Stepwise (bind_eq_ok_iff)

/-- Pairs that do not merge. -/
def isPlain (g : Graph) (p : NodeId × NodeId) : Bool := g.tag p.1 ≠ .merge

/-- A pair of a mapping, or of one that a chain of merge keys leads to from it. -/
def Gathers (g : Graph) (x : NodeId) (p : NodeId × NodeId) : Prop :=
  ∃ m, ReflTransGen g.Merges x m ∧ p ∈ g.pairs m ∧ g.isPlain p = true

theorem Rewrites.isPlain_eq {g g' : Graph} (h : g.Rewrites g') (p : NodeId × NodeId) :
    g'.isPlain p = g.isPlain p := by
  simp only [isPlain, ne_eq, h.merge_iff]

section Gathers
variable {g g' : Graph} {x y : NodeId} {p : NodeId × NodeId}

theorem gathers_of_mem (hp : p ∈ g.pairs x) (hplain : g.isPlain p = true) : g.Gathers x p :=
  ⟨x, .refl, hp, hplain⟩

theorem Gathers.isPlain (h : g.Gathers x p) : g.isPlain p = true := by
  obtain ⟨_, _, _, hplain⟩ := h
  exact hplain

theorem Gathers.head (hxy : g.Merges x y) (h : g.Gathers y p) : g.Gathers x p := by
  obtain ⟨m, hm, hp⟩ := h
  exact ⟨m, .head hxy hm, hp⟩

theorem Gathers.chain (hxy : ReflTransGen g.Merges x y) (h : g.Gathers y p) : g.Gathers x p := by
  obtain ⟨m, hm, hp⟩ := h
  exact ⟨m, hxy.trans hm, hp⟩

/-- What is gathered is an own pair, or is gathered by a mapping that is merged. -/
theorem Gathers.rec_on {motive : NodeId → Prop} (h : g.Gathers x p)
    (own : ∀ m, p ∈ g.pairs m → motive m)
    (merge : ∀ a b, g.Merges a b → g.Gathers b p → motive b → motive a) : motive x := by
  obtain ⟨m, hchain, hp, hplain⟩ := h
  induction hchain using ReflTransGen.head_induction_on with
  | refl => exact own m hp
  | head hab hb ih => exact merge _ _ hab ⟨m, hb, hp, hplain⟩ ih

theorem not_isPlain_of_mem_sources (h : y ∈ g.sources p) : g.isPlain p = false := by
  unfold sources at h
  split at h
  · next hmerge => simp [Graph.isPlain, hmerge]
  · cases h

/-- A mapping without merge keys gathers its own pairs. -/
theorem gathers_iff_of_plain (h : ∀ q ∈ g.pairs x, g.isPlain q = true) :
    g.Gathers x p ↔ p ∈ g.pairs x := by
  constructor
  · rintro ⟨m, hchain, hp, _⟩
    rcases ReflTransGen.cases_head_iff.mp hchain with rfl | ⟨y, ⟨q, hq, hy⟩, _⟩
    · exact hp
    · have hmerges := not_isPlain_of_mem_sources hy
      rw [h q hq] at hmerges
      cases hmerges
  · intro hp
    exact gathers_of_mem hp (h p hp)

/-- A chain of merge keys that meets no touched mapping is there after a rewriting. -/
theorem Gathers.of_frame {touched : NodeId → Prop} (h : g.Gathers x p) (hrewrites : g.Rewrites g')
    (hframe : ∀ x, ¬touched x → (g'.node x).content = (g.node x).content) :
    g'.Gathers x p ∨ ∃ t, touched t ∧ g.Gathers t p := by
  have hplain := h.isPlain
  have hsame {m : NodeId} (hm : ¬touched m) : g'.pairs m = g.pairs m := by
    rw [Graph.pairs, Graph.pairs, hframe m hm]
  apply h.rec_on
  · intro m hp
    by_cases hm : touched m
    · exact .inr ⟨m, hm, gathers_of_mem hp hplain⟩
    · refine .inl (gathers_of_mem ?_ ?_)
      · rw [hsame hm]
        exact hp
      · rw [hrewrites.isPlain_eq]
        exact hplain
  · rintro a b hab hb (hgathers | htouched)
    · by_cases ha : touched a
      · exact .inr ⟨a, ha, hb.head hab⟩
      · obtain ⟨q, hq, hsource⟩ := hab
        refine .inl (hgathers.head ⟨q, ?_, ?_⟩)
        · rw [hsame ha]
          exact hq
        · rw [hrewrites.sources_eq]
          exact hsource
    · exact .inr htouched

/-- A mapping that has lost pairs gathers no more than before. -/
theorem Gathers.of_subset (h : g'.Gathers x p) (hrewrites : g.Rewrites g')
    (hsubset : ∀ x, g'.pairs x ⊆ g.pairs x) : g.Gathers x p := by
  have hplain := h.isPlain
  rw [hrewrites.isPlain_eq] at hplain
  apply h.rec_on
  · intro m hp
    exact gathers_of_mem (hsubset m hp) hplain
  · rintro a b ⟨q, hq, hsource⟩ _ hb
    rw [hrewrites.sources_eq] at hsource
    exact hb.head ⟨q, hsubset a hq, hsource⟩

end Gathers

section Count
variable {g g' : Graph}

/-- The merge keys of a mapping. -/
def mergesOf (g : Graph) (x : NodeId) : Nat := (g.pairs x).countP fun p => g.tag p.1 = .merge

theorem pairs_eq_nil_of_size_le {x : NodeId} (h : g.size ≤ x) : g.pairs x = [] := by
  have habsent : g.node x = .absent := by
    by_contra hne
    exact absurd (lt_size_of_node_ne hne) (Nat.not_lt.mpr h)
  rw [pairs, habsent]
  rfl

theorem mergeCount_eq_sum {n : Nat} (hn : g.size ≤ n) :
    g.mergeCount = ∑ x ∈ Finset.range n, g.mergesOf x := by
  have hnodes : g.nodes.toList = (List.range g.size).map g.node := by
    apply List.ext_getElem
    · simp [size]
    · intro i hi _
      simp only [Array.length_toList] at hi
      simp [node, hi]
  have hrest : ∑ x ∈ Finset.range n, g.mergesOf x = ∑ x ∈ Finset.range g.size, g.mergesOf x := by
    symm
    apply Finset.sum_subset (Finset.range_subset_range.mpr hn)
    intro x _ hx
    have hout : g.size ≤ x := by simpa using hx
    rw [mergesOf, pairs_eq_nil_of_size_le hout]
    rfl
  have hfold (nodes : List NodeId) (count : Nat) :
      (nodes.map g.node).foldl (fun count n => count +
        n.content.pairs.countP fun p => g.tag p.1 = .merge) count =
      count + (nodes.map g.mergesOf).sum := by
    induction nodes generalizing count with
    | nil => simp
    | cons x rest ih =>
        rw [List.map_cons, List.foldl_cons, ih, List.map_cons, List.sum_cons, ← Nat.add_assoc]
        rfl
  rw [hrest, mergeCount, hnodes, hfold, Nat.zero_add]
  rfl

theorem mergeCount_le (h : ∀ x, g'.mergesOf x ≤ g.mergesOf x) : g'.mergeCount ≤ g.mergeCount := by
  rw [mergeCount_eq_sum (Nat.le_max_left g'.size g.size),
    mergeCount_eq_sum (Nat.le_max_right g'.size g.size)]
  exact Finset.sum_le_sum fun x _ => h x

theorem mergeCount_lt (h : ∀ x, g'.mergesOf x ≤ g.mergesOf x) {id : NodeId}
    (hid : g'.mergesOf id < g.mergesOf id) : g'.mergeCount < g.mergeCount := by
  have hrange : id < g.size := by
    by_contra hout
    rw [mergesOf, mergesOf, pairs_eq_nil_of_size_le (Nat.le_of_not_lt hout)] at hid
    simp at hid
  rw [mergeCount_eq_sum (Nat.le_max_left g'.size g.size),
    mergeCount_eq_sum (Nat.le_max_right g'.size g.size)]
  refine Finset.sum_lt_sum (fun x _ => h x) ⟨id, ?_, hid⟩
  exact Finset.mem_range.mpr (Nat.lt_of_lt_of_le hrange (Nat.le_max_right _ _))

end Count

/-- A rewriting that keeps the order of the pairs that do not merge, and adds no merge key. -/
structure Keeps (g g' : Graph) : Prop extends g.Rewrites g' where
  plain_kept : ∀ x, ((g.pairs x).filter g.isPlain).Sublist (g'.pairs x)
  count_le : g'.mergeCount ≤ g.mergeCount

namespace Keeps
variable {g g' g'' : Graph}

theorem refl (g : Graph) : g.Keeps g :=
  ⟨.refl g, fun _ => List.filter_sublist, Nat.le_refl _⟩

theorem trans (h : g.Keeps g') (h' : g'.Keeps g'') : g.Keeps g'' where
  toRewrites := h.toRewrites.trans h'.toRewrites
  plain_kept x := by
    have hplain : g'.isPlain = g.isPlain := funext h.isPlain_eq
    have hfirst := (h.plain_kept x).filter g.isPlain
    simp only [List.filter_filter, Bool.and_self] at hfirst
    exact hfirst.trans (hplain ▸ h'.plain_kept x)
  count_le := Nat.le_trans h'.count_le h.count_le

/-- A rewriting that changes the pairs of one mapping only. -/
theorem of_pairs {id : NodeId} (hrewrites : g.Rewrites g')
    (hother : ∀ x, x ≠ id → g'.pairs x = g.pairs x)
    (hkept : ((g.pairs id).filter g.isPlain).Sublist (g'.pairs id))
    (hcount : g'.mergesOf id ≤ g.mergesOf id) : g.Keeps g' where
  toRewrites := hrewrites
  plain_kept x := by
    by_cases hx : x = id
    · rw [hx]
      exact hkept
    · rw [hother x hx]
      exact List.filter_sublist
  count_le := by
    apply mergeCount_le
    intro x
    by_cases hx : x = id
    · rw [hx]
      exact hcount
    · rw [mergesOf, mergesOf, hother x hx]
      simp only [hrewrites.merge_iff, Nat.le_refl]

end Keeps

theorem mergesOf_eq_zero_iff {g : Graph} {x : NodeId} :
    g.mergesOf x = 0 ↔ ∀ p ∈ g.pairs x, g.isPlain p = true := by
  rw [mergesOf, List.countP_eq_zero]
  simp [isPlain]

/-- A mapping has come to have some pairs in front and then all that it gathers, and no mapping
gathers anything else than before. -/
structure Merged (id : NodeId) (front : List (NodeId × NodeId)) (g g' : Graph) : Prop
    extends g.Keeps g' where
  mem_iff : ∀ p, p ∈ g'.pairs id ↔ p ∈ front ∨ g.Gathers id p
  gathers : ∀ x p, g'.Gathers x p →
    g.Gathers x p ∨ (ReflTransGen g.Merges x id ∧ p ∈ front)

/-- Some mappings have been merged, and these are the pairs that they gather. -/
structure AllMerged (ids : List NodeId) (gathered : List (NodeId × NodeId)) (g g' : Graph) : Prop
    extends g.Keeps g' where
  mem_iff : ∀ p, p ∈ gathered ↔ ∃ i ∈ ids, g.Gathers i p
  gathers : ∀ x p, g'.Gathers x p → g.Gathers x p

section Steps
variable {g g' : Graph} {id : NodeId} {front : List (NodeId × NodeId)}

/-- The last step of a merge puts pairs in front of a mapping without merge keys. -/
theorem merged_putInFront (hrewrites : g.Rewrites g')
    (hother : ∀ x, x ≠ id → g'.pairs x = g.pairs x) (hpairs : g'.pairs id = front ++ g.pairs id)
    (hown : ∀ p ∈ g.pairs id, g.isPlain p = true) (hfront : ∀ p ∈ front, g.isPlain p = true) :
    Merged id front g g' := by
  have hplain : ∀ p ∈ g'.pairs id, g'.isPlain p = true := by
    intro p hp
    rw [hrewrites.isPlain_eq]
    rw [hpairs, List.mem_append] at hp
    exact hp.elim (hfront p) (hown p)
  have hkeeps : g.Keeps g' := by
    apply Keeps.of_pairs hrewrites hother
    · rw [hpairs]
      exact List.filter_sublist.trans (List.sublist_append_right front _)
    · rw [mergesOf_eq_zero_iff.mpr hplain]
      exact Nat.zero_le _
  refine ⟨hkeeps, ?_, ?_⟩
  · intro p
    rw [hpairs, List.mem_append, gathers_iff_of_plain hown]
  · intro x p h
    have hp := h.isPlain
    rw [hrewrites.isPlain_eq] at hp
    apply h.rec_on
    · intro m hm
      by_cases hid : m = id
      · subst hid
        rw [hpairs, List.mem_append] at hm
        rcases hm with hm | hm
        · exact .inr ⟨.refl, hm⟩
        · exact .inl (gathers_of_mem hm hp)
      · rw [hother m hid] at hm
        exact .inl (gathers_of_mem hm hp)
    · rintro a b ⟨q, hq, hb⟩ _ hgathers
      have ha : a ≠ id := by
        rintro rfl
        have hmerges := not_isPlain_of_mem_sources hb
        rw [hplain q hq] at hmerges
        cases hmerges
      rw [hother a ha] at hq
      rw [hrewrites.sources_eq] at hb
      rcases hgathers with hgathers | ⟨hchain, hfront⟩
      · exact .inl (hgathers.head ⟨q, hq, hb⟩)
      · exact .inr ⟨.head ⟨q, hq, hb⟩ hchain, hfront⟩

section TakeOut
variable {key source : NodeId} {before after : List (NodeId × NodeId)}
  (hcontent : (g.node id).content = .mapping (before ++ (key, source) :: after))
  (hkey : g.tag key = .merge)
include hcontent

theorem pairs_takeOut (x : NodeId) : (g.setContent id (.mapping (before ++ after))).pairs x =
    if x = id then before ++ after else g.pairs x := by
  rw [pairs, node_setContent hcontent]
  split <;> rfl

include hkey

theorem rewrites_takeOut : g.Rewrites (g.setContent id (.mapping (before ++ after))) := by
  apply rewrites_setContent hcontent
  intro p hp hmerge
  rw [List.mem_append, List.mem_cons] at hp
  rw [List.mem_append]
  rcases hp with hp | rfl | hp
  · exact .inl hp
  · exact absurd hkey hmerge
  · exact .inr hp

/-- Taking a merge key out of a mapping leaves one less. -/
theorem keeps_takeOut : g.Keeps (g.setContent id (.mapping (before ++ after))) ∧
    (g.setContent id (.mapping (before ++ after))).mergeCount < g.mergeCount := by
  have hrewrites := rewrites_takeOut hcontent hkey
  have hpairs := pairs_takeOut hcontent
  have hid : g.pairs id = before ++ (key, source) :: after := by
    rw [pairs, hcontent]
    rfl
  have hplain : g.isPlain (key, source) = false := by simp [isPlain, hkey]
  have hcount : (g.setContent id (.mapping (before ++ after))).mergesOf id < g.mergesOf id := by
    simp only [mergesOf, hpairs, hid, hrewrites.merge_iff, if_true, List.countP_append,
      List.countP_cons, hkey, decide_true]
    omega
  have hother : ∀ x, x ≠ id →
      (g.setContent id (.mapping (before ++ after))).pairs x = g.pairs x := by
    intro x hx
    rw [hpairs, if_neg hx]
  refine ⟨Keeps.of_pairs hrewrites hother ?_ hcount.le, mergeCount_lt ?_ hcount⟩
  · rw [hpairs, if_pos rfl, hid, List.filter_append, List.filter_cons_of_neg (by simp [hplain]),
      ← List.filter_append]
    exact List.filter_sublist
  · intro x
    by_cases hx : x = id
    · rw [hx]
      exact hcount.le
    · rw [mergesOf, mergesOf, hother x hx]
      simp only [hrewrites.merge_iff, Nat.le_refl]

/-- What is gathered through the merge key that is taken out is gathered by its mappings. -/
theorem Gathers.of_takeOut {x : NodeId} {p : NodeId × NodeId} (h : g.Gathers x p) :
    (g.setContent id (.mapping (before ++ after))).Gathers x p ∨
      ∃ i ∈ g.sources (key, source),
        (g.setContent id (.mapping (before ++ after))).Gathers i p := by
  have hrewrites := rewrites_takeOut hcontent hkey
  have hpairs := pairs_takeOut hcontent
  have hplain := h.isPlain
  apply h.rec_on
  · intro m hp
    refine .inl (gathers_of_mem ?_ ?_)
    · exact hrewrites.pairs_kept m p hp (by simpa [Graph.isPlain] using hplain)
    · rw [hrewrites.isPlain_eq]
      exact hplain
  · rintro a b ⟨q, hq, hb⟩ _ (hgathers | hsource)
    · by_cases ha : a = id
      · subst ha
        rw [pairs, hcontent] at hq
        have hq' : q ∈ before ++ (key, source) :: after := hq
        rw [List.mem_append, List.mem_cons] at hq'
        have hkept (hmem : q ∈ before ++ after) :
            (g.setContent a (.mapping (before ++ after))).Gathers a p := by
          refine hgathers.head ⟨q, ?_, ?_⟩
          · rw [hpairs, if_pos rfl]
            exact hmem
          · rw [hrewrites.sources_eq]
            exact hb
        rcases hq' with hq' | rfl | hq'
        · exact .inl (hkept (List.mem_append_left after hq'))
        · exact .inr ⟨b, hb, hgathers⟩
        · exact .inl (hkept (List.mem_append_right before hq'))
      · refine .inl (hgathers.head ⟨q, ?_, ?_⟩)
        · rw [hpairs, if_neg ha]
          exact hq
        · rw [hrewrites.sources_eq]
          exact hb
    · exact .inr hsource

theorem Gathers.of_takenOut {x : NodeId} {p : NodeId × NodeId}
    (h : (g.setContent id (.mapping (before ++ after))).Gathers x p) : g.Gathers x p := by
  apply h.of_subset (rewrites_takeOut hcontent hkey)
  intro y q hq
  rw [pairs_takeOut hcontent] at hq
  split at hq
  · next hy =>
      subst hy
      rw [pairs, hcontent]
      rw [List.mem_append] at hq
      exact List.mem_append.mpr (hq.imp_right (List.mem_cons_of_mem _))
  · exact hq

/-- After the mappings of the merge key that was taken out have been merged, what they gather
goes in front, and the merging goes on from what they have become. -/
theorem Merged.resume {g₁ : Graph} {inner : List NodeId} {more : List (NodeId × NodeId)}
    (hinner : g.sources (key, source) = inner)
    (hmerged : AllMerged inner more (g.setContent id (.mapping (before ++ after))) g₁)
    (hwithin : Within (TransGen (g.setContent id (.mapping (before ++ after))).Merges)
      (fun x => ∃ i ∈ inner, x = i ∨
        TransGen (g.setContent id (.mapping (before ++ after))).Merges i x)
      (g.setContent id (.mapping (before ++ after))) g₁)
    (hlast : Merged id (front ++ more) g₁ g') : Merged id front g g' := by
  have hout {x : NodeId} {p : NodeId × NodeId} :=
    fun h => @Gathers.of_takenOut g id key source before after hcontent hkey x p h
  have htaken {x : NodeId} {p : NodeId × NodeId} :=
    fun h : g.Gathers x p => h.of_takeOut hcontent hkey
  have hkeeps := (keeps_takeOut hcontent hkey).1
  have hmerges (a b : NodeId) (hab : (g.setContent id (.mapping (before ++ after))).Merges a b) :
      g.Merges a b := by
    obtain ⟨q, hq, hb⟩ := hab
    rw [hkeeps.sources_eq] at hb
    refine ⟨q, ?_, hb⟩
    rw [pairs_takeOut hcontent] at hq
    split at hq
    · next ha =>
        subst ha
        rw [pairs, hcontent]
        rw [List.mem_append] at hq
        exact List.mem_append.mpr (hq.imp_right (List.mem_cons_of_mem _))
    · exact hq
  generalize g.setContent id (.mapping (before ++ after)) = g₀ at *
  have hedge : ∀ i ∈ inner, g.Merges id i := by
    intro i hi
    refine ⟨(key, source), ?_, hinner ▸ hi⟩
    rw [pairs, hcontent]
    exact List.mem_append_right before List.mem_cons_self
  have hchain {a b : NodeId} (hab : ReflTransGen g₁.Merges a b) : ReflTransGen g.Merges a b := by
    induction hab with
    | refl => exact .refl
    | tail _ hbc ih =>
        have hstep := TransGen.mono hmerges _ _ (hwithin.merges _ _ hbc)
        exact ih.trans hstep.to_reflTransGen
  have hmore {p : NodeId × NodeId} (hp : p ∈ more) : g.Gathers id p := by
    obtain ⟨i, hi, hgathers⟩ := (hmerged.mem_iff p).mp hp
    exact (hout hgathers).head (hedge i hi)
  refine ⟨hkeeps.trans (hmerged.toKeeps.trans hlast.toKeeps), ?_, ?_⟩
  · intro p
    rw [hlast.mem_iff, List.mem_append]
    constructor
    · rintro ((hfront | hp) | hgathers)
      · exact .inl hfront
      · exact .inr (hmore hp)
      · exact .inr (hout (hmerged.gathers id p hgathers))
    · rintro (hfront | hgathers)
      · exact .inl (.inl hfront)
      · have hsource {i : NodeId} (hi : i ∈ inner) (h : g₀.Gathers i p) : p ∈ more :=
          (hmerged.mem_iff p).mpr ⟨i, hi, h⟩
        rcases htaken hgathers with hgathers | ⟨i, hi, hgathers⟩
        · rcases hgathers.of_frame hwithin.rewrites hwithin.frame with
            hgathers | ⟨t, ⟨i, hi, hit⟩, hgathers⟩
          · exact .inr hgathers
          · refine .inl (.inr (hsource hi ?_))
            rcases hit with rfl | hit
            · exact hgathers
            · exact hgathers.chain hit.to_reflTransGen
        · exact .inl (.inr (hsource (hinner ▸ hi) hgathers))
  · intro x p h
    rcases hlast.gathers x p h with hgathers | ⟨hx, hp⟩
    · exact .inl (hout (hmerged.gathers x p hgathers))
    · rcases List.mem_append.mp hp with hfront | hp
      · exact .inr ⟨hchain hx, hfront⟩
      · exact .inl ((hmore hp).chain (hchain hx))

end TakeOut

theorem AllMerged.nil (g : Graph) : AllMerged [] [] g g :=
  ⟨.refl g, by simp, fun _ _ h => h⟩

/-- Merging one more mapping before others. -/
theorem AllMerged.cons {g₁ : Graph} {rest : List NodeId} {more : List (NodeId × NodeId)}
    (hfirst : Merged id [] g g₁)
    (hwithin : Within (TransGen g.Merges) (fun x => x = id ∨ TransGen g.Merges id x) g g₁)
    (hrest : AllMerged rest more g₁ g') :
    AllMerged (id :: rest) (g₁.pairs id ++ more) g g' := by
  have hback (x : NodeId) (p : NodeId × NodeId) (h : g₁.Gathers x p) : g.Gathers x p := by
    rcases hfirst.gathers x p h with hgathers | ⟨_, hnone⟩
    · exact hgathers
    · cases hnone
  have hfirst_iff (p : NodeId × NodeId) : p ∈ g₁.pairs id ↔ g.Gathers id p := by
    simpa using hfirst.mem_iff p
  refine ⟨hfirst.toKeeps.trans hrest.toKeeps, ?_, fun x p h => hback x p (hrest.gathers x p h)⟩
  intro p
  rw [List.mem_append, hfirst_iff, hrest.mem_iff, List.exists_mem_cons_iff]
  constructor
  · rintro (hgathers | ⟨i, hi, hgathers⟩)
    · exact .inl hgathers
    · exact .inr ⟨i, hi, hback i p hgathers⟩
  · rintro (hgathers | ⟨i, hi, hgathers⟩)
    · exact .inl hgathers
    · rcases hgathers.of_frame hwithin.rewrites hwithin.frame with hkept | ⟨t, ht, hgathers⟩
      · exact .inr ⟨i, hi, hkept⟩
      · rcases ht with rfl | ht
        · exact .inl hgathers
        · exact .inl (hgathers.chain ht.to_reflTransGen)

/-- What stands in front stays plain, and what is gathered is plain. -/
theorem AllMerged.plain {ids : List NodeId} {front more : List (NodeId × NodeId)}
    (h : AllMerged ids more g g') (hfront : ∀ p ∈ front, g.isPlain p = true) :
    ∀ p ∈ front ++ more, g'.isPlain p = true := by
  intro p hp
  rw [h.isPlain_eq]
  rcases List.mem_append.mp hp with hp | hp
  · exact hfront p hp
  · obtain ⟨i, _, hgathers⟩ := (h.mem_iff p).mp hp
    exact hgathers.isPlain

end Steps

section Fuel
variable {g : Graph} {limit fuel : Nat}

/-- No sequence is longer than a limit. -/
def SequencesWithin (g : Graph) (limit : Nat) : Prop :=
  ∀ x items, (g.node x).content = .sequence items → items.length ≤ limit

theorem Rewrites.sequencesWithin {g g' : Graph} (h : g.Rewrites g') (hg : g.SequencesWithin limit) :
    g'.SequencesWithin limit := by
  intro x items hitems
  rcases h.content_eq x with heq | ⟨_, pairs, hpairs⟩
  · exact hg x items (heq ▸ hitems)
  · rw [hpairs] at hitems
    cases hitems

/-- The rounds that are enough to merge a mapping: each merge key is taken out once, and each
takes at most the rounds of one sequence. -/
def roundsFor (g : Graph) (limit : Nat) : Nat := 1 + g.mergeCount * (limit + 1)

theorem roundsFor_lt {g g' : Graph} (limit : Nat) (h : g'.mergeCount < g.mergeCount) :
    g'.roundsFor limit + limit < g.roundsFor limit := by
  have hmul : (g'.mergeCount + 1) * (limit + 1) ≤ g.mergeCount * (limit + 1) :=
    Nat.mul_le_mul_right _ h
  rw [Nat.add_mul] at hmul
  unfold roundsFor
  omega

theorem roundsFor_le {g g' : Graph} (limit : Nat) (h : g'.mergeCount ≤ g.mergeCount) :
    g'.roundsFor limit ≤ g.roundsFor limit :=
  Nat.add_le_add_left (Nat.mul_le_mul_right _ h) 1

/-- Enough rounds merge a mapping. -/
def FromMerged (limit fuel : Nat) : Prop :=
  ∀ id room front g g', mergeFrom id fuel room front g = .ok g' → g.IsMapping id →
    (∀ p ∈ front, g.isPlain p = true) → g.SequencesWithin limit → g.roundsFor limit ≤ fuel →
    Merged id front g g'

/-- Enough rounds merge a list of mappings. -/
def EachMerged (limit fuel : Nat) : Prop :=
  ∀ room ids g lists g', mergeEach fuel room ids g = .ok (lists, g') → g.SequencesWithin limit →
    ids.length + g.roundsFor limit ≤ fuel → AllMerged ids lists.flatten g g'

/-- A mapping that is merged by itself. -/
theorem FromMerged.single (hfrom : FromMerged limit fuel) {g₁ : Graph} {id : NodeId} {room : Nat}
    (h : mergeFrom id fuel room [] g = .ok g₁) (hmapping : g.IsMapping id)
    (hlimit : g.SequencesWithin limit) (hfuel : g.roundsFor limit ≤ fuel) :
    AllMerged [id] (g₁.pairs id) g g₁ := by
  have hwithin := (fromWithin (fun _ _ _ => TransGen.trans) fuel).1 id room [] g g₁ h hmapping
    (fun _ _ => TransGen.single) (by simp)
  have hmerged := hfrom id room [] g g₁ h hmapping (by simp) hlimit hfuel
  have hall := AllMerged.cons hmerged hwithin (.nil g₁)
  rwa [List.append_nil] at hall

/-- The pairs of a list of mappings count from the last mapping to the first. -/
theorem EachMerged.reversed (heach : EachMerged limit fuel) {g₁ : Graph} {ids : List NodeId}
    {lists : List (List (NodeId × NodeId))} {room : Nat}
    (h : mergeEach fuel room ids g = .ok (lists, g₁)) (hlimit : g.SequencesWithin limit)
    (hfuel : ids.length + g.roundsFor limit ≤ fuel) :
    AllMerged ids lists.reverse.flatten g g₁ := by
  have hall := heach room ids g lists g₁ h hlimit hfuel
  exact ⟨hall.toKeeps, fun p => by rw [← hall.mem_iff p]; simp, hall.gathers⟩

theorem splitMerge_eq_none {pairs : List (NodeId × NodeId)} (h : g.splitMerge pairs = none) :
    ∀ p ∈ pairs, g.isPlain p = true := by
  induction pairs with
  | nil => simp
  | cons p rest ih =>
      unfold splitMerge at h
      split at h
      · cases h
      · next hplain =>
          rw [Option.map_eq_none_iff] at h
          exact List.forall_mem_cons.mpr ⟨by simpa [Graph.isPlain] using hplain, ih h⟩

/-- A mapping without merge keys gets the pairs in front, and its keys `=` become text. -/
theorem merged_of_splitMerge_eq_none {id : NodeId} {front : List (NodeId × NodeId)}
    (hmapping : g.IsMapping id) (hsplit : g.splitMerge (g.pairs id) = none)
    (hfront : ∀ p ∈ front, g.isPlain p = true) :
    Merged id front g (if front.isEmpty then g.retagKeys (g.pairs id)
      else (g.retagKeys (g.pairs id)).setContent id
        (.mapping (front ++ (g.retagKeys (g.pairs id)).pairs id))) := by
  have hown := splitMerge_eq_none hsplit
  obtain ⟨hretag, hcontents⟩ := rewrites_retagKeys g (g.pairs id)
  generalize g.retagKeys (g.pairs id) = g₁ at hretag hcontents
  have hsame (x : NodeId) : g₁.pairs x = g.pairs x := by
    rw [Graph.pairs, hcontents, Graph.pairs]
  cases front with
  | nil => exact merged_putInFront hretag (fun x _ => hsame x) (hsame id) hown hfront
  | cons first rest =>
      obtain ⟨pairs, hcontent⟩ := hretag.isMapping hmapping
      have hpairs : g₁.pairs id = pairs := by rw [Graph.pairs, hcontent, Content.pairs]
      rw [if_neg (by simp)]
      refine merged_putInFront (hretag.trans (rewrites_setContent hcontent ?_)) ?_ ?_ hown hfront
      · intro p hp _
        rw [hpairs]
        exact List.mem_append_right _ hp
      · intro x hx
        rw [Graph.pairs, node_setContent hcontent, if_neg hx]
        exact hsame x
      · rw [Graph.pairs, node_setContent hcontent, if_pos rfl, hsame]
        rfl

theorem fromMerged_succ (hfrom : FromMerged limit fuel) (heach : EachMerged limit fuel) :
    FromMerged limit (fuel + 1) := by
  intro id room front g g' h hmapping hfront hlimit hfuel
  rw [mergeFrom] at h
  cases hsplit : g.splitMerge (g.pairs id) with
  | none =>
      rw [hsplit] at h
      obtain rfl := Except.ok.inj h
      exact merged_of_splitMerge_eq_none hmapping hsplit hfront
  | some split =>
      obtain ⟨before, source, after⟩ := split
      rw [hsplit] at h
      obtain ⟨pairs, hcontent⟩ := hmapping
      obtain ⟨key, hpairs, hkey⟩ := splitMerge_eq_some hsplit
      have hcontent' : (g.node id).content = .mapping (before ++ (key, source) :: after) := by
        rw [← hpairs, Graph.pairs, hcontent, Content.pairs]
      obtain ⟨hkeeps, hless⟩ := keeps_takeOut hcontent' hkey
      have hrounds := roundsFor_lt limit hless
      have hlimit' := hkeeps.sequencesWithin hlimit
      have hsources := hkeeps.sources_eq (key, source)
      rw [sources, if_pos ((hkeeps.merge_iff key).mpr hkey)] at hsources
      have hresume {g₁ : Graph} {inner : List NodeId} {more : List (NodeId × NodeId)} :=
        @Merged.resume g g' id front key source before after hcontent' hkey g₁ inner more
      dsimp only at h hsources
      generalize g.setContent id (.mapping (before ++ after)) = g₀ at *
      simp only [← hkeeps.isPlain_eq] at hfront
      -- What is left to do after the mappings of the merge key have been merged.
      have hlater {g₁ : Graph} {inner : List NodeId} {more : List (NodeId × NodeId)}
          (hinner : AllMerged inner more g₀ g₁)
          (hrest : mergeFrom id fuel room (front ++ more) g₁ = .ok g') :
          Merged id (front ++ more) g₁ g' := by
        have hless' := roundsFor_le limit hinner.count_le
        exact hfrom id room _ g₁ g' hrest (hinner.isMapping (hkeeps.isMapping ⟨_, hcontent⟩))
          (hinner.plain hfront) (hinner.sequencesWithin hlimit') (by omega)
      cases hkind : (g₀.node source).content with
      | scalar text =>
          rw [hkind] at h
          cases h
      | mapping inner =>
          rw [hkind] at h hsources
          obtain ⟨inside, _, h⟩ := bind_eq_ok_iff.mp h
          obtain ⟨g₁, hfirst, hrest⟩ := bind_eq_ok_iff.mp h
          have hwithin := (fromWithin (fun _ _ _ => TransGen.trans) fuel).1 source inside [] g₀ g₁
            hfirst ⟨inner, hkind⟩ (fun _ _ => TransGen.single) (by simp)
          have hmerged := hfrom.single hfirst ⟨inner, hkind⟩ hlimit' (by omega)
          refine hresume hsources.symm hmerged (hwithin.mono ?_) (hlater hmerged hrest)
          intro x hx
          exact ⟨source, List.mem_singleton_self source, hx⟩
      | sequence items =>
          rw [hkind] at h hsources
          obtain ⟨⟨lists, g₁⟩, hfirst, hrest⟩ := bind_eq_ok_iff.mp h
          have hitems := hlimit' source items hkind
          obtain ⟨hwithin, _⟩ := (fromWithin (fun _ _ _ => TransGen.trans) fuel).2 room items g₀
            lists g₁ hfirst fun _ _ => TransGen.single
          have hmerged := heach.reversed hfirst hlimit' (by omega)
          exact hresume hsources.symm hmerged hwithin (hlater hmerged hrest)

theorem eachMerged_succ (hfrom : FromMerged limit fuel) (heach : EachMerged limit fuel) :
    EachMerged limit (fuel + 1) := by
  intro room ids g lists g' h hlimit hfuel
  cases ids with
  | nil =>
      rw [mergeEach] at h
      cases h
      exact .nil g
  | cons source rest =>
      rw [mergeEach] at h
      rw [List.length_cons] at hfuel
      split at h
      · next inner hkind =>
          obtain ⟨inside, _, h⟩ := bind_eq_ok_iff.mp h
          obtain ⟨g₁, hfirst, h⟩ := bind_eq_ok_iff.mp h
          obtain ⟨⟨more, g₂⟩, hmore, h⟩ := bind_eq_ok_iff.mp h
          cases h
          have hmerged := hfrom source inside [] g g₁ hfirst ⟨inner, hkind⟩ (by simp) hlimit
            (by omega)
          have hwithin := (fromWithin (fun _ _ _ => TransGen.trans) fuel).1 source inside [] g g₁
            hfirst ⟨inner, hkind⟩ (fun _ _ => TransGen.single) (by simp)
          have hless := roundsFor_le limit hmerged.count_le
          rw [List.flatten_cons]
          exact .cons hmerged hwithin
            (heach room rest g₁ more g' hmore (hmerged.sequencesWithin hlimit) (by omega))
      · cases h

theorem fromMerged (limit fuel : Nat) : FromMerged limit fuel ∧ EachMerged limit fuel := by
  induction fuel with
  | zero =>
      refine ⟨?_, ?_⟩
      · intro id room front g g' _ _ _ _ hfuel
        unfold roundsFor at hfuel
        omega
      · intro room ids g lists g' _ _ hfuel
        unfold roundsFor at hfuel
        omega
  | succ fuel ih => exact ⟨fromMerged_succ ih.1 ih.2, eachMerged_succ ih.1 ih.2⟩

theorem node_mem_nodes {x : NodeId} (h : g.node x ≠ .absent) : g.node x ∈ g.nodes.toList := by
  have hlt : x < g.nodes.size := lt_size_of_node_ne h
  simp [node, hlt]

/-- Merging goes on for more rounds than any entry of a merge key takes. -/
theorem mergeKeys_eq [Host] (g : Graph) (id : NodeId) : g.mergeKeys id =
    mergeFrom id (2 * (g.mergeCount + 1) *
      (1 + (g.nodes.toList.map fun n => n.content.rounds).sum)) Host.mergeRoom [] g := by
  have hfold (step : Nat → Node → Nat)
      (hstep : ∀ count n, step count n = count + n.content.rounds) (nodes : List Node)
      (start : Nat) :
      nodes.foldl step start = start + (nodes.map fun n => n.content.rounds).sum := by
    induction nodes generalizing start with
    | nil => rfl
    | cons n rest ih =>
        rw [List.foldl_cons, hstep, ih, List.map_cons, List.sum_cons, Nat.add_assoc]
  unfold mergeKeys
  dsimp only
  rw [hfold]
  intro count n
  cases n.content <;> rfl

/-- The rounds of a merging are enough. -/
theorem mergeKeys_rounds [Host] (g : Graph) (id : NodeId) : ∃ limit, g.SequencesWithin limit ∧
    ∃ fuel, g.roundsFor limit ≤ fuel ∧ g.mergeKeys id = mergeFrom id fuel Host.mergeRoom [] g := by
  have hlimit : g.SequencesWithin (g.nodes.toList.map fun n => n.content.rounds).sum := by
    intro x items hcontent
    have hmem : g.node x ∈ g.nodes.toList := by
      apply node_mem_nodes
      intro habsent
      simp [habsent, Node.absent] at hcontent
    have hle := List.single_le_sum (by simp) _
      (List.mem_map_of_mem (f := fun n => n.content.rounds) hmem)
    rw [hcontent] at hle
    exact Nat.le_of_succ_le hle
  refine ⟨_, hlimit, _, ?_, mergeKeys_eq g id⟩
  generalize (g.nodes.toList.map fun n => n.content.rounds).sum = limit
  unfold roundsFor
  calc
    1 + g.mergeCount * (limit + 1) ≤ g.mergeCount * (1 + limit) + (1 + limit) := by
      rw [Nat.add_comm limit 1]
      omega
    _ = (g.mergeCount + 1) * (1 + limit) := (Nat.succ_mul _ _).symm
    _ ≤ 2 * (g.mergeCount + 1) * (1 + limit) := by
      apply Nat.mul_le_mul_right
      omega

/-- A mapping whose merge keys are replaced has the pairs that it gathers. -/
theorem mergeKeys_merged [Host] {g' : Graph} {id : NodeId} (h : g.mergeKeys id = .ok g')
    (hmapping : g.IsMapping id) : Merged id [] g g' := by
  obtain ⟨limit, hlimit, fuel, hfuel, heq⟩ := mergeKeys_rounds g id
  rw [heq] at h
  exact (fromMerged limit fuel).1 id _ [] g g' h hmapping (by simp) hlimit hfuel

end Fuel

end Graph

end VoiceIntents.Yaml
