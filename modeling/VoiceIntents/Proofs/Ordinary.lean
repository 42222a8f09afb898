import VoiceIntents.Proofs.BareScalars
import VoiceIntents.Proofs.Contents

/-!
# Ordinary graphs

A graph without tags that are written, where every scalar can be read and every key is a scalar.
Nothing is merged in it and nothing is remembered on the way, so making its document only reads
the graph: each step has one result, which is computed here, and the only one that can fail is
the check for repeated keys.
-/

namespace VoiceIntents

theorem Binary64.equal_comm (x y : Binary64) : x.equal y = y.equal x := by
  cases x <;> cases y <;> simp [Binary64.equal, Bool.and_comm, eq_comm]

namespace Scalar

/-- Equality of keys: that of scalars, and a not-a-number is the same as itself. -/
def sameKey (a b : Scalar) : Bool := a.same b || (a = .float .nan && b = .float .nan)

theorem same_comm (a b : Scalar) : a.same b = b.same a := by
  cases a <;> cases b <;>
    simp [Scalar.same, Scalar.integer?, Binary64.equal_comm, Moment.same, eq_comm]

theorem sameKey_refl (s : Scalar) : s.sameKey s = true := by
  cases s with
  | float x => cases x <;> simp [sameKey, same, Binary64.equal]
  | _ => simp [sameKey, same, integer?, Moment.same]

theorem sameKey_comm (a b : Scalar) : a.sameKey b = b.sameKey a := by
  rw [sameKey, sameKey, same_comm, Bool.and_comm]

end Scalar

end VoiceIntents

namespace VoiceIntents.Yaml

open ImplicitRule (literal)

/-- The tags of a node that has none written. A scalar in quotes is text. -/
def Content.impliedTags : Content → List Tag
  | .scalar text => [.str, implicitTag literal text]
  | .sequence _ => [.seq]
  | .mapping _ => [.map]

namespace Graph

/-- The scalar of a node, if it is one and can be read. -/
def scalar? (g : Graph) (id : NodeId) : Option Scalar :=
  match (g.node id).content with
  | .scalar text => (readScalar (g.tag id) (g.node id).start text).toOption
  | .sequence _ | .mapping _ => none

/-- An ordinary node. Under the tag of a merge key or a key `=` no scalar can be read. -/
structure OrdinaryAt (g : Graph) (id : NodeId) : Prop where
  implied : g.tag id ∈ (g.node id).content.impliedTags
  readable : (g.node id).content.isScalar = true → (g.scalar? id).isSome = true
  keys : ∀ p ∈ g.pairs id, (g.node p.1).content.isScalar = true

instance (g : Graph) (id : NodeId) : Decidable (g.OrdinaryAt id) :=
  decidable_of_iff
    (g.tag id ∈ (g.node id).content.impliedTags ∧
      ((g.node id).content.isScalar = true → (g.scalar? id).isSome = true) ∧
      ∀ p ∈ g.pairs id, (g.node p.1).content.isScalar = true)
    ⟨fun ⟨himplied, hreadable, hkeys⟩ => ⟨himplied, hreadable, hkeys⟩,
      fun h => ⟨h.implied, h.readable, h.keys⟩⟩

/-- All nodes are ordinary. -/
def Ordinary (g : Graph) : Prop := ∀ id, g.OrdinaryAt id

/-- The scalar that a node of an ordinary graph gives. -/
def scalarAt (g : Graph) (id : NodeId) : Scalar := (g.scalar? id).getD .null

/-- The value of a node of an ordinary graph: its scalar, or the collection that it is. -/
def itemAt (g : Graph) (id : NodeId) : Item :=
  if (g.node id).content.isScalar then .scalar (g.scalarAt id) else .node id

/-- The key that a scalar of an ordinary graph gives. -/
def keyAt [Host] (g : Graph) (id : NodeId) : Key :=
  ⟨g.scalarAt id, Make.makerOf g id (g.scalarAt id)⟩

/-- The nodes that stand in a collection, other than its keys. -/
def inside (g : Graph) (id : NodeId) : List NodeId :=
  match (g.node id).content with
  | .scalar _ => []
  | .sequence items => items
  | .mapping pairs => pairs.map (·.2)

/-- The collection of a node, with one item for each item of a sequence and one entry for each
pair of a mapping. -/
def collection? (g : Graph) (id : NodeId) : Option Collection :=
  match (g.node id).content with
  | .scalar _ => none
  | .sequence items => some (.list (items.map g.itemAt))
  | .mapping pairs => some (.map (pairs.map fun p => (g.scalarAt p.1, g.itemAt p.2)))

/-- No two keys of some pairs are the same. -/
def Apart (g : Graph) (pairs : List (NodeId × NodeId)) : Prop :=
  pairs.Pairwise fun p q => (g.scalarAt q.1).sameKey (g.scalarAt p.1) = false

/-- Two keys of a mapping are the same. -/
def Repeats (g : Graph) (id : NodeId) : Prop :=
  ∃ p q, [p, q].Sublist (g.pairs id) ∧ (g.scalarAt q.1).sameKey (g.scalarAt p.1) = true

/-- The first key of a mapping that is the same as one before it. -/
def FirstRepeat (g : Graph) (id keyId : NodeId) : Prop :=
  ∃ front value back, g.pairs id = front ++ (keyId, value) :: back ∧ g.Apart front ∧
    ∃ p ∈ front, (g.scalarAt keyId).sameKey (g.scalarAt p.1) = true

/-- The error for a key that is repeated in a mapping. A key without a text cannot be shown. -/
def repeatFault (g : Graph) (id keyId : NodeId) : Error :=
  match (g.scalarAt keyId).inspect with
  | .ok shown => .repeatedKey (g.node id).start (g.node keyId).start shown
  | .error _ => .unreadable .tooManyDigits

end Graph

section Repeats
variable {g : Graph} {id keyId : NodeId}

theorem Graph.repeats_iff : g.Repeats id ↔ ¬g.Apart (g.pairs id) := by
  unfold Graph.Apart
  rw [List.pairwise_iff_forall_sublist]
  constructor
  · rintro ⟨p, q, hsublist, hsame⟩ hapart
    rw [hapart hsublist] at hsame
    cases hsame
  · intro hnot
    by_contra hnone
    apply hnot
    intro p q hsublist
    rw [← Bool.not_eq_true]
    intro hsame
    exact hnone ⟨p, q, hsublist, hsame⟩

/-- Where keys are not all apart, one of them is the first to repeat another. -/
theorem Graph.apart_or_firstRepeat (g : Graph) (id : NodeId) :
    g.Apart (g.pairs id) ∨ ∃ keyId, g.FirstRepeat id keyId := by
  have hsplit (pairs : List (NodeId × NodeId)) : g.Apart pairs ∨ ∃ front p back,
      pairs = front ++ p :: back ∧ g.Apart front ∧
        ∃ q ∈ front, (g.scalarAt p.1).sameKey (g.scalarAt q.1) = true := by
    induction pairs using List.reverseRecOn with
    | nil => exact .inl .nil
    | append_singleton init last ih =>
        rcases ih with hapart | ⟨front, p, back, rfl, hfirst⟩
        · by_cases hsame : ∃ q ∈ init, (g.scalarAt last.1).sameKey (g.scalarAt q.1) = true
          · exact .inr ⟨init, last, [], rfl, hapart, hsame⟩
          · refine .inl (List.pairwise_append.mpr ⟨hapart, List.pairwise_singleton _ _, ?_⟩)
            intro q hq p hp
            rw [List.mem_singleton.mp hp, ← Bool.not_eq_true]
            exact fun h => hsame ⟨q, hq, h⟩
        · exact .inr ⟨front, p, back ++ [last], by simp, hfirst⟩
  refine (hsplit (g.pairs id)).imp_right ?_
  rintro ⟨front, p, back, hpairs, hfirst⟩
  exact ⟨p.1, front, p.2, back, hpairs, hfirst⟩

theorem Graph.FirstRepeat.repeats (h : g.FirstRepeat id keyId) : g.Repeats id := by
  obtain ⟨front, value, back, hpairs, _, p, hp, hsame⟩ := h
  refine ⟨p, (keyId, value), ?_, hsame⟩
  rw [hpairs]
  have hfront : [p].Sublist front := List.singleton_sublist.mpr hp
  exact hfront.append (List.singleton_sublist.mpr List.mem_cons_self)

/-- What has keys is a mapping. -/
theorem Graph.FirstRepeat.content_eq (h : g.FirstRepeat id keyId) :
    (g.node id).content = .mapping (g.pairs id) := by
  obtain ⟨front, value, back, hpairs, _⟩ := h
  unfold Graph.pairs at hpairs ⊢
  cases hcontent : (g.node id).content with
  | mapping pairs => rfl
  | scalar text => simp [hcontent, Content.pairs] at hpairs
  | sequence items => simp [hcontent, Content.pairs] at hpairs

end Repeats

theorem isScalar_of_readScalar {tag : Tag} {mark : Mark} {text : String} {s : Scalar}
    (h : readScalar tag mark text = .ok s) : tag.isScalar = true := by
  rw [← tagOf_readScalar h]
  cases s <;> rfl

theorem isCollection_of_isScalar {tag : Tag} (h : tag.isScalar = true) :
    Make.isCollection tag = false := by
  cases tag with
  | seq | map | set | omap | pairs => cases h
  | _ => rfl

section Put
variable {key : Key} {item : Item} {made given : List (Key × Item)}

/-- An entry with a key that a map does not have is put at its end. -/
theorem Key.put_of_fresh (h : ∀ e ∈ made, e.1.same key = false) :
    key.put item made = made ++ [(key, item)] := by
  induction made with
  | nil => rfl
  | cons first rest ih =>
      obtain ⟨hfirst, hrest⟩ := List.forall_mem_cons.mp h
      rw [Key.put, hfirst, if_neg Bool.false_ne_true, ih hrest]
      rfl

/-- Entries with keys that are apart are put one after another. -/
theorem Key.putAll_of_apart (h : (made ++ given).Pairwise fun a b => a.1.same b.1 = false) :
    Key.putAll made given = made ++ given := by
  induction given generalizing made with
  | nil => simp [Key.putAll]
  | cons first rest ih =>
      have hfresh : ∀ e ∈ made, e.1.same first.1 = false := by
        intro e he
        exact (List.pairwise_append.mp h).2.2 e he first List.mem_cons_self
      have hsplit : made ++ first :: rest = (made ++ [first]) ++ rest := by simp
      rw [hsplit] at h ⊢
      rw [← ih h, ← Key.put_of_fresh hfresh]
      rfl

end Put

section Nodes
variable {g : Graph} {id : NodeId}

/-- A number outside a graph is no mistake: it stands for a scalar that can be read. -/
theorem Graph.ordinary_of_lt (h : ∀ id < g.size, g.OrdinaryAt id) : g.Ordinary := by
  intro id
  by_cases habsent : g.node id = .absent
  · refine ⟨?_, ?_, ?_⟩
    · rw [Graph.tag, habsent]
      decide
    · intro _
      simp [Graph.scalar?, Graph.tag, habsent, Node.absent, readScalar, Except.toOption]
    · simp [Graph.pairs, habsent, Node.absent, Content.pairs]
  · exact h id (Graph.lt_size_of_node_ne habsent)

theorem Graph.textOf_scalar {text : String} (h : (g.node id).content = .scalar text)
    (room : Nat) : Make.textOf g (room + 1) id = .ok text := by
  rw [Make.textOf, h]

namespace Graph.Ordinary
variable (hg : g.Ordinary)
include hg

theorem readScalar_eq {text : String} (h : (g.node id).content = .scalar text) :
    readScalar (g.tag id) (g.node id).start text = .ok (g.scalarAt id) := by
  obtain ⟨s, hs⟩ := Option.isSome_iff_exists.mp ((hg id).readable (by rw [h]; rfl))
  rw [Graph.scalarAt, hs]
  rw [Graph.scalar?, h] at hs
  exact Stepwise.toOption_eq_some_iff.mp hs

theorem tag_isScalar (h : (g.node id).content.isScalar = true) : (g.tag id).isScalar = true := by
  cases hcontent : (g.node id).content with
  | scalar text => exact isScalar_of_readScalar (hg.readScalar_eq hcontent)
  | sequence items => simp [hcontent, Content.isScalar] at h
  | mapping pairs => simp [hcontent, Content.isScalar] at h

theorem tag_of_sequence {items : List NodeId} (h : (g.node id).content = .sequence items) :
    g.tag id = .seq := by
  have himplied := (hg id).implied
  rw [h] at himplied
  exact List.mem_singleton.mp himplied

theorem tag_of_mapping {pairs : List (NodeId × NodeId)}
    (h : (g.node id).content = .mapping pairs) : g.tag id = .map := by
  have himplied := (hg id).implied
  rw [h] at himplied
  exact List.mem_singleton.mp himplied

theorem isCollection_eq (id : NodeId) :
    Make.isCollection (g.tag id) = !(g.node id).content.isScalar := by
  cases hcontent : (g.node id).content with
  | scalar text =>
      exact isCollection_of_isScalar (hg.tag_isScalar (by rw [hcontent]; rfl))
  | sequence items =>
      rw [hg.tag_of_sequence hcontent]
      rfl
  | mapping pairs =>
      rw [hg.tag_of_mapping hcontent]
      rfl

/-- The keys of a mapping are no merge keys and no keys `=`. -/
theorem tag_of_mem_pairs {p : NodeId × NodeId} (hp : p ∈ g.pairs id) :
    g.tag p.1 ≠ .merge ∧ g.tag p.1 ≠ .value := by
  have hscalar := hg.tag_isScalar ((hg id).keys p hp)
  constructor
  · intro hmerge
    simp [hmerge, Tag.isScalar] at hscalar
  · intro hvalue
    simp [hvalue, Tag.isScalar] at hscalar

theorem freshKey_eq [Host] (h : (g.node id).content.isScalar = true) :
    Make.freshKey g id = .ok (g.keyAt id) := by
  cases hcontent : (g.node id).content with
  | scalar text =>
      have hscalar : Make.scalarOf g id = .ok (g.scalarAt id) := by
        have htag := hg.tag_isScalar h
        rw [Graph.tag] at htag
        unfold Make.scalarOf
        simp only [htag, Bool.not_true, Bool.false_eq_true, if_false,
          Graph.textOf_scalar hcontent, hcontent, Content.isScalar, Bool.and_false]
        exact hg.readScalar_eq hcontent
      rw [Make.freshKey, hscalar]
      rfl
  | sequence items => simp [hcontent, Content.isScalar] at h
  | mapping pairs => simp [hcontent, Content.isScalar] at h

/-- Keys are compared as scalars. A not-a-number has one name, so all of them are the same. -/
theorem same_keyAt [Host] {a b : NodeId} (ha : (g.node a).content.isScalar = true)
    (hb : (g.node b).content.isScalar = true) :
    (g.keyAt a).same (g.keyAt b) = (g.scalarAt a).sameKey (g.scalarAt b) := by
  have hmaker {id : NodeId} (hid : (g.node id).content.isScalar = true)
      (hnan : g.scalarAt id = .float .nan) : Make.makerOf g id (g.scalarAt id) = none := by
    cases hcontent : (g.node id).content with
    | scalar text =>
        have hread := hg.readScalar_eq hcontent
        rw [hnan] at hread
        have himplied := (hg id).implied
        rw [hcontent] at himplied
        have hname := isNan_of_readScalar (List.mem_pair.mp himplied) hread
        unfold Make.makerOf
        rw [hnan, Graph.textOf_scalar hcontent]
        exact if_pos hname
    | sequence items => simp [hcontent, Content.isScalar] at hid
    | mapping pairs => simp [hcontent, Content.isScalar] at hid
  unfold Key.same Scalar.sameKey Key.isNan Graph.keyAt
  dsimp only
  by_cases hnan : g.scalarAt a = .float .nan ∧ g.scalarAt b = .float .nan
  · rw [hmaker ha hnan.1, hmaker hb hnan.2]
    simp
  · have hfalse : (decide (g.scalarAt a = .float .nan) && decide (g.scalarAt b = .float .nan)) =
        false := by
      simpa using hnan
    rw [hfalse, Bool.false_and]

/-- Nothing is merged. -/
theorem mergeKeys_eq [Host] (id : NodeId) : g.mergeKeys id = .ok g := by
  have hsplit {pairs : List (NodeId × NodeId)} (h : ∀ p ∈ pairs, g.tag p.1 ≠ .merge) :
      g.splitMerge pairs = none := by
    induction pairs with
    | nil => rfl
    | cons p rest ih =>
        obtain ⟨hp, hrest⟩ := List.forall_mem_cons.mp h
        rw [Graph.splitMerge, if_neg hp, ih hrest]
        rfl
  have hretag {pairs : List (NodeId × NodeId)} (h : ∀ p ∈ pairs, g.tag p.1 ≠ .value) :
      g.retagKeys pairs = g := by
    induction pairs with
    | nil => rfl
    | cons p rest ih =>
        obtain ⟨hp, hrest⟩ := List.forall_mem_cons.mp h
        rw [Graph.retagKeys, List.foldl_cons, if_neg hp]
        exact ih hrest
  have hfrom (fuel room : Nat) : Graph.mergeFrom id fuel room [] g = .ok g := by
    cases fuel with
    | zero => rfl
    | succ fuel =>
        rw [Graph.mergeFrom, hsplit fun p hp => (hg.tag_of_mem_pairs hp).1]
        dsimp only
        rw [hretag fun p hp => (hg.tag_of_mem_pairs hp).2]
        rfl
  exact hfrom _ _

end Graph.Ordinary

end Nodes

namespace Making

/-- What holds on the way in an ordinary graph: it is as it was, and nothing is remembered. -/
structure Clear (g : Graph) (s : Making) : Prop where
  graph : s.graph = g
  defaults : s.defaults = []

/-- The state after the value of a node has been read. -/
def visit (s : Making) (id : NodeId) : Making :=
  if (s.graph.node id).content.isScalar then s else s.meet id

def visitAll (s : Making) (ids : List NodeId) : Making := ids.foldl visit s

section Visit
variable {g : Graph} {s : Making}

theorem Clear.visit (hs : s.Clear g) (id : NodeId) : (s.visit id).Clear g := by
  unfold Making.visit Making.meet
  split
  · exact hs
  · split
    · exact hs
    · exact ⟨hs.graph, hs.defaults⟩

theorem extends_visit (s : Making) (id : NodeId) : s.Extends (s.visit id) := by
  unfold visit
  split
  · exact .refl s
  · exact s.extends_meet id

theorem extends_visitAll (s : Making) (ids : List NodeId) : s.Extends (s.visitAll ids) := by
  induction ids generalizing s with
  | nil => exact .refl s
  | cons id rest ih => exact (s.extends_visit id).trans (ih (s.visit id))

theorem Clear.visitAll (hs : s.Clear g) (ids : List NodeId) : (s.visitAll ids).Clear g := by
  induction ids generalizing s with
  | nil => exact hs
  | cons id rest ih => exact ih (hs.visit id)

theorem mem_met_visit {s : Making} {id x : NodeId} : x ∈ (s.visit id).met ↔
    x ∈ s.met ∨ x = id ∧ (s.graph.node x).content.isScalar = false := by
  unfold visit meet
  split
  · next hscalar =>
      constructor
      · exact .inl
      · rintro (h | ⟨rfl, h⟩)
        · exact h
        · simp [hscalar] at h
  · next hcollection =>
      rw [Bool.not_eq_true] at hcollection
      split
      · next hmet =>
          constructor
          · exact .inl
          · rintro (h | ⟨rfl, _⟩)
            · exact h
            · exact List.contains_iff_mem.mp hmet
      · constructor
        · intro h
          rcases List.mem_cons.mp h with rfl | h
          · exact .inr ⟨rfl, hcollection⟩
          · exact .inl h
        · rintro (h | ⟨rfl, _⟩)
          · exact List.mem_cons_of_mem id h
          · exact List.mem_cons_self

/-- The collections among the nodes that are read are met. -/
theorem mem_met_visitAll {s : Making} {ids : List NodeId} {x : NodeId} :
    x ∈ (s.visitAll ids).met ↔
      x ∈ s.met ∨ x ∈ ids ∧ (s.graph.node x).content.isScalar = false := by
  induction ids generalizing s with
  | nil => simp [visitAll]
  | cons id rest ih =>
      have hfirst : s.visitAll (id :: rest) = (s.visit id).visitAll rest := rfl
      rw [hfirst, ih, mem_met_visit, (s.extends_visit id).graph_eq, List.mem_cons, or_assoc,
        ← or_and_right]

end Visit

end Making

namespace Make

section Run
variable [Host] {g : Graph} {s : Making} {id : NodeId} (hg : g.Ordinary) (hs : s.Clear g)
include hg hs

theorem scalarKey_run_ordinary (h : (g.node id).content.isScalar = true) :
    (scalarKey id).run s = .ok (g.keyAt id, s) := by
  obtain ⟨rfl, hdefaults⟩ := hs
  have hkept : s.remember id (s.graph.keyAt id) = s := if_pos h
  rw [scalarKey_run, hdefaults]
  dsimp only [List.lookup]
  rw [hg.freshKey_eq h]
  exact congrArg (fun s' => Except.ok (s.graph.keyAt id, s')) hkept

theorem key?_run_ordinary (h : (g.node id).content.isScalar = true) :
    (key? id).run s = .ok (some (g.keyAt id), s) := by
  rw [key?_run, hs.graph, hg.isCollection_eq, h, scalarKey_run_ordinary hg hs h]
  rfl

theorem item_run_ordinary (id : NodeId) : (item id).run s = .ok (g.itemAt id, s.visit id) := by
  rw [item_run, Making.visit, Graph.itemAt, hs.graph, hg.isCollection_eq]
  cases hscalar : (g.node id).content.isScalar with
  | false => rfl
  | true =>
      rw [scalarKey_run_ordinary hg hs hscalar]
      rfl

theorem mapM_item_run (ids : List NodeId) :
    (ids.mapM item).run s = .ok (ids.map g.itemAt, s.visitAll ids) := by
  induction ids generalizing s with
  | nil => rfl
  | cons id rest ih =>
      rw [List.mapM_cons, StateT.run_bind, item_run_ordinary hg hs]
      change ((rest.mapM item >>= fun items => pure (g.itemAt id :: items)).run (s.visit id)) = _
      rw [StateT.run_bind, ih (hs.visit id)]
      rfl

/-- The entries of pairs are put one after another. -/
theorem entries_run_ordinary (made : List (Key × Item)) {pairs : List (NodeId × NodeId)}
    (hkeys : ∀ p ∈ pairs, (g.node p.1).content.isScalar = true) :
    (entries made pairs).run s =
      .ok (Key.putAll made (pairs.map fun p => (g.keyAt p.1, g.itemAt p.2)),
        s.visitAll (pairs.map (·.2))) := by
  induction pairs generalizing made s with
  | nil => rfl
  | cons p rest ih =>
      obtain ⟨hp, hrest⟩ := List.forall_mem_cons.mp hkeys
      rw [entries, StateT.run_bind, key?_run_ordinary hg hs hp]
      change ((item p.2 >>= fun i => entries ((g.keyAt p.1).put i made) rest).run s) = _
      rw [StateT.run_bind, item_run_ordinary hg hs]
      exact ih (hs.visit p.2) _ hrest

/-- A key is refused when it is the same as one before it. -/
theorem refuseRepeats_cons_run (before : List Key) {p : NodeId × NodeId}
    (rest : List (NodeId × NodeId)) (hp : p ∈ g.pairs id) :
    (refuseRepeats id before (p :: rest)).run s =
      if before.any (g.keyAt p.1).same then .error (g.repeatFault id p.1)
      else (refuseRepeats id (before ++ [g.keyAt p.1]) rest).run s := by
  have hscalar := (hg id).keys p hp
  have hmerge := (hg.tag_of_mem_pairs hp).1
  rw [refuseRepeats, get_bind_run]
  dsimp only
  rw [hs.graph, hscalar]
  simp only [Bool.not_true, Bool.false_or, hmerge, decide_false, Bool.false_eq_true, if_false]
  rw [StateT.run_bind, key?_run_ordinary hg hs hscalar]
  change (if before.any (g.keyAt p.1).same = true then _ else _ : Make Unit).run s = _
  split
  · unfold Graph.repeatFault shown
    dsimp only [Graph.keyAt]
    cases (g.scalarAt p.1).inspect <;> rfl
  · rfl

/-- Pairs whose keys are apart pass the check, and the next ones are compared with them. -/
theorem refuseRepeats_append_run {done front : List (NodeId × NodeId)}
    (back : List (NodeId × NodeId)) (hpairs : ∀ p ∈ done ++ front, p ∈ g.pairs id)
    (hapart : g.Apart (done ++ front)) :
    (refuseRepeats id (done.map fun p => g.keyAt p.1) (front ++ back)).run s =
      (refuseRepeats id ((done ++ front).map fun p => g.keyAt p.1) back).run s := by
  induction front generalizing done with
  | nil => simp
  | cons p rest ih =>
      have hp : p ∈ g.pairs id := hpairs p (by simp)
      have hfresh : (done.map fun p => g.keyAt p.1).any (g.keyAt p.1).same = false := by
        rw [List.any_eq_false]
        intro k hk
        obtain ⟨q, hq, rfl⟩ := List.mem_map.mp hk
        have hq' : q ∈ g.pairs id := hpairs q (List.mem_append_left _ hq)
        rw [hg.same_keyAt ((hg id).keys p hp) ((hg id).keys q hq')]
        simp [(List.pairwise_append.mp hapart).2.2 q hq p List.mem_cons_self]
      have hsplit : done ++ p :: rest = (done ++ [p]) ++ rest := by simp
      rw [hsplit] at hpairs hapart ⊢
      rw [List.cons_append, refuseRepeats_cons_run hg hs _ (rest ++ back) hp, hfresh,
        if_neg Bool.false_ne_true, ← ih hpairs hapart, List.map_append]
      rfl

/-- The check of a mapping goes on after the keys that are apart. -/
theorem checkKeys_run {front back : List (NodeId × NodeId)}
    (hmapping : (g.node id).content = .mapping (front ++ back)) (hapart : g.Apart front) :
    (checkKeys id).run s = (refuseRepeats id (front.map fun p => g.keyAt p.1) back).run s := by
  have hpairs : ∀ p ∈ [] ++ front, p ∈ g.pairs id := by
    intro p hp
    rw [Graph.pairs, hmapping]
    exact List.mem_append_left back hp
  rw [checkKeys, get_bind_run, hs.graph, hmapping]
  exact refuseRepeats_append_run hg hs back hpairs hapart

theorem checkKeys_run_of_apart {pairs : List (NodeId × NodeId)}
    (hmapping : (g.node id).content = .mapping pairs) (h : g.Apart pairs) :
    (checkKeys id).run s = .ok ((), s) := by
  rw [← List.append_nil pairs] at hmapping
  exact checkKeys_run hg hs hmapping h

theorem checkKeys_run_of_firstRepeat {keyId : NodeId} (h : g.FirstRepeat id keyId) :
    (checkKeys id).run s = .error (g.repeatFault id keyId) := by
  have hcontent := h.content_eq
  obtain ⟨front, value, back, hpairs, hapart, p, hp, hsame⟩ := h
  have hmem (q : NodeId × NodeId) (hq : q ∈ front ++ (keyId, value) :: back) : q ∈ g.pairs id :=
    hpairs ▸ hq
  have hkey : (keyId, value) ∈ g.pairs id := hmem _ (by simp)
  have hrepeats : (front.map fun p => g.keyAt p.1).any (g.keyAt keyId).same = true := by
    refine List.any_eq_true.mpr ⟨g.keyAt p.1, List.mem_map.mpr ⟨p, hp, rfl⟩, ?_⟩
    rw [hg.same_keyAt ((hg id).keys _ hkey) ((hg id).keys p (hmem p (List.mem_append_left _ hp)))]
    exact hsame
  have hmapping : (g.node id).content = .mapping (front ++ (keyId, value) :: back) :=
    hpairs ▸ hcontent
  rw [checkKeys_run hg hs hmapping hapart, refuseRepeats_cons_run hg hs _ back hkey,
    if_pos hrepeats]

/-- The entries of a mapping whose keys are apart are those of its pairs. -/
theorem mapping_run_of_apart {pairs : List (NodeId × NodeId)}
    (hmapping : (g.node id).content = .mapping pairs) (h : g.Apart pairs) :
    (mapping .refused id).run s =
      .ok (pairs.map fun p => (g.keyAt p.1, g.itemAt p.2), s.visitAll (g.inside id)) := by
  have hkeys : ∀ p ∈ pairs, (g.node p.1).content.isScalar = true := by
    intro p hp
    apply (hg id).keys
    rwa [Graph.pairs, hmapping]
  have hentries : Key.putAll [] (pairs.map fun p => (g.keyAt p.1, g.itemAt p.2)) =
      pairs.map fun p => (g.keyAt p.1, g.itemAt p.2) := by
    apply Key.putAll_of_apart
    rw [List.nil_append, List.pairwise_map]
    refine h.imp_of_mem ?_
    intro p q hp hq happart
    rw [hg.same_keyAt (hkeys p hp) (hkeys q hq), Scalar.sameKey_comm]
    exact happart
  have hplain : (mapping .lastWins id).run s =
      .ok (pairs.map fun p => (g.keyAt p.1, g.itemAt p.2), s.visitAll (g.inside id)) := by
    refine mapping_lastWins_eq_ok_iff.mpr ⟨pairs, g, by rwa [hs.graph], ?_, ?_⟩
    · rw [hs.graph]
      exact hg.mergeKeys_eq id
    · have hsame : { s with graph := g } = s := by rw [← hs.graph]
      rw [hsame, Graph.pairs, hmapping, Content.pairs, entries_run_ordinary hg hs [] hkeys,
        hentries, Graph.inside, hmapping]
  rw [mapping_refused, StateT.run_bind, checkKeys_run_of_apart hg hs hmapping h]
  exact hplain

/-- A collection whose keys are apart is filled with what stands in it. -/
theorem fill_run_of_apart (hcollection : (g.node id).content.isScalar = false)
    (h : g.Apart (g.pairs id)) : ∃ c, g.collection? id = some c ∧
      (fill .refused id).run s = .ok (c, s.visitAll (g.inside id)) := by
  unfold Graph.collection?
  cases hcontent : (g.node id).content with
  | scalar text => simp [hcontent, Content.isScalar] at hcollection
  | sequence items =>
      refine ⟨_, rfl, ?_⟩
      rw [fill, get_bind_run, hs.graph, hg.tag_of_sequence hcontent]
      dsimp only
      rw [StateT.run_bind, sequence, get_bind_run, hs.graph, hcontent]
      dsimp only
      rw [mapM_item_run hg hs, Graph.inside, hcontent]
      rfl
  | mapping pairs =>
      refine ⟨_, rfl, ?_⟩
      have htag := hg.tag_of_mapping hcontent
      have hmapped : s.graph.isMapped id = true := by simp [Graph.isMapped, hs.graph, htag]
      rw [Graph.pairs, hcontent] at h
      have hcollect : collect .map (pairs.map fun p => (g.keyAt p.1, g.itemAt p.2)) =
          .map (pairs.map fun p => (g.scalarAt p.1, g.itemAt p.2)) := by
        rw [collect, if_pos rfl, List.map_map]
        rfl
      rw [fill_run_of_isMapped hmapped, mapping_run_of_apart hg hs hcontent h, hs.graph, htag,
        ← hcollect]
      rfl

/-- A mapping that repeats a key is refused for the first key that does. -/
theorem fill_run_of_firstRepeat {keyId : NodeId} (h : g.FirstRepeat id keyId) :
    (fill .refused id).run s = .error (g.repeatFault id keyId) := by
  have hmapped : s.graph.isMapped id = true := by
    simp [Graph.isMapped, hs.graph, hg.tag_of_mapping h.content_eq]
  rw [fill_run_of_isMapped hmapped, mapping_refused, StateT.run_bind,
    checkKeys_run_of_firstRepeat hg hs h]
  rfl

end Run

end Make

end VoiceIntents.Yaml
