import VoiceIntents.Proofs.Ordinary
import VoiceIntents.Proofs.Textless

/-!
# Documents that mirror their graphs

The collections of an ordinary graph are filled in the order of their distance from the root:
one that is met first on a longer path waits behind all that shorter paths lead to. So either
every collection on a path from the root is filled with exactly what stands in it, or a mapping
repeats a key, and the one that is refused is at the least distance among all that do.
-/

namespace VoiceIntents.Yaml

namespace Graph

/-- The length of a path of nested collections from the root to a node. -/
inductive Depth (g : Graph) (root : NodeId) : Nat → NodeId → Prop
  | root : Depth g root 0 root
  | inside {n : Nat} {a b : NodeId} (ha : Depth g root n a) (hb : b ∈ g.inside a) :
      Depth g root (n + 1) b

def isNested (g : Graph) (id : NodeId) : Bool := !(g.node id).content.isScalar

/-- The collections that paths lead to from the root. -/
def Reaches (g : Graph) (root id : NodeId) : Prop := g.isNested id = true ∧ ∃ n, g.Depth root n id

/-- A key that is reported as repeated: the first one of its mapping, and no other mapping that
repeats a key is at a shorter distance. -/
structure Reported (g : Graph) (root id keyId : NodeId) : Prop where
  first : g.FirstRepeat id keyId
  nearest : ∃ n, g.Depth root n id ∧
    ∀ m other, g.Depth root m other → g.Repeats other → n ≤ m

/-- A document has each collection that paths lead to once, with what stands in it in its
order. Wherever a node is referred to, its item is the same. -/
structure Mirrors (g : Graph) (root : NodeId) (d : Document) : Prop where
  start : d.root = g.itemAt root
  once : (d.collections.map (·.1)).Nodup
  reached : ∀ id, id ∈ d.collections.map (·.1) ↔ g.Reaches root id
  filled : ∀ e ∈ d.collections, g.collection? e.1 = some e.2

/-- What holds on the way of a search: the collections that are done and those that wait stand
in the order of their distance, and what stands in one that is done is done or waits. -/
structure Searched (g : Graph) (root : NodeId) (done waiting : List NodeId) : Prop where
  once : (done ++ waiting).Nodup
  nested : ∀ id ∈ done ++ waiting, g.isNested id = true
  start : g.isNested root = true → root ∈ done ++ waiting
  closed : ∀ a ∈ done, ∀ b ∈ g.inside a, g.isNested b = true → b ∈ done ++ waiting
  nearest : ∀ front id back, done ++ waiting = front ++ id :: back →
    ∃ n, g.Depth root n id ∧
      ∀ m other, m < n → g.Depth root m other → g.isNested other = true → other ∈ front

theorem isNested_of_mem_inside {g : Graph} {a b : NodeId} (h : b ∈ g.inside a) :
    g.isNested a = true := by
  unfold inside at h
  unfold isNested
  split at h
  · cases h
  · next hcontent => rw [hcontent]; rfl
  · next hcontent => rw [hcontent]; rfl

theorem isNested_of_repeats {g : Graph} {id : NodeId} (h : g.Repeats id) :
    g.isNested id = true := by
  obtain ⟨p, q, hsublist, _⟩ := h
  unfold pairs at hsublist
  unfold isNested
  cases hcontent : (g.node id).content with
  | scalar text => simp [hcontent, Content.pairs] at hsublist
  | sequence items => rfl
  | mapping pairs => rfl

namespace Searched
variable {g : Graph} {root id : NodeId} {done rest waiting new : List NodeId}

theorem init (h : g.isNested root = true) : g.Searched root [] [root] where
  once := List.nodup_singleton root
  nested := by simpa using h
  start := fun _ => List.mem_singleton_self root
  closed := by simp
  nearest := by
    intro front id back horder
    obtain ⟨rfl, hid⟩ : front = [] ∧ id = root := by
      cases front with
      | nil => exact ⟨rfl, (List.cons.inj horder).1.symm⟩
      | cons first front => simp at horder
    exact ⟨0, hid ▸ .root, fun m other hm => absurd hm (Nat.not_lt_zero m)⟩

theorem init_scalar (h : g.isNested root = false) : g.Searched root [] [] where
  once := List.nodup_nil
  nested := by simp
  start := by simp [h]
  closed := by simp
  nearest := by simp

/-- The collections at a distance below that of the first one that waits are done. -/
theorem mem_done_of_lt (h : g.Searched root done (id :: rest)) :
    ∃ n, g.Depth root n id ∧
      ∀ m other, m < n → g.Depth root m other → g.isNested other = true → other ∈ done :=
  h.nearest done id rest rfl

/-- The collections at the distance of the first one that waits are done or wait. -/
theorem mem_of_le (h : g.Searched root done (id :: rest)) {n : Nat}
    (hdone : ∀ m other, m < n → g.Depth root m other → g.isNested other = true → other ∈ done)
    {m : Nat} {other : NodeId} (hm : m ≤ n) (hother : g.Depth root m other)
    (hnested : g.isNested other = true) : other ∈ done ++ id :: rest := by
  cases hother with
  | root => exact h.start hnested
  | @inside k a _ ha hb =>
      have hparent : a ∈ done := hdone k a (by omega) ha (isNested_of_mem_inside hb)
      exact h.closed a hparent other hb hnested

/-- One step: the first collection that waits is done, and the new ones that stand in it wait
behind the others. -/
theorem step (h : g.Searched root done (id :: rest)) (hnodup : new.Nodup)
    (hfresh : ∀ b ∈ new, b ∉ done ++ id :: rest)
    (hnew : ∀ b ∈ new, b ∈ g.inside id ∧ g.isNested b = true)
    (hall : ∀ b ∈ g.inside id, g.isNested b = true → b ∈ done ++ id :: rest ∨ b ∈ new) :
    g.Searched root (done ++ [id]) (rest ++ new) := by
  have horder : (done ++ [id]) ++ (rest ++ new) = (done ++ id :: rest) ++ new := by simp
  constructor
  · rw [horder]
    refine List.nodup_append.mpr ⟨h.once, hnodup, ?_⟩
    intro a ha b hb hab
    exact hfresh b hb (hab ▸ ha)
  · rw [horder]
    exact List.forall_mem_append.mpr ⟨h.nested, fun b hb => (hnew b hb).2⟩
  · rw [horder]
    exact fun hroot => List.mem_append_left new (h.start hroot)
  · rw [horder]
    intro a ha b hb hnested
    rcases List.mem_append.mp ha with hold | hlast
    · exact List.mem_append_left new (h.closed a hold b hb hnested)
    · rw [List.mem_singleton.mp hlast] at hb
      exact List.mem_append.mpr (hall b hb hnested)
  · rw [horder]
    intro front b back hsplit
    -- A new collection is one step further than the one it stands in, and everything nearer is
    -- done or waits already.
    have hlater (hb : b ∈ new) (hfront : done ++ id :: rest ⊆ front) :
        ∃ n, g.Depth root n b ∧
          ∀ m other, m < n → g.Depth root m other → g.isNested other = true → other ∈ front := by
      obtain ⟨n, hid, hdone⟩ := h.mem_done_of_lt
      refine ⟨n + 1, .inside hid (hnew b hb).1, ?_⟩
      intro m other hm hother hnested
      exact hfront (h.mem_of_le hdone (by omega) hother hnested)
    rcases List.append_eq_append_iff.mp hsplit with ⟨middle, hfront, hback⟩ | ⟨middle, hold, hback⟩
    · apply hlater
      · simp [hback]
      · rw [hfront]
        exact List.subset_append_left _ middle
    · cases middle with
      | nil =>
          apply hlater
          · rw [List.nil_append] at hback
            simp [← hback]
          · rw [hold, List.append_nil]
            exact List.Subset.refl front
      | cons first middle =>
          obtain ⟨rfl, _⟩ := List.cons.inj hback
          exact h.nearest front b middle hold

/-- A search that is at its end has found all collections that paths lead to. -/
theorem mem_done_iff (h : g.Searched root done []) : id ∈ done ↔ g.Reaches root id := by
  have hdone : done ++ [] = done := List.append_nil done
  constructor
  · intro hid
    obtain ⟨front, back, hsplit⟩ := List.append_of_mem hid
    obtain ⟨n, hdepth, _⟩ := h.nearest front id back (hdone.trans hsplit)
    exact ⟨h.nested id (hdone.symm ▸ hid), n, hdepth⟩
  · rintro ⟨hnested, n, hdepth⟩
    rw [← hdone]
    induction hdepth with
    | root => exact h.start hnested
    | inside _ hb ih =>
        have hparent := ih (isNested_of_mem_inside hb)
        exact h.closed _ (hdone ▸ hparent) _ hb hnested

end Searched

theorem Reported.reaches {g : Graph} {root id keyId : NodeId} (h : g.Reported root id keyId) :
    g.Reaches root id := by
  obtain ⟨n, hdepth, _⟩ := h.nearest
  exact ⟨isNested_of_repeats h.first.repeats, n, hdepth⟩

/-- A repeated key is not shown when it is an integer with too many digits. -/
theorem repeatFault_eq_unreadable_iff (g : Graph) (id keyId : NodeId) :
    g.repeatFault id keyId = .unreadable .tooManyDigits ↔
      ∃ n, TooLong n ∧ g.scalarAt keyId = .int n := by
  unfold repeatFault
  constructor
  · intro h
    split at h
    · cases h
    · next cause hshown =>
        have htextless := Scalar.inspect_eq_error hshown
        generalize g.scalarAt keyId = key at htextless
        cases htextless with
        | tooLong hlong => exact ⟨_, hlong, rfl⟩
  · rintro ⟨n, hlong, hkey⟩
    have hshown : (Scalar.int n).inspect = .error .tooManyDigits := if_neg (Nat.not_le_of_lt hlong)
    rw [hkey, hshown]

theorem isNested_iff {g : Graph} {id : NodeId} :
    g.isNested id = true ↔ (g.node id).content.isScalar = false := by
  simp [isNested]

end Graph

/-- What holds on the way of making a document: it is a search, and what is filled mirrors the
graph and repeats no key. -/
structure Making.Mirroring (g : Graph) (root : NodeId) (s : Making) : Prop where
  clear : s.Clear g
  searched : g.Searched root (s.filled.map (·.1)) s.waiting
  met : ∀ id, id ∈ s.met ↔ id ∈ s.filled.map (·.1) ++ s.waiting
  filled : ∀ e ∈ s.filled, g.collection? e.1 = some e.2 ∧ ¬g.Repeats e.1

/-- A mapping that repeats a key is reported at its turn. Whatever is nearer to the root is
filled, so it repeats none. -/
theorem Making.Mirroring.reported {g : Graph} {root id keyId : NodeId} {s : Making}
    {rest : List NodeId} (hs : s.Mirroring g root) (hwaiting : s.waiting = id :: rest)
    (h : g.FirstRepeat id keyId) : g.Reported root id keyId := by
  have hsearched := hs.searched
  rw [hwaiting] at hsearched
  obtain ⟨n, hdepth, hdone⟩ := hsearched.mem_done_of_lt
  refine ⟨h, n, hdepth, ?_⟩
  intro m other hother hrepeats
  by_contra hlt
  have hmem := hdone m other (by omega) hother (Graph.isNested_of_repeats hrepeats)
  obtain ⟨e, he, rfl⟩ := List.mem_map.mp hmem
  exact (hs.filled e he).2 hrepeats

namespace Make

section Turns
variable {g : Graph} {root id : NodeId} {s : Making} {rest : List NodeId}
variable (hg : g.Ordinary) (hs : s.Mirroring g root)
include hg hs

/-- The turn of a collection whose keys are apart. -/
theorem turn_of_apart [Host] (hwaiting : s.waiting = id :: rest) (hapart : g.Apart (g.pairs id)) :
    ∃ s', Turn .refused id s s' ∧ s'.Mirroring g root := by
  have hsearched := hs.searched
  have hmet := hs.met
  rw [hwaiting] at hsearched hmet
  have hclear : ({ s with waiting := rest } : Making).Clear g := ⟨hs.clear.graph, hs.clear.defaults⟩
  have hnested : g.isNested id = true := hsearched.nested id (by simp)
  obtain ⟨c, hc, hfill⟩ := fill_run_of_apart hg hclear (Graph.isNested_iff.mp hnested) hapart
  have hextends := Making.extends_visitAll { s with waiting := rest } (g.inside id)
  obtain ⟨new, hwaiting', hmet', hnodup, hfresh⟩ := hextends.waiting_new
  have hvisited (b : NodeId) : b ∈ new.reverse ++ s.met ↔
      b ∈ s.met ∨ b ∈ g.inside id ∧ g.isNested b = true := by
    rw [← hmet', Making.mem_met_visitAll, Graph.isNested_iff, hs.clear.graph]
  refine ⟨_, ⟨rest, c, _, hwaiting, hfill, rfl⟩, ?_⟩
  have hfilled : (Making.visitAll { s with waiting := rest } (g.inside id)).filled = s.filled :=
    hextends.filled_eq
  have hclear' := hclear.visitAll (g.inside id)
  refine ⟨⟨hclear'.graph, hclear'.defaults⟩, ?_, ?_, ?_⟩
  · dsimp only
    rw [hfilled, hwaiting', List.map_append]
    refine hsearched.step hnodup ?_ ?_ ?_
    · intro b hb hold
      exact hfresh b hb ((hmet b).mpr hold)
    · intro b hb
      rcases (hvisited b).mp (by simp [hb]) with hold | hinside
      · exact absurd hold (hfresh b hb)
      · exact hinside
    · intro b hb hbnested
      rcases List.mem_append.mp ((hvisited b).mpr (.inr ⟨hb, hbnested⟩)) with hnew | hold
      · exact .inr (List.mem_reverse.mp hnew)
      · exact .inl ((hmet b).mp hold)
  · intro b
    have horder : (s.filled ++ [(id, c)]).map (·.1) ++ (rest ++ new) =
        (s.filled.map (·.1) ++ id :: rest) ++ new := by
      simp
    dsimp only
    rw [hfilled, hwaiting', hmet', horder, List.mem_append, List.mem_reverse, hmet b, or_comm]
    exact List.mem_append.symm
  · intro e he
    dsimp only at he
    rw [hfilled] at he
    rcases List.mem_append.mp he with hold | hlast
    · exact hs.filled e hold
    · rw [List.mem_singleton.mp hlast]
      exact ⟨hc, fun hrepeats => Graph.repeats_iff.mp hrepeats hapart⟩

/-- A run fills all collections, or ends with the report of a key that is repeated. -/
theorem fillAll_run_ordinary [Host] (fuel : Nat) :
    (∃ s', (fillAll .refused fuel).run s = .ok ((), s') ∧ s'.Mirroring g root) ∨
      ∃ id keyId, (fillAll .refused fuel).run s = .error (g.repeatFault id keyId) ∧
        g.Reported root id keyId := by
  induction fuel generalizing s with
  | zero => exact .inl ⟨s, rfl, hs⟩
  | succ fuel ih =>
      cases hwaiting : s.waiting with
      | nil => exact .inl ⟨s, fillAll_succ_eq_ok_iff.mpr (.inl ⟨hwaiting, rfl⟩), hs⟩
      | cons id rest =>
          rcases g.apart_or_firstRepeat id with hapart | ⟨keyId, hfirst⟩
          · obtain ⟨between, hturn, hbetween⟩ := turn_of_apart hg hs hwaiting hapart
            rcases ih hbetween with ⟨s', hrun, hs'⟩ | ⟨other, keyId, hrun, hreported⟩
            · exact .inl ⟨s', (fillAll_succ_run_of_turn hturn).trans hrun, hs'⟩
            · exact .inr ⟨other, keyId, (fillAll_succ_run_of_turn hturn).trans hrun, hreported⟩
          · have hclear : ({ s with waiting := rest } : Making).Clear g :=
              ⟨hs.clear.graph, hs.clear.defaults⟩
            refine .inr ⟨id, keyId, ?_, hs.reported hwaiting hfirst⟩
            rw [fillAll_succ_run hwaiting, fill_run_of_firstRepeat hg hclear hfirst]
            rfl

end Turns

end Make

section Documents
variable {g : Graph} {root : NodeId}

theorem Graph.lt_size_of_isNested {id : NodeId} (h : g.isNested id = true) : id < g.size := by
  apply Graph.lt_size_of_node_ne
  intro habsent
  rw [Graph.isNested, habsent] at h
  cases h

/-- Reading the root meets it if it is a collection. -/
theorem mirroring_visit_root (g : Graph) (root : NodeId) :
    ((⟨g, [], [], [], []⟩ : Making).visit root).Mirroring g root := by
  cases hscalar : (g.node root).content.isScalar with
  | true =>
      have hstate : (⟨g, [], [], [], []⟩ : Making).visit root = ⟨g, [], [], [], []⟩ :=
        if_pos hscalar
      rw [hstate]
      exact ⟨⟨rfl, rfl⟩, .init_scalar (by simp [Graph.isNested, hscalar]), by simp, by simp⟩
  | false =>
      have hstate : (⟨g, [], [], [], []⟩ : Making).visit root = ⟨g, [], [root], [root], []⟩ := by
        rw [Making.visit, hscalar]
        rfl
      rw [hstate]
      exact ⟨⟨rfl, rfl⟩, .init (Graph.isNested_iff.mpr hscalar), by simp, by simp⟩

/-- An ordinary graph is mirrored by its document, or a key is reported. -/
theorem Document.ofGraph_ordinary [Host] (hg : g.Ordinary) (root : NodeId) :
    (∃ d, Document.ofGraph .refused g root = .ok d ∧ g.Mirrors root d ∧
      ∀ id, g.Reaches root id → ¬g.Repeats id) ∨
    ∃ id keyId, Document.ofGraph .refused g root = .error (g.repeatFault id keyId) ∧
      g.Reported root id keyId := by
  have hstart := mirroring_visit_root g root
  have hitem := Make.item_run_ordinary hg (⟨rfl, rfl⟩ : Making.Clear g ⟨g, [], [], [], []⟩) root
  have hnone := (Making.extends_visit ⟨g, [], [], [], []⟩ root).filled_eq
  rw [Document.ofGraph_of_item hitem]
  rcases Make.fillAll_run_ordinary hg hstart (g.size + 1) with
    ⟨s, hrun, hs⟩ | ⟨id, keyId, hrun, hreported⟩
  · have honce := (List.nodup_append.mp hs.searched.once).1
    have hdone : s.waiting = [] := by
      apply Make.waiting_eq_nil hrun hnone honce
      intro id hid
      exact Graph.lt_size_of_isNested (hs.searched.nested id (List.mem_append_left _ hid))
    have hsearched := hs.searched
    rw [hdone] at hsearched
    rw [hrun]
    refine .inl ⟨_, rfl, ⟨rfl, honce, fun id => hsearched.mem_done_iff, ?_⟩, ?_⟩
    · exact fun e he => (hs.filled e he).1
    · intro id hid
      obtain ⟨e, he, rfl⟩ := List.mem_map.mp (hsearched.mem_done_iff.mpr hid)
      exact (hs.filled e he).2
  · rw [hrun]
    exact .inr ⟨id, keyId, rfl, hreported⟩

end Documents

/-- How an error in the text of a context is reported. -/
def reported (source : Option String) (text : String) : Error → ContextError
  | .unreadable cause => .unreadable cause
  | error => .document (.illegal (error.describe text)) (Grammar.inSource source)

section Loading
variable {g : Graph} {root : NodeId} {text : String}

theorem load_of_ofGraph [Host] (source : Option String)
    (hgraph : Graph.ofText ImplicitRule.literal text = .ok (g, some root)) :
    Context.load source text =
      match Document.ofGraph .refused g root with
      | .ok d =>
          if d.root = .scalar .null then .error (.document .empty (Grammar.inSource source))
          else .ok d
      | .error e => .error (reported source text e) := by
  have hread : readDocument ImplicitRule.literal .refused text =
      (Document.ofGraph .refused g root).map some := by
    unfold readDocument
    rw [hgraph]
    rfl
  unfold Context.load
  rw [hread]
  cases Document.ofGraph .refused g root with
  | ok d => rfl
  | error e => cases e <;> rfl

end Loading

/-- Loading an ordinary graph is exact. Where no mapping that paths lead to repeats a key, its
document mirrors it. Otherwise a repeated key is reported, of a mapping at the least distance
from the root, unless it is an integer with more digits than are shown. -/
theorem ordinary_exact [Host] (g : Graph) (root : NodeId) (hg : g.Ordinary) :
    ((∀ id, g.Reaches root id → ¬g.Repeats id) →
      ∃ d, Document.ofGraph .refused g root = .ok d ∧ g.Mirrors root d ∧
        ∀ source text, Graph.ofText ImplicitRule.literal text = .ok (g, some root) →
          Context.load source text =
            if d.root = .scalar .null then .error (.document .empty (Grammar.inSource source))
            else .ok d) ∧
    ((∃ id, g.Reaches root id ∧ g.Repeats id) →
      ∃ id keyId, g.Reported root id keyId ∧
        Document.ofGraph .refused g root = .error (g.repeatFault id keyId) ∧
        (g.repeatFault id keyId = .unreadable .tooManyDigits ↔
          ∃ n, TooLong n ∧ g.scalarAt keyId = .int n) ∧
        ∀ source text, Graph.ofText ImplicitRule.literal text = .ok (g, some root) →
          Context.load source text = .error (reported source text (g.repeatFault id keyId))) := by
  rcases Document.ofGraph_ordinary hg root with
    ⟨d, hmade, hmirrors, hapart⟩ | ⟨id, keyId, hrefused, hreported⟩
  · constructor
    · intro _
      refine ⟨d, hmade, hmirrors, ?_⟩
      intro source text hgraph
      rw [load_of_ofGraph source hgraph, hmade]
    · rintro ⟨id, hreaches, hrepeats⟩
      exact absurd hrepeats (hapart id hreaches)
  · constructor
    · intro hnone
      exact absurd hreported.first.repeats (hnone id hreported.reaches)
    · intro _
      refine ⟨id, keyId, hreported, hrefused, g.repeatFault_eq_unreadable_iff id keyId, ?_⟩
      intro source text hgraph
      rw [load_of_ofGraph source hgraph, hrefused]

/-- A mapping repeats a key that is an integer of more than four thousand digits, written in
base sixteen. -/
def lengthy : Graph :=
  let start : Mark := ⟨0, 0, 0⟩
  let key := String.ofList (hexDigits 3600)
  ⟨#[⟨.map, start, .mapping [(1, 2), (3, 4)]⟩, ⟨.int, start, .scalar key⟩,
    ⟨.int, start, .scalar "1"⟩, ⟨.int, start, .scalar key⟩, ⟨.int, start, .scalar "2"⟩]⟩

theorem scalarAt_hexDigits {g : Graph} {id : NodeId} {start : Mark} {n : Nat} (hn : 0 < n)
    (h : g.node id = ⟨.int, start, .scalar (String.ofList (hexDigits n))⟩) :
    g.OrdinaryAt id ∧ g.scalarAt id = .int (16 ^ n - 1 : Nat) := by
  have hscalar : g.scalar? id = some (.int (16 ^ n - 1 : Nat)) := by
    rw [Graph.scalar?, Graph.tag, h]
    exact congrArg Except.toOption (readScalar_hexDigits hn start)
  refine ⟨⟨?_, ?_, ?_⟩, ?_⟩
  · rw [Graph.tag, h, Content.impliedTags, implicitTag_hexDigits hn]
    exact List.mem_cons_of_mem _ (List.mem_singleton_self _)
  · intro _
    rw [hscalar]
    rfl
  · simp [Graph.pairs, h, Content.pairs]
  · rw [Graph.scalarAt, hscalar]
    rfl

theorem lengthy_key {id : NodeId} (h : id = 1 ∨ id = 3) :
    lengthy.OrdinaryAt id ∧ lengthy.scalarAt id = .int (16 ^ 3600 - 1 : Nat) := by
  apply scalarAt_hexDigits (by decide)
  · rcases h with rfl | rfl <;> rfl

theorem lengthy_ordinary : lengthy.Ordinary := by
  apply Graph.ordinary_of_lt
  intro id hid
  have hcases : id = 0 ∨ (id = 1 ∨ id = 3) ∨ id = 2 ∨ id = 4 := by
    change id < 5 at hid
    omega
  rcases hcases with rfl | hkey | rfl | rfl
  · decide
  · exact (lengthy_key hkey).1
  · decide +kernel
  · decide +kernel

theorem lengthy_key_of_mem {id : NodeId} {p : NodeId × NodeId} (h : p ∈ lengthy.pairs id) :
    p.1 = 1 ∨ p.1 = 3 := by
  have hnodes : ∀ id < lengthy.size, (lengthy.pairs id).all (fun p => p.1 = 1 || p.1 = 3) := by
    decide
  by_cases hid : id < lengthy.size
  · simpa using List.all_eq_true.mp (hnodes id hid) p h
  · have habsent : lengthy.node id = .absent := by
      by_contra hpresent
      exact hid (Graph.lt_size_of_node_ne hpresent)
    simp [Graph.pairs, habsent, Node.absent, Content.pairs] at h

section Lengthy

attribute [local instance] Host.plain

/-- The key that is repeated cannot be shown, so no key is reported as repeated. -/
theorem lengthy_refused : lengthy.Ordinary ∧ (∃ id, lengthy.Reaches 0 id ∧ lengthy.Repeats id) ∧
    Document.ofGraph .refused lengthy 0 = .error (.unreadable .tooManyDigits) ∧
    ∀ source text, Graph.ofText ImplicitRule.literal text = .ok (lengthy, some 0) →
      Context.load source text = .error (.unreadable .tooManyDigits) := by
  have hrepeats : lengthy.Repeats 0 := by
    refine ⟨(1, 2), (3, 4), List.Sublist.refl _, ?_⟩
    rw [(lengthy_key (.inl rfl)).2, (lengthy_key (.inr rfl)).2]
    exact Scalar.sameKey_refl _
  have hreaches : lengthy.Reaches 0 0 := ⟨rfl, 0, .root⟩
  obtain ⟨id, keyId, hreported, hrefused, hshown, hload⟩ :=
    (ordinary_exact lengthy 0 lengthy_ordinary).2 ⟨0, hreaches, hrepeats⟩
  have hfault : lengthy.repeatFault id keyId = .unreadable .tooManyDigits := by
    obtain ⟨front, value, back, hpairs, _⟩ := hreported.first
    refine hshown.mpr ⟨(16 ^ 3600 - 1 : Nat), ?_, (lengthy_key ?_).2⟩
    · unfold TooLong
      decide +kernel
    · have hmem : (keyId, value) ∈ lengthy.pairs id := by simp [hpairs]
      exact lengthy_key_of_mem hmem
  rw [hfault] at hrefused hload
  exact ⟨lengthy_ordinary, ⟨0, hreaches, hrepeats⟩, hrefused, hload⟩

end Lengthy

end VoiceIntents.Yaml
