import VoiceIntents.Proofs.Built

/-!
# What collections are filled with

Every item of a document is given by a node of its graph. A node under the tag of a collection
gives the collection; any other gives its text, read under its tag. This holds wherever the node
stands, however often it is referred to, and whether its entry is a mapping's own or is merged in:
merging changes which pairs a mapping has, never what a node gives.
-/

namespace VoiceIntents.Yaml

open Stepwise (bind_eq_ok_iff)

namespace Graph

/-- The tag that a scalar is read under. A key `=` is read as text. -/
def readTag (g : Graph) (id : NodeId) : Tag := if g.tag id = .value then .str else g.tag id

/-- A scalar that a node gives. A mapping under the tag of a scalar stands for some text. -/
def GivesScalar (g : Graph) (id : NodeId) (s : Scalar) : Prop :=
  ∃ text, (∀ own, (g.node id).content = .scalar own → text = own) ∧
    readScalar (g.readTag id) (g.node id).start text = .ok s

/-- An item that a node gives. -/
inductive Gives (g : Graph) : NodeId → Item → Prop
  | collection {id : NodeId} (h : Make.isCollection (g.tag id) = true) : Gives g id (.node id)
  | scalar {id : NodeId} {s : Scalar} (h : g.GivesScalar id s) : Gives g id (.scalar s)

/-- The key and the item that the nodes of a pair give. -/
def GivesPair (g : Graph) (p : NodeId × NodeId) (e : Key × Item) : Prop :=
  g.GivesScalar p.1 e.1.scalar ∧ g.Gives p.2 e.2

end Graph

/-- The entries of a map into which entries have been put one after another. -/
def Key.putAll (made : List (Key × Item)) (entries : List (Key × Item)) : List (Key × Item) :=
  entries.foldl (fun made e => e.1.put e.2 made) made

/-- What a collection is filled with: the items of its sequence, the entries that its mapping has
of its own and gathers, or the pairs that stand alone in the mappings of its sequence. -/
inductive Graph.Fills (g : Graph) (id : NodeId) : Collection → Prop
  | list {nodes : List NodeId} {items : List Item} (htag : g.tag id = .seq)
      (hnodes : (g.node id).content = .sequence nodes) (h : List.Forall₂ g.Gives nodes items) :
      Fills g id (.list items)
  | mapped {pairs : List (NodeId × NodeId)} {given : List (Key × Item)}
      (htag : g.isMapped id = true) (hown : ((g.pairs id).filter g.isPlain).Sublist pairs)
      (hgathers : ∀ p ∈ pairs, g.Gathers id p) (h : List.Forall₂ g.GivesPair pairs given) :
      Fills g id (Make.collect (g.tag id) (Key.putAll [] given))
  | pairs {nodes : List NodeId} {entries : List (Item × Item)} (htag : g.tag id ≠ .seq)
      (hnodes : (g.node id).content = .sequence nodes)
      (h : List.Forall₂ (fun i e => ∃ p, g.Gathers i p ∧ g.Gives p.1 e.1 ∧ g.Gives p.2 e.2)
        nodes entries) : Fills g id (.pairs entries)

/-- A document holds what the nodes of its graph give, from the root on. -/
structure Graph.Loads (g : Graph) (root : NodeId) (d : Document) : Prop where
  start : g.Gives root d.root
  built : ∀ id, id ∈ d.collections.map (·.1) ↔ g.Built root id
  filled : ∀ e ∈ d.collections, g.Fills e.1 e.2

section Gives
variable {g g' : Graph} {id : NodeId} {s : Scalar}

theorem Graph.Rewrites.readTag_eq (h : g.Rewrites g') (id : NodeId) :
    g'.readTag id = g.readTag id := by
  unfold Graph.readTag
  rcases h.tag_eq id with heq | ⟨hvalue, hstr⟩
  · rw [heq]
  · simp [hvalue, hstr]

/-- Merging changes nothing of what a node gives. -/
theorem Graph.Rewrites.givesScalar (h : g.Rewrites g') (hs : g'.GivesScalar id s) :
    g.GivesScalar id s := by
  obtain ⟨text, hown, hread⟩ := hs
  refine ⟨text, ?_, ?_⟩
  · intro own hcontent
    apply hown
    rw [h.content_of_isScalar (by rw [hcontent]; rfl)]
    exact hcontent
  · rw [← h.readTag_eq, ← h.start_eq]
    exact hread

theorem givesScalar_of_freshKey [Host] {key : Key} (h : Make.freshKey g id = .ok key) :
    g.GivesScalar id key.scalar := by
  have htag := tag_isScalar_of_freshKey h
  have hread : g.readTag id = (g.node id).tag := by
    refine if_neg ?_
    intro hvalue
    simp [hvalue, Tag.isScalar] at htag
  obtain ⟨scalar, hscalar, hkey⟩ := bind_eq_ok_iff.mp h
  obtain rfl := Stepwise.pure_eq_ok_iff.mp hkey
  unfold Make.scalarOf at hscalar
  dsimp only at hscalar
  split at hscalar
  · cases hscalar
  · obtain ⟨text, htext, hscalar⟩ := bind_eq_ok_iff.mp hscalar
    refine ⟨text, ?_, ?_⟩
    · intro own hown
      rw [Make.textOf, hown] at htext
      exact (Except.ok.inj htext).symm
    · rw [hread]
      split at hscalar
      · cases hscalar
      · exact hscalar

end Gives

/-- What holds on the way of making a document: mappings gather nothing new, and what is
remembered is given by the original graph. -/
structure Making.Giving (g : Graph) (s : Making) : Prop where
  keeps : g.Keeps s.graph
  gathers : ∀ x p, s.graph.Gathers x p → g.Gathers x p
  tagged : s.Tagged
  defaults : ∀ e ∈ s.defaults, g.GivesScalar e.1 e.2.scalar

/-- Replacing the merge keys of a mapping changes nothing of what is given. -/
theorem Making.Giving.merged {g g' : Graph} {s : Making} (hs : s.Giving g) {id : NodeId}
    (h : Graph.Merged id [] s.graph g') : ({ s with graph := g' } : Making).Giving g := by
  refine ⟨hs.keeps.trans h.toKeeps, ?_, fun e he => h.isScalar_tag (hs.tagged e he), hs.defaults⟩
  intro x p hgathers
  rcases h.gathers x p hgathers with hgathers | ⟨_, hnone⟩
  · exact hs.gathers x p hgathers
  · cases hnone

namespace Make

section Steps
variable [Host] {g : Graph} {s s' : Making} {id : NodeId}

theorem scalarKey_gives (hs : s.Giving g) {key : Key} (h : (scalarKey id).run s = .ok (key, s')) :
    g.GivesScalar id key.scalar ∧ s'.Giving g := by
  have htagged := (scalarKey_meeting hs.tagged h).1.tagged hs.tagged
  rw [scalarKey_run] at h
  split at h
  · next hfound =>
      cases h
      obtain ⟨before, after, hdefaults, _⟩ := List.lookup_eq_some_iff.mp hfound
      exact ⟨hs.defaults (id, key) (by simp [hdefaults]), hs⟩
  · obtain ⟨fresh, hfresh, hend⟩ := bind_eq_ok_iff.mp h
    cases hend
    have hgives := hs.keeps.givesScalar (givesScalar_of_freshKey hfresh)
    refine ⟨hgives, ?_⟩
    unfold Making.remember at htagged ⊢
    split
    · exact hs
    · next hmapping =>
        rw [if_neg hmapping] at htagged
        exact ⟨hs.keeps, hs.gathers, htagged, List.forall_mem_cons.mpr ⟨hgives, hs.defaults⟩⟩

theorem item_gives (id : NodeId) {result : Item} (hs : s.Giving g)
    (h : (item id).run s = .ok (result, s')) : g.Gives id result ∧ s'.Giving g := by
  rw [item_run] at h
  split at h
  · next hcollection =>
      cases h
      refine ⟨.collection (hs.keeps.isCollection_eq id ▸ hcollection), ?_⟩
      unfold Making.meet
      split
      · exact hs
      · exact ⟨hs.keeps, hs.gathers, hs.tagged, hs.defaults⟩
  · obtain ⟨⟨key, between⟩, hkey, hend⟩ := bind_eq_ok_iff.mp h
    cases hend
    obtain ⟨hgives, hbetween⟩ := scalarKey_gives hs hkey
    exact ⟨.scalar hgives, hbetween⟩

theorem key?_gives (hs : s.Giving g) {key : Key} (h : (key? id).run s = .ok (some key, s')) :
    g.GivesScalar id key.scalar ∧ s'.Giving g := by
  rw [key?_run] at h
  split at h
  · cases h
  · obtain ⟨⟨key, between⟩, hkey, hend⟩ := bind_eq_ok_iff.mp h
    cases hend
    exact scalarKey_gives hs hkey

omit [Host] in
/-- Steps that each keep an invariant, one after another. -/
theorem mapM_induction {α β : Type} {P : Making → Prop} {R : α → β → Prop} {f : α → Make β}
    (hf : ∀ a ⦃s b s'⦄, P s → (f a).run s = .ok (b, s') → R a b ∧ P s') {items : List α}
    {results : List β} (hs : P s) (h : (items.mapM f).run s = .ok (results, s')) :
    List.Forall₂ R items results ∧ P s' := by
  induction items generalizing results s with
  | nil =>
      rw [List.mapM_nil] at h
      obtain ⟨rfl, rfl⟩ := pure_run_eq_ok_iff.mp h
      exact ⟨.nil, hs⟩
  | cons a rest ih =>
      rw [List.mapM_cons] at h
      obtain ⟨b, first, hfirst, h⟩ := bind_run_eq_ok_iff.mp h
      obtain ⟨bs, second, hsecond, h⟩ := bind_run_eq_ok_iff.mp h
      obtain ⟨rfl, rfl⟩ := pure_run_eq_ok_iff.mp h
      obtain ⟨hab, hnext⟩ := hf a hs hfirst
      obtain ⟨hrest, hend⟩ := ih hnext hsecond
      exact ⟨.cons hab hrest, hend⟩

/-- The entries of a mapping are put in the order of its pairs. -/
theorem entries_gives (hs : s.Giving g) {made made' : List (Key × Item)}
    {pairs : List (NodeId × NodeId)} (h : (entries made pairs).run s = .ok (made', s')) :
    (∃ given, List.Forall₂ g.GivesPair pairs given ∧ made' = Key.putAll made given) ∧
      s'.Giving g := by
  induction pairs generalizing made s with
  | nil =>
      obtain ⟨rfl, rfl⟩ := pure_run_eq_ok_iff.mp h
      exact ⟨⟨[], .nil, rfl⟩, hs⟩
  | cons pair rest ih =>
      obtain ⟨key, first, hkey, h⟩ := bind_run_eq_ok_iff.mp h
      cases key with
      | none => cases h
      | some key =>
          obtain ⟨result, second, hitem, h⟩ := bind_run_eq_ok_iff.mp h
          obtain ⟨hscalar, hfirst⟩ := key?_gives hs hkey
          obtain ⟨hgives, hsecond⟩ := item_gives _ hfirst hitem
          obtain ⟨⟨given, hgiven, hmade⟩, hend⟩ := ih hsecond h
          exact ⟨⟨(key, result) :: given, .cons ⟨hscalar, hgives⟩ hgiven, hmade⟩, hend⟩

/-- The single pair of a mapping is gathered by it. -/
theorem singlePair_gives (id : NodeId) {result : Item × Item} (hs : s.Giving g)
    (h : (singlePair id).run s = .ok (result, s')) :
    (∃ p, g.Gathers id p ∧ g.Gives p.1 result.1 ∧ g.Gives p.2 result.2) ∧ s'.Giving g := by
  unfold singlePair at h
  rw [get_bind_run] at h
  split at h
  · next first second hcontent =>
      obtain ⟨a, between, hfirst, h⟩ := bind_run_eq_ok_iff.mp h
      obtain ⟨b, after, hsecond, h⟩ := bind_run_eq_ok_iff.mp h
      obtain ⟨rfl, rfl⟩ := pure_run_eq_ok_iff.mp h
      obtain ⟨hgives, hbetween⟩ := item_gives first hs hfirst
      obtain ⟨hgives', hafter⟩ := item_gives second hbetween hsecond
      refine ⟨⟨(first, second), hs.gathers id _ ?_, hgives, hgives'⟩, hafter⟩
      apply Graph.gathers_of_mem
      · simp [Graph.pairs, hcontent, Content.pairs]
      · simpa [Graph.isPlain] using (item_meeting hs.tagged hfirst).2
  · cases h

end Steps

section Fill
variable [Host] {repeats : RepeatedKeys} {g : Graph} {id : NodeId} {s s' : Making} {c : Collection}

/-- A mapping is filled with the entries that it has once its merge keys are replaced. -/
theorem mapping_fills (hs : s.Giving g) (hmapped : s.graph.isMapped id = true)
    {made : List (Key × Item)} (h : (mapping repeats id).run s = .ok (made, s')) :
    g.Fills id (collect (g.tag id) made) ∧ s'.Giving g := by
  have hplain : (mapping .lastWins id).run s = .ok (made, s') := by
    cases repeats with
    | refused => exact (mapping_refused_eq_ok_iff.mp h).2
    | lastWins => exact h
  obtain ⟨pairs, g₁, hcontent, hmerge, hentries⟩ := mapping_lastWins_eq_ok_iff.mp hplain
  have hmerged := Graph.mergeKeys_merged hmerge ⟨pairs, hcontent⟩
  have hgiving := hs.merged hmerged
  obtain ⟨⟨given, hgiven, rfl⟩, hend⟩ := entries_gives hgiving hentries
  refine ⟨.mapped (hs.keeps.isMapped_eq id ▸ hmapped) (hgiving.keeps.plain_kept id) ?_ hgiven,
    hend⟩
  intro p hp
  have hgathers : s.graph.Gathers id p := by simpa using (hmerged.mem_iff p).mp hp
  exact hs.gathers id p hgathers

theorem fill_fills (hs : s.Giving g) (h : (fill repeats id).run s = .ok (c, s')) :
    g.Fills id c ∧ s'.Giving g := by
  have htag {tag : Tag} (hvalue : tag ≠ .value) (hstr : tag ≠ .str) :
      s.graph.tag id = tag ↔ g.tag id = tag := hs.keeps.tag_eq_iff hvalue hstr
  cases hmapped : s.graph.isMapped id with
  | true =>
      rw [fill_run_of_isMapped hmapped] at h
      obtain ⟨⟨made, between⟩, hmade, hend⟩ := bind_eq_ok_iff.mp h
      cases hend
      have hsame : s.graph.tag id = g.tag id := by
        rcases Graph.tag_of_isMapped hmapped with hmap | hset
        · rw [hmap, (htag (by decide) (by decide)).mp hmap]
        · rw [hset, (htag (by decide) (by decide)).mp hset]
      rw [hsame]
      exact mapping_fills hs hmapped hmade
  | false =>
      rw [fill, get_bind_run] at h
      split at h
      · next hmap => simp [Graph.isMapped, hmap] at hmapped
      · next hset => simp [Graph.isMapped, hset] at hmapped
      · next hseq =>
          obtain ⟨items, between, hsequence, hend⟩ := bind_run_eq_ok_iff.mp h
          obtain ⟨rfl, rfl⟩ := pure_run_eq_ok_iff.mp hend
          unfold sequence at hsequence
          rw [get_bind_run] at hsequence
          split at hsequence
          · next nodes hnodes =>
              obtain ⟨hitems, hgiving⟩ := mapM_induction (fun a _ _ _ => item_gives a) hs hsequence
              exact ⟨.list ((htag (by decide) (by decide)).mp hseq)
                (hs.keeps.sequence_iff.mp hnodes) hitems, hgiving⟩
          · cases hsequence
      · next hseq =>
          rw [get_bind_run] at h
          split at h
          · next nodes hnodes =>
              obtain ⟨entries, between, hentries, hend⟩ := bind_run_eq_ok_iff.mp h
              obtain ⟨rfl, rfl⟩ := pure_run_eq_ok_iff.mp hend
              obtain ⟨hpairs, hgiving⟩ :=
                mapM_induction (fun a _ _ _ => singlePair_gives a) hs hentries
              exact ⟨.pairs (fun h => hseq ((htag (by decide) (by decide)).mpr h))
                (hs.keeps.sequence_iff.mp hnodes) hpairs, hgiving⟩
          · cases h

end Fill

end Make

/-- A document holds what the nodes of its graph give. -/
theorem Document.loads [Host] {repeats : RepeatedKeys} {g : Graph} {root : NodeId} {d : Document}
    (h : Document.ofGraph repeats g root = .ok d) : g.Loads root d := by
  have hbuilt (id : NodeId) : id ∈ d.collections.map (·.1) ↔ g.Built root id :=
    Document.mem_nodes_iff_built h
  obtain ⟨item, s, s', hitem, hfill, rfl⟩ := Document.ofGraph_eq_ok_iff.mp h
  have hempty : (⟨g, [], [], [], []⟩ : Making).Giving g :=
    ⟨.refl g, fun _ _ h => h, by simp [Making.Tagged], by simp⟩
  obtain ⟨hroot, hgiving⟩ := Make.item_gives root hempty hitem
  have hnone : s.filled = [] := (Make.steady_item root hitem).filled_eq
  have hturn (id : NodeId) (s s' : Making) (hs : s.Giving g ∧ ∀ e ∈ s.filled, g.Fills e.1 e.2)
      (hturn : Make.Turn repeats id s s') : s'.Giving g ∧ ∀ e ∈ s'.filled, g.Fills e.1 e.2 := by
    obtain ⟨hgiving, hfilled⟩ := hs
    obtain ⟨rest, c, between, _, hfill, rfl⟩ := hturn
    have hrest : ({ s with waiting := rest } : Making).Giving g :=
      ⟨hgiving.keeps, hgiving.gathers, hgiving.tagged, hgiving.defaults⟩
    obtain ⟨hfills, hend⟩ := Make.fill_fills hrest hfill
    obtain ⟨_, _, hextends, _⟩ := Make.fill_spec hfill
    refine ⟨⟨hend.keeps, hend.gathers, hend.tagged, hend.defaults⟩, ?_⟩
    intro e he
    dsimp only at he
    rw [hextends.filled_eq] at he
    rcases List.mem_append.mp he with hold | hnew
    · exact hfilled e hold
    · rw [List.mem_singleton.mp hnew]
      exact hfills
  have hend := Make.fillAll_induction hturn ⟨hgiving, by simp [hnone]⟩ hfill
  exact ⟨hroot, hbuilt, hend.2⟩

/-- The items of a collection, with its keys and members. -/
def Collection.items : Collection → List Item
  | .list items => items
  | .map entries => entries.flatMap fun e => [.scalar e.1, e.2]
  | .set members => members.map .scalar
  | .pairs entries => entries.flatMap fun e => [e.1, e.2]

/-- All items of a document. -/
def Document.items (d : Document) : List Item :=
  d.root :: d.collections.flatMap fun e => e.2.items

section Items
variable {g : Graph} {id root : NodeId} {c : Collection} {d : Document}

/-- What holds of the keys and the items of a map holds once an entry has been put into it. -/
theorem Key.forall_mem_put {P : Key → Prop} {Q : Item → Prop} {key : Key} {item : Item}
    {made : List (Key × Item)} (hmade : ∀ e ∈ made, P e.1 ∧ Q e.2) (hkey : P key)
    (hitem : Q item) : ∀ e ∈ key.put item made, P e.1 ∧ Q e.2 := by
  induction made with
  | nil =>
      rw [Key.put, List.forall_mem_singleton]
      exact ⟨hkey, hitem⟩
  | cons first rest ih =>
      obtain ⟨hfirst, hrest⟩ := List.forall_mem_cons.mp hmade
      rw [Key.put]
      split
      · exact List.forall_mem_cons.mpr ⟨⟨hfirst.1, hitem⟩, hrest⟩
      · exact List.forall_mem_cons.mpr ⟨hfirst, ih hrest⟩

theorem Key.forall_mem_putAll {P : Key → Prop} {Q : Item → Prop} {made given : List (Key × Item)}
    (hmade : ∀ e ∈ made, P e.1 ∧ Q e.2) (hgiven : ∀ e ∈ given, P e.1 ∧ Q e.2) :
    ∀ e ∈ Key.putAll made given, P e.1 ∧ Q e.2 := by
  induction given generalizing made with
  | nil => exact hmade
  | cons first rest ih =>
      obtain ⟨⟨hkey, hitem⟩, hrest⟩ := List.forall_mem_cons.mp hgiven
      exact ih (Key.forall_mem_put hmade hkey hitem) hrest

/-- Keys stay once they are in a map. -/
theorem Key.keys_subset_putAll (made given : List (Key × Item)) :
    made.map (·.1) ⊆ (Key.putAll made given).map (·.1) := by
  induction given generalizing made with
  | nil => exact List.Subset.refl _
  | cons first rest ih =>
      refine List.Subset.trans ?_ (ih (first.1.put first.2 made))
      rw [Key.keys_put]
      split
      · exact List.Subset.refl _
      · exact List.subset_append_left _ _

/-- Every key that is put into a map is in it, or one that is the same. -/
theorem Key.exists_mem_putAll {made given : List (Key × Item)} {f : Key × Item}
    (hf : f ∈ given) :
    ∃ k ∈ (Key.putAll made given).map (·.1), k = f.1 ∨ k.same f.1 = true := by
  induction given generalizing made with
  | nil => cases hf
  | cons first rest ih =>
      rcases List.mem_cons.mp hf with rfl | hf
      · have hkept := Key.keys_subset_putAll (f.1.put f.2 made) rest
        rw [Key.keys_put] at hkept
        split at hkept
        · next hsame =>
            obtain ⟨k, hk, hsame⟩ := List.any_eq_true.mp hsame
            exact ⟨k, hkept hk, .inr hsame⟩
        · exact ⟨f.1, hkept (by simp), .inl rfl⟩
      · exact ih hf

/-- No other key is the same as a text. -/
theorem Key.scalar_eq_of_same_text {k l : Key} {word : String} (hl : l.scalar = .text word)
    (h : k.same l = true) : k.scalar = .text word := by
  have hnan : l.isNan = false := by simp [Key.isNan, hl]
  rw [Key.same, hl, hnan, Bool.and_false, Bool.false_and, Bool.or_false] at h
  cases hk : k.scalar <;> simp_all [Scalar.same, Scalar.integer?]

/-- A mapping that has a key of its own with a text has it as a key. -/
theorem Graph.Fills.text_mem_keys (h : g.Fills id c) (hmapped : g.isMapped id = true)
    {p : NodeId × NodeId} (hp : p ∈ g.pairs id) (hplain : g.isPlain p = true) {word : String}
    (hgives : ∀ s, g.GivesScalar p.1 s → s = .text word) : .text word ∈ c.keys := by
  have htag := Graph.tag_of_isMapped hmapped
  cases h with
  | list hseq => simp [hseq] at htag
  | pairs _ hnodes => simp [Graph.pairs, hnodes, Content.pairs] at hp
  | @mapped pairs given _ hown _ hgiven =>
      have hmem : p ∈ pairs := hown.subset (List.mem_filter.mpr ⟨hp, hplain⟩)
      obtain ⟨f, hf, hkey, _⟩ := Stepwise.exists_of_forall₂ hgiven hmem
      obtain ⟨k, hk, hsame⟩ :
          ∃ k ∈ (Key.putAll [] given).map (·.1), k = f.1 ∨ k.same f.1 = true :=
        Key.exists_mem_putAll hf
      rw [Make.keys_collect]
      refine List.mem_map.mpr ⟨k, hk, ?_⟩
      rcases hsame with rfl | hsame
      · exact hgives _ hkey
      · exact Key.scalar_eq_of_same_text (hgives _ hkey) hsame

theorem Graph.Fills.gives_items (h : g.Fills id c) : ∀ i ∈ c.items, ∃ n, g.Gives n i := by
  cases h with
  | list _ _ hitems =>
      intro i hi
      obtain ⟨n, _, hgives⟩ := Stepwise.exists_of_forall₂ hitems.flip hi
      exact ⟨n, hgives⟩
  | @mapped _ given _ _ _ hgiven =>
      have hentries : ∀ e ∈ Key.putAll [] given,
          (∃ n, g.GivesScalar n e.1.scalar) ∧ ∃ n, g.Gives n e.2 := by
        apply Key.forall_mem_putAll (P := fun k => ∃ n, g.GivesScalar n k.scalar)
          (Q := fun i => ∃ n, g.Gives n i) (List.forall_mem_nil _)
        intro e he
        obtain ⟨p, _, hkey, hitem⟩ := Stepwise.exists_of_forall₂ hgiven.flip he
        exact ⟨⟨p.1, hkey⟩, ⟨p.2, hitem⟩⟩
      intro i hi
      unfold Make.collect at hi
      split at hi
      · obtain ⟨_, hentry, hi⟩ := List.mem_flatMap.mp hi
        obtain ⟨e, he, rfl⟩ := List.mem_map.mp hentry
        obtain ⟨⟨n, hkey⟩, hitem⟩ := hentries e he
        rcases List.mem_pair.mp hi with rfl | rfl
        · exact ⟨n, .scalar hkey⟩
        · exact hitem
      · obtain ⟨_, hmember, rfl⟩ := List.mem_map.mp hi
        obtain ⟨e, he, rfl⟩ := List.mem_map.mp hmember
        obtain ⟨⟨n, hkey⟩, _⟩ := hentries e he
        exact ⟨n, .scalar hkey⟩
  | pairs _ _ hentries =>
      intro i hi
      obtain ⟨e, he, hi⟩ := List.mem_flatMap.mp hi
      obtain ⟨_, _, p, _, hfirst, hsecond⟩ := Stepwise.exists_of_forall₂ hentries.flip he
      rcases List.mem_pair.mp hi with rfl | rfl
      · exact ⟨p.1, hfirst⟩
      · exact ⟨p.2, hsecond⟩

/-- Every item of a document is given by a node. -/
theorem Graph.Loads.gives_items (h : g.Loads root d) : ∀ i ∈ d.items, ∃ n, g.Gives n i := by
  intro i hi
  rcases List.mem_cons.mp hi with rfl | hi
  · exact ⟨root, h.start⟩
  · obtain ⟨e, he, hi⟩ := List.mem_flatMap.mp hi
    exact (h.filled e he).gives_items i hi

end Items

end VoiceIntents.Yaml
