import Mathlib.Logic.Relation
import VoiceIntents.Proofs.Stepwise
import VoiceIntents.Yaml.Merge

/-!
# What merging changes

Merging rewrites a graph in place. Scalars, sequences and the places of nodes stay, and a
mapping keeps every pair that does not merge; but a mapping that is merged into another one has
its own merge keys replaced too. How far this goes is bounded by the merge keys of the graph:
a mapping that no chain of them leads to keeps its pairs.
-/

namespace VoiceIntents.Yaml.Graph

open Stepwise (bind_eq_ok_iff)

section Nodes
variable {g : Graph} {id x : NodeId}

theorem lt_size_of_node_ne (h : g.node id ≠ .absent) : id < g.size := by
  by_contra hout
  apply h
  unfold size at hout
  simp [node, hout]

theorem node_modify {f : Node → Node} (hid : id < g.size) :
    (g.modify id f).node x = if x = id then f (g.node x) else g.node x := by
  unfold size at hid
  unfold modify node
  simp only [Array.getD_eq_getD_getElem?, Array.getElem?_modify]
  by_cases h : id = x
  · subst h
    simp [hid]
  · simp [h, Ne.symm h]

theorem node_setContent {pairs : List (NodeId × NodeId)} {content : Content}
    (h : (g.node id).content = .mapping pairs) :
    (g.setContent id content).node x =
      if x = id then { g.node x with content } else g.node x := by
  apply node_modify
  apply lt_size_of_node_ne
  intro habsent
  simp [habsent, Node.absent] at h

theorem node_setTag {tag : Tag} (h : g.tag id = .value) :
    (g.setTag id tag).node x = if x = id then { g.node x with tag } else g.node x := by
  apply node_modify
  apply lt_size_of_node_ne
  intro habsent
  simp [Graph.tag, habsent, Node.absent] at h

end Nodes

/-- The mappings that a pair merges, if its key is a merge key. -/
def sources (g : Graph) (p : NodeId × NodeId) : List NodeId :=
  if g.tag p.1 = .merge then
    match (g.node p.2).content with
    | .mapping _ => [p.2]
    | .sequence items => items
    | .scalar _ => []
  else []

/-- A node has a merge key for another one. -/
def Merges (g : Graph) (a b : NodeId) : Prop := ∃ p ∈ g.pairs a, b ∈ g.sources p

def IsMapping (g : Graph) (id : NodeId) : Prop := ∃ pairs, (g.node id).content = .mapping pairs

/-- What merging may change: a key `=` becomes text, and a mapping has other pairs, among them
its own that do not merge. -/
structure Rewrites (g g' : Graph) : Prop where
  start_eq : ∀ x, (g'.node x).start = (g.node x).start
  tag_eq : ∀ x, g'.tag x = g.tag x ∨ (g.tag x = .value ∧ g'.tag x = .str)
  content_eq : ∀ x, (g'.node x).content = (g.node x).content ∨ (g.IsMapping x ∧ g'.IsMapping x)
  pairs_kept : ∀ x, ∀ p ∈ g.pairs x, g.tag p.1 ≠ .merge → p ∈ g'.pairs x

namespace Rewrites
variable {g g' g'' : Graph}

theorem refl (g : Graph) : g.Rewrites g :=
  ⟨fun _ => rfl, fun _ => .inl rfl, fun _ => .inl rfl, fun _ _ hp _ => hp⟩

theorem merge_iff (h : g.Rewrites g') (x : NodeId) : g'.tag x = .merge ↔ g.tag x = .merge := by
  rcases h.tag_eq x with heq | ⟨hvalue, hstr⟩
  · rw [heq]
  · simp [hvalue, hstr]

theorem isMapping (h : g.Rewrites g') {x : NodeId} (hx : g.IsMapping x) : g'.IsMapping x := by
  rcases h.content_eq x with heq | ⟨_, hx'⟩
  · obtain ⟨pairs, hpairs⟩ := hx
    exact ⟨pairs, heq.trans hpairs⟩
  · exact hx'

theorem isMapping_iff (h : g.Rewrites g') {x : NodeId} : g'.IsMapping x ↔ g.IsMapping x := by
  refine ⟨?_, h.isMapping⟩
  rintro ⟨pairs, hpairs⟩
  rcases h.content_eq x with heq | ⟨hx, _⟩
  · exact ⟨pairs, heq ▸ hpairs⟩
  · exact hx

theorem trans (h : g.Rewrites g') (h' : g'.Rewrites g'') : g.Rewrites g'' where
  start_eq x := (h'.start_eq x).trans (h.start_eq x)
  tag_eq x := by
    rcases h'.tag_eq x with heq' | ⟨hvalue', hstr'⟩
    · rw [heq']
      exact h.tag_eq x
    · rcases h.tag_eq x with heq | ⟨_, hstr⟩
      · exact .inr ⟨heq ▸ hvalue', hstr'⟩
      · simp [hstr] at hvalue'
  content_eq x := by
    rcases h.content_eq x with heq | ⟨hx, hx'⟩
    · rcases h'.content_eq x with heq' | ⟨hx', hx''⟩
      · exact .inl (heq'.trans heq)
      · exact .inr ⟨h.isMapping_iff.mp hx', hx''⟩
    · exact .inr ⟨hx, h'.isMapping hx'⟩
  pairs_kept x p hp hmerge :=
    h'.pairs_kept x p (h.pairs_kept x p hp hmerge) (mt (h.merge_iff p.1).mp hmerge)

/-- A scalar keeps its text. -/
theorem content_of_isScalar (h : g.Rewrites g') {x : NodeId}
    (hx : (g.node x).content.isScalar = true) : (g'.node x).content = (g.node x).content := by
  rcases h.content_eq x with heq | ⟨⟨pairs, hpairs⟩, _⟩
  · exact heq
  · simp [hpairs, Content.isScalar] at hx

theorem isScalar_eq (h : g.Rewrites g') (x : NodeId) :
    (g'.node x).content.isScalar = (g.node x).content.isScalar := by
  rcases h.content_eq x with heq | ⟨⟨pairs, hpairs⟩, ⟨pairs', hpairs'⟩⟩
  · rw [heq]
  · rw [hpairs, hpairs']
    rfl

/-- Merge keys lead to the same mappings before and after. -/
theorem sources_eq (h : g.Rewrites g') (p : NodeId × NodeId) : g'.sources p = g.sources p := by
  unfold sources
  simp only [h.merge_iff]
  rcases h.content_eq p.2 with heq | ⟨⟨pairs, hpairs⟩, ⟨pairs', hpairs'⟩⟩
  · rw [heq]
  · rw [hpairs, hpairs']

end Rewrites

section Steps
variable {g : Graph} {id : NodeId} {pairs : List (NodeId × NodeId)}

theorem rewrites_setContent {pairs' : List (NodeId × NodeId)}
    (h : (g.node id).content = .mapping pairs)
    (hkept : ∀ p ∈ pairs, g.tag p.1 ≠ .merge → p ∈ pairs') :
    g.Rewrites (g.setContent id (.mapping pairs')) where
  start_eq x := by
    rw [node_setContent h]
    split <;> rfl
  tag_eq x := by
    left
    rw [tag, node_setContent h]
    split <;> rfl
  content_eq x := by
    by_cases hx : x = id
    · subst hx
      exact .inr ⟨⟨pairs, h⟩, ⟨pairs', by rw [node_setContent h, if_pos rfl]⟩⟩
    · left
      rw [node_setContent h, if_neg hx]
  pairs_kept x p hp hmerge := by
    unfold Graph.pairs at hp ⊢
    rw [node_setContent h]
    split
    · next hx =>
        subst hx
        rw [h] at hp
        exact hkept p hp hmerge
    · exact hp

theorem rewrites_retagKeys (g : Graph) (keys : List (NodeId × NodeId)) :
    g.Rewrites (g.retagKeys keys) ∧
      ∀ x, ((g.retagKeys keys).node x).content = (g.node x).content := by
  unfold retagKeys
  induction keys generalizing g with
  | nil => exact ⟨.refl g, fun _ => rfl⟩
  | cons key rest ih =>
      rw [List.foldl_cons]
      split
      · next hvalue =>
          obtain ⟨hrest, hcontents⟩ := ih (g.setTag key.1 .str)
          have hcontent (x : NodeId) :
              ((g.setTag key.1 .str).node x).content = (g.node x).content := by
            rw [node_setTag hvalue]
            split <;> rfl
          refine ⟨Rewrites.trans ?_ hrest, fun x => (hcontents x).trans (hcontent x)⟩
          refine ⟨?_, ?_, fun x => .inl (hcontent x), ?_⟩
          · intro x
            rw [node_setTag hvalue]
            split <;> rfl
          · intro x
            unfold tag
            rw [node_setTag hvalue]
            split
            · next hx =>
                subst hx
                exact .inr ⟨hvalue, rfl⟩
            · exact .inl rfl
          · intro x p hp _
            rwa [Graph.pairs, hcontent]
      · exact ih g

theorem splitMerge_eq_some {before after : List (NodeId × NodeId)} {source : NodeId}
    (h : g.splitMerge pairs = some (before, source, after)) :
    ∃ key, pairs = before ++ (key, source) :: after ∧ g.tag key = .merge := by
  induction pairs generalizing before with
  | nil => cases h
  | cons p rest ih =>
      unfold splitMerge at h
      split at h
      · next hmerge =>
          cases h
          exact ⟨p.1, rfl, hmerge⟩
      · obtain ⟨⟨before', source', after'⟩, hrest, heq⟩ := Option.map_eq_some_iff.mp h
        cases heq
        obtain ⟨key, rfl, hmerge⟩ := ih hrest
        exact ⟨key, rfl, hmerge⟩

end Steps

/-- A rewriting that stays within a relation, which holds wherever a merge key leads, and that
changes the contents of touched nodes only. -/
structure Within (R : NodeId → NodeId → Prop) (touched : NodeId → Prop) (g g' : Graph) : Prop where
  rewrites : g.Rewrites g'
  merges : ∀ a b, g'.Merges a b → R a b
  frame : ∀ x, ¬touched x → (g'.node x).content = (g.node x).content

namespace Within
variable {R : NodeId → NodeId → Prop} {touched touched' : NodeId → Prop} {g g' g'' : Graph}

theorem refl (hmerges : ∀ a b, g.Merges a b → R a b) : Within R touched g g :=
  ⟨.refl g, hmerges, fun _ _ => rfl⟩

theorem trans (h : Within R touched g g') (h' : Within R touched' g' g'') :
    Within R (fun x => touched x ∨ touched' x) g g'' where
  rewrites := h.rewrites.trans h'.rewrites
  merges := h'.merges
  frame x hx := by
    rw [h'.frame x (fun hx' => hx (.inr hx')), h.frame x (fun hx' => hx (.inl hx'))]

theorem mono (h : Within R touched g g') (htouched : ∀ x, touched x → touched' x) :
    Within R touched' g g' :=
  ⟨h.rewrites, h.merges, fun x hx => h.frame x (mt (htouched x) hx)⟩

/-- Giving a mapping other pairs, whose merge keys lead where they may. -/
theorem setContent {id : NodeId} {pairs pairs' : List (NodeId × NodeId)}
    (hmerges : ∀ a b, g.Merges a b → R a b) (hcontent : (g.node id).content = .mapping pairs)
    (hkept : ∀ p ∈ pairs, g.tag p.1 ≠ .merge → p ∈ pairs')
    (hnew : ∀ p ∈ pairs', ∀ b ∈ g.sources p, R id b) :
    Within R (· = id) g (g.setContent id (.mapping pairs')) := by
  have hrewrites := rewrites_setContent hcontent hkept
  refine ⟨hrewrites, ?_, ?_⟩
  · rintro a b ⟨p, hp, hb⟩
    rw [hrewrites.sources_eq] at hb
    rw [Graph.pairs, node_setContent hcontent] at hp
    split at hp
    · next ha =>
        subst ha
        exact hnew p hp b hb
    · exact hmerges a b ⟨p, hp, hb⟩
  · intro x hx
    rw [node_setContent hcontent, if_neg hx]

theorem retagKeys (hmerges : ∀ a b, g.Merges a b → R a b) (keys : List (NodeId × NodeId)) :
    Within R (fun _ => False) g (g.retagKeys keys) := by
  obtain ⟨hrewrites, hcontents⟩ := rewrites_retagKeys g keys
  refine ⟨hrewrites, ?_, fun x _ => hcontents x⟩
  rintro a b ⟨p, hp, hb⟩
  rw [hrewrites.sources_eq] at hb
  rw [Graph.pairs, hcontents] at hp
  exact hmerges a b ⟨p, hp, hb⟩

end Within

section Merge
variable {R : NodeId → NodeId → Prop} {fuel : Nat}

/-- Merging into a mapping touches it and the mappings that it merges, if the pairs merged so
far lead no farther. -/
def FromWithin (R : NodeId → NodeId → Prop) (fuel : Nat) : Prop :=
  ∀ id room merged g g', mergeFrom id fuel room merged g = .ok g' → g.IsMapping id →
    (∀ a b, g.Merges a b → R a b) → (∀ p ∈ merged, ∀ b ∈ g.sources p, R id b) →
    Within R (fun x => x = id ∨ R id x) g g'

/-- Merging a list of mappings touches these and what they merge, and the pairs of each lead no
farther. -/
def EachWithin (R : NodeId → NodeId → Prop) (fuel : Nat) : Prop :=
  ∀ room items g lists g', mergeEach fuel room items g = .ok (lists, g') →
    (∀ a b, g.Merges a b → R a b) →
    Within R (fun x => ∃ i ∈ items, x = i ∨ R i x) g g' ∧
      ∀ p ∈ lists.flatten, ∀ b ∈ g'.sources p, ∃ i ∈ items, R i b

/-- The last step of merging into a mapping: `=` becomes text, and the pairs merged so far are
put in front. -/
theorem within_putInFront {g : Graph} {id : NodeId} {pairs merged : List (NodeId × NodeId)}
    (hcontent : (g.node id).content = .mapping pairs) (hmerges : ∀ a b, g.Merges a b → R a b)
    (hmerged : ∀ p ∈ merged ++ pairs, ∀ b ∈ g.sources p, R id b) :
    Within R (· = id) g ((g.retagKeys pairs).setContent id
      (.mapping (merged ++ (g.retagKeys pairs).pairs id))) := by
  have hretag := Within.retagKeys hmerges pairs
  have hretagged : ((g.retagKeys pairs).node id).content = .mapping pairs :=
    (hretag.frame id not_false).trans hcontent
  have hpairs : (g.retagKeys pairs).pairs id = pairs := by
    rw [Graph.pairs, hretagged, Content.pairs]
  rw [hpairs]
  refine (hretag.trans (Within.setContent hretag.merges hretagged ?_ ?_)).mono ?_
  · intro p hp _
    exact List.mem_append_right merged hp
  · intro p hp b hb
    rw [hretag.rewrites.sources_eq] at hb
    exact hmerged p hp b hb
  · rintro x (hfalse | hx)
    · exact hfalse.elim
    · exact hx

/-- The first step of a merge: its entry is taken out of the mapping. -/
theorem within_takeOut {g : Graph} {id key source : NodeId}
    {before after : List (NodeId × NodeId)} (hkey : g.tag key = .merge)
    (hcontent : (g.node id).content = .mapping (before ++ (key, source) :: after))
    (hmerges : ∀ a b, g.Merges a b → R a b)
    (hown : ∀ p ∈ before ++ (key, source) :: after, ∀ b ∈ g.sources p, R id b) :
    Within R (· = id) g (g.setContent id (.mapping (before ++ after))) := by
  refine Within.setContent hmerges hcontent ?_ ?_
  · intro p hp hmerge
    rcases List.mem_append.mp hp with hp | hp
    · exact List.mem_append_left after hp
    · rcases List.mem_cons.mp hp with rfl | hp
      · exact absurd hkey hmerge
      · exact List.mem_append_right before hp
  · intro p hp b hb
    refine hown p ?_ b hb
    rcases List.mem_append.mp hp with hp | hp
    · exact List.mem_append_left _ hp
    · exact List.mem_append_right before (List.mem_cons_of_mem _ hp)

/-- After some sources of a mapping have been merged, the merging into it goes on from what they
have become. -/
theorem FromWithin.resume (htrans : ∀ a b c, R a b → R b c → R a c) (hfrom : FromWithin R fuel)
    {g g₁ g' : Graph} {id : NodeId} {room : Nat} {merged more : List (NodeId × NodeId)}
    {inner : List NodeId}
    (hid : g.IsMapping id) (hmerged : ∀ p ∈ merged, ∀ b ∈ g.sources p, R id b)
    (hinner : ∀ i ∈ inner, R id i)
    (hfirst : Within R (fun x => ∃ i ∈ inner, x = i ∨ R i x) g g₁)
    (hmore : ∀ p ∈ more, ∀ b ∈ g₁.sources p, ∃ i ∈ inner, R i b)
    (h : mergeFrom id fuel room (merged ++ more) g₁ = .ok g') :
    Within R (fun x => x = id ∨ R id x) g g' := by
  have hpairs : ∀ p ∈ merged ++ more, ∀ b ∈ g₁.sources p, R id b := by
    intro p hp b hb
    rcases List.mem_append.mp hp with hp | hp
    · rw [hfirst.rewrites.sources_eq] at hb
      exact hmerged p hp b hb
    · obtain ⟨i, hi, hb⟩ := hmore p hp b hb
      exact htrans id i b (hinner i hi) hb
  have hlast := hfrom id room _ g₁ g' h (hfirst.rewrites.isMapping hid) hfirst.merges hpairs
  refine (hfirst.trans hlast).mono ?_
  rintro x (⟨i, hi, rfl | hx⟩ | hx)
  · exact .inr (hinner x hi)
  · exact .inr (htrans id i x (hinner i hi) hx)
  · exact hx

theorem fromWithin_succ (htrans : ∀ a b c, R a b → R b c → R a c) (hfrom : FromWithin R fuel)
    (heach : EachWithin R fuel) : FromWithin R (fuel + 1) := by
  intro id room merged g g' h hmapping hmerges hmerged
  obtain ⟨pairs, hcontent⟩ := hmapping
  have hpairs : g.pairs id = pairs := by rw [Graph.pairs, hcontent, Content.pairs]
  have hown : ∀ p ∈ pairs, ∀ b ∈ g.sources p, R id b :=
    fun p hp b hb => hmerges id b ⟨p, hpairs ▸ hp, hb⟩
  rw [mergeFrom, hpairs] at h
  split at h
  · dsimp only at h
    split at h
    · cases h
      exact (Within.retagKeys hmerges pairs).mono fun _ => False.elim
    · cases h
      refine (within_putInFront hcontent hmerges ?_).mono fun _ => .inl
      intro p hp
      rcases List.mem_append.mp hp with hp | hp
      · exact hmerged p hp
      · exact hown p hp
  · next before source after hsplit =>
      obtain ⟨key, rfl, hkey⟩ := splitMerge_eq_some hsplit
      have hout := within_takeOut hkey hcontent hmerges hown
      have hid := hout.rewrites.isMapping ⟨_, hcontent⟩
      have hsource : ∀ i ∈ g.sources (key, source), R id i :=
        hown (key, source) (List.mem_append_right before List.mem_cons_self)
      dsimp only at h
      generalize g.setContent id (.mapping (before ++ after)) = g₀ at h hout hid
      simp only [← hout.rewrites.sources_eq] at hsource hmerged
      rw [sources, if_pos ((hout.rewrites.merge_iff key).mpr hkey)] at hsource
      have hlater : Within R (fun x => x = id ∨ R id x) g₀ g' := by
        cases hkind : (g₀.node source).content with
        | scalar text =>
            rw [hkind] at h
            cases h
        | mapping inner =>
            rw [hkind] at h hsource
            obtain ⟨inside, _, h⟩ := bind_eq_ok_iff.mp h
            obtain ⟨g₁, hfirst, hrest⟩ := bind_eq_ok_iff.mp h
            have hwithin := hfrom source inside [] g₀ g₁ hfirst ⟨inner, hkind⟩ hout.merges (by simp)
            refine hfrom.resume htrans hid hmerged hsource (hwithin.mono ?_) ?_ hrest
            · intro x hx
              exact ⟨source, List.mem_singleton_self source, hx⟩
            · intro p hp b hb
              exact ⟨source, List.mem_singleton_self source, hwithin.merges source b ⟨p, hp, hb⟩⟩
        | sequence items =>
            rw [hkind] at h hsource
            obtain ⟨⟨lists, g₁⟩, hfirst, hrest⟩ := bind_eq_ok_iff.mp h
            obtain ⟨hwithin, hlists⟩ := heach room items g₀ lists g₁ hfirst hout.merges
            refine hfrom.resume htrans hid hmerged hsource hwithin ?_ hrest
            intro p hp
            exact hlists p (by simpa using hp)
      refine (hout.trans hlater).mono ?_
      rintro x (hx | hx)
      · exact .inl hx
      · exact hx

theorem eachWithin_succ (hfrom : FromWithin R fuel) (heach : EachWithin R fuel) :
    EachWithin R (fuel + 1) := by
  intro room items g lists g' h hmerges
  cases items with
  | nil =>
      rw [mergeEach] at h
      cases h
      exact ⟨.refl hmerges, by simp⟩
  | cons source rest =>
      rw [mergeEach] at h
      split at h
      · next inner hkind =>
          obtain ⟨inside, _, h⟩ := bind_eq_ok_iff.mp h
          obtain ⟨g₁, hfirst, h⟩ := bind_eq_ok_iff.mp h
          obtain ⟨⟨more, g₂⟩, hmore, h⟩ := bind_eq_ok_iff.mp h
          cases h
          have hwithin := hfrom source inside [] g g₁ hfirst ⟨inner, hkind⟩ hmerges (by simp)
          obtain ⟨hrest, hlists⟩ := heach room rest g₁ more g' hmore hwithin.merges
          refine ⟨(hwithin.trans hrest).mono ?_, ?_⟩
          · rintro x (hx | ⟨i, hi, hx⟩)
            · exact ⟨source, List.mem_cons_self, hx⟩
            · exact ⟨i, List.mem_cons_of_mem source hi, hx⟩
          · intro p hp b hb
            rw [List.flatten_cons] at hp
            rcases List.mem_append.mp hp with hp | hp
            · rw [hrest.rewrites.sources_eq] at hb
              exact ⟨source, List.mem_cons_self, hwithin.merges source b ⟨p, hp, hb⟩⟩
            · obtain ⟨i, hi, hb⟩ := hlists p hp b hb
              exact ⟨i, List.mem_cons_of_mem source hi, hb⟩
      · cases h

theorem fromWithin (htrans : ∀ a b c, R a b → R b c → R a c) (fuel : Nat) :
    FromWithin R fuel ∧ EachWithin R fuel := by
  induction fuel with
  | zero =>
      refine ⟨?_, ?_⟩
      · intro id room merged g g' h _ hmerges _
        rw [mergeFrom] at h
        cases h
        exact .refl hmerges
      · intro room items g lists g' h hmerges
        rw [mergeEach] at h
        cases h
        exact ⟨.refl hmerges, by simp⟩
  | succ fuel ih => exact ⟨fromWithin_succ htrans ih.1 ih.2, eachWithin_succ ih.1 ih.2⟩

/-- Merging the keys of a node touches it and what chains of merge keys lead to from it. -/
theorem mergeKeys_within [Host] (htrans : ∀ a b c, R a b → R b c → R a c) {g g' : Graph}
    {id : NodeId}
    (h : g.mergeKeys id = .ok g') (hmerges : ∀ a b, g.Merges a b → R a b) :
    Within R (fun x => x = id ∨ R id x) g g' := by
  by_cases hmapping : g.IsMapping id
  · exact (fromWithin htrans _).1 id _ [] g g' h hmapping hmerges (by simp)
  · -- What is no mapping has no pairs, and nothing happens.
    have hpairs : g.pairs id = [] := by
      cases hcontent : (g.node id).content with
      | mapping pairs => exact absurd ⟨pairs, hcontent⟩ hmapping
      | scalar text => simp [Graph.pairs, hcontent, Content.pairs]
      | sequence items => simp [Graph.pairs, hcontent, Content.pairs]
    have hsame : g' = g := by
      unfold mergeKeys at h
      dsimp only at h
      generalize 2 * (g.mergeCount + 1) * _ = fuel at h
      cases fuel with
      | zero => exact (Except.ok.inj h).symm
      | succ fuel =>
          rw [mergeFrom, hpairs] at h
          exact (Except.ok.inj h).symm
    rw [hsame]
    exact .refl hmerges

theorem mergeKeys_rewrites [Host] {g g' : Graph} {id : NodeId} (h : g.mergeKeys id = .ok g') :
    g.Rewrites g' :=
  (mergeKeys_within (R := fun _ _ => True) (fun _ _ _ _ _ => trivial) h
    fun _ _ _ => trivial).rewrites

end Merge

end VoiceIntents.Yaml.Graph
