import VoiceIntents.Proofs.Making
import VoiceIntents.Proofs.Merging

/-!
# Repeated keys

Refusing repeated keys adds a check before each mapping is filled. The check reads the graph as
it is then: a mapping that was merged into one filled earlier shows the entries merged into it
beside its own, and a key `=` has not become text yet. Apart from these two it refuses nothing
that is not repeated in the mapping as written, and what it accepts it leaves as it is.
-/

namespace VoiceIntents.Yaml

open Stepwise (bind_eq_ok_iff)

namespace Graph

/-- A graph where a key `=` counts as text, as it does once its mapping has been merged. -/
def asKey (g : Graph) (id : NodeId) : Graph :=
  if g.tag id = .value then g.setTag id .str else g

variable [Host]

/-- The key that a scalar gives in a mapping. -/
def keyOf? (g : Graph) (id : NodeId) : Option Key :=
  if g.isChecked id then (Make.freshKey (g.asKey id) id).toOption else none

/-- The keys of a mapping, other than collections and merge keys. -/
def keysOf (g : Graph) (id : NodeId) : List Key := (g.pairs id).filterMap fun p => g.keyOf? p.1

/-- No two keys of a mapping are the same. -/
def KeysApart (g : Graph) (id : NodeId) : Prop :=
  (g.keysOf id).Pairwise fun earlier later => later.same earlier = false

instance (g : Graph) (id : NodeId) : Decidable (g.KeysApart id) :=
  inferInstanceAs (Decidable (List.Pairwise _ _))

/-- A mapping has a key `=` that has not become text. -/
def HasDefault (g : Graph) (id : NodeId) : Prop :=
  ∃ p ∈ g.pairs id, g.isChecked p.1 = true ∧ g.tag p.1 = .value

/-- The check for repeated keys passes over a mapping. -/
def Passes (g : Graph) (id : NodeId) : Prop := ¬g.HasDefault id ∧ g.KeysApart id

/-- The graph after some nodes have been filled, one after another. -/
def mergedBy (g : Graph) (ids : List NodeId) : Except Error Graph := ids.foldlM mergedAt g

end Graph

section FreshKey
variable {g g' : Graph} {id : NodeId}

theorem asKey_of_ne (h : g.tag id ≠ .value) : g.asKey id = g := by
  rw [Graph.asKey, if_neg h]

/-- A key `=` is read as text, and every other scalar as itself. -/
theorem node_asKey : (g.asKey id).node id =
    ⟨if g.tag id = .value then .str else g.tag id, (g.node id).start, (g.node id).content⟩ := by
  unfold Graph.asKey
  split
  · next hvalue => rw [Graph.node_setTag hvalue, if_pos rfl]
  · rfl

theorem isScalar_of_isChecked (h : g.isChecked id = true) :
    (g.node id).content.isScalar = true :=
  (Bool.and_eq_true_iff.mp h).1

theorem Graph.Rewrites.isChecked_eq (h : g.Rewrites g') (id : NodeId) :
    g'.isChecked id = g.isChecked id := by
  simp only [Graph.isChecked, h.isScalar_eq, h.merge_iff, ne_eq]

theorem Graph.Rewrites.isMapped_eq (h : g.Rewrites g') (id : NodeId) :
    g'.isMapped id = g.isMapped id := by
  rcases h.tag_eq id with heq | ⟨hvalue, hstr⟩
  · rw [Graph.isMapped, Graph.isMapped, heq]
  · simp [Graph.isMapped, hvalue, hstr]

variable [Host]

theorem tag_isScalar_of_freshKey {key : Key} (h : Make.freshKey g id = .ok key) :
    (g.tag id).isScalar = true := by
  obtain ⟨scalar, hscalar, _⟩ := bind_eq_ok_iff.mp h
  unfold Make.scalarOf at hscalar
  by_contra htag
  rw [Graph.tag, Bool.not_eq_true] at htag
  simp only [htag, Bool.not_false, if_true] at hscalar
  cases hscalar

/-- The key of a scalar depends on its own node only. -/
theorem freshKey_congr (hscalar : (g.node id).content.isScalar = true)
    (hnode : g'.node id = g.node id) : Make.freshKey g' id = Make.freshKey g id := by
  have htext (h : Graph) (hh : h.node id = g.node id) :
      Make.textOf h (Host.defaultRoom + 1) id = Make.textOf g (Host.defaultRoom + 1) id := by
    rw [Make.textOf, Make.textOf, hh]
    cases hcontent : (g.node id).content with
    | scalar text => rfl
    | mapping pairs => simp [hcontent, Content.isScalar] at hscalar
    | sequence items => simp [hcontent, Content.isScalar] at hscalar
  simp only [Make.freshKey, Make.scalarOf, Make.makerOf, htext g' hnode, hnode]

/-- Merging changes no key. -/
theorem Graph.Rewrites.keyOf?_eq (h : g.Rewrites g') (id : NodeId) :
    g'.keyOf? id = g.keyOf? id := by
  unfold Graph.keyOf?
  rw [h.isChecked_eq]
  split
  · next hchecked =>
      have hcontent := h.content_of_isScalar (isScalar_of_isChecked hchecked)
      have hnode : (g'.asKey id).node id = (g.asKey id).node id := by
        rw [node_asKey, node_asKey, h.start_eq, hcontent]
        rcases h.tag_eq id with heq | ⟨hvalue, hstr⟩
        · rw [heq]
        · simp [hvalue, hstr]
      have hscalar : ((g.asKey id).node id).content.isScalar = true := by
        rw [node_asKey]
        exact isScalar_of_isChecked hchecked
      rw [freshKey_congr hscalar hnode]
  · rfl

/-- A mapping that keeps its pairs keeps its keys. -/
theorem Graph.Rewrites.keysOf_eq (h : g.Rewrites g')
    (hcontent : (g'.node id).content = (g.node id).content) : g'.keysOf id = g.keysOf id := by
  unfold Graph.keysOf Graph.pairs
  rw [hcontent]
  simp only [h.keyOf?_eq]

end FreshKey

section Check
variable {s s' : Making} {id : NodeId}

/-- Nothing is remembered of scalars. -/
def Making.DefaultsSound (s : Making) : Prop :=
  ∀ e ∈ s.defaults, (s.graph.node e.1).content.isScalar = false

theorem Making.DefaultsSound.lookup_eq_none (h : s.DefaultsSound)
    (hscalar : (s.graph.node id).content.isScalar = true) : s.defaults.lookup id = none := by
  rw [List.lookup_eq_none_iff]
  intro e he
  have hother := h e he
  rw [bne_iff_ne]
  rintro rfl
  simp [hscalar] at hother

theorem Making.Extends.defaultsSound (h : s.Extends s') (hs : s.DefaultsSound) :
    s'.DefaultsSound := by
  intro e he
  rw [h.graph_eq]
  rcases h.defaults_new e he with hold | hnew
  · exact hs e hold
  · exact hnew

variable [Host]

/-- A scalar gives a key when it can be read now. -/
theorem key?_eq_ok_iff (hs : s.DefaultsSound)
    (hscalar : (s.graph.node id).content.isScalar = true) {key : Key} :
    (Make.key? id).run s = .ok (some key, s') ↔
      s' = s ∧ Make.freshKey s.graph id = .ok key := by
  have hremember (key : Key) : s.remember id key = s := by rw [Making.remember, if_pos hscalar]
  rw [Make.key?_run, Make.scalarKey_run, hs.lookup_eq_none hscalar]
  split
  · next hcollection =>
      constructor
      · intro h
        cases h
      · rintro ⟨_, h⟩
        have htag := tag_isScalar_of_freshKey h
        generalize s.graph.tag id = tag at hcollection htag
        cases tag <;> simp_all [Make.isCollection, Tag.isScalar]
  · simp only [bind_eq_ok_iff, hremember]
    constructor
    · rintro ⟨_, ⟨fresh, hfresh, hfirst⟩, hend⟩
      cases hfirst
      cases hend
      exact ⟨rfl, hfresh⟩
    · rintro ⟨rfl, hfresh⟩
      exact ⟨_, ⟨key, hfresh, rfl⟩, rfl⟩

/-- A key that is checked can be read when it is not `=` and gives a key at all. -/
theorem key?_eq_ok_iff_of_isChecked (hs : s.DefaultsSound) (hchecked : s.graph.isChecked id = true)
    {key : Key} : (Make.key? id).run s = .ok (some key, s) ↔
      s.graph.tag id ≠ .value ∧ s.graph.keyOf? id = some key := by
  rw [key?_eq_ok_iff hs (isScalar_of_isChecked hchecked), Graph.keyOf?, if_pos hchecked]
  by_cases hvalue : s.graph.tag id = .value
  · have hfresh : Make.freshKey s.graph id ≠ .ok key := by
      intro h
      simpa [hvalue, Tag.isScalar] using tag_isScalar_of_freshKey h
    simp [hvalue, hfresh]
  · rw [asKey_of_ne hvalue]
    cases hfresh : Make.freshKey s.graph id <;> simp [hvalue, Except.toOption]

theorem filterMap_filter_isChecked (g : Graph) (id : NodeId) :
    ((g.pairs id).filter fun p => g.isChecked p.1).filterMap (fun p => g.keyOf? p.1) =
      g.keysOf id := by
  rw [List.filterMap_filter, Graph.keysOf]
  congr 1
  funext p
  unfold Graph.keyOf?
  split <;> simp_all

/-- The check passes when no key is `=`, every key can be read, and no two are the same. -/
theorem keysPass_iff (hs : s.DefaultsSound) :
    Make.KeysPass s (s.graph.pairs id) ↔
      ¬s.graph.HasDefault id ∧
        (∀ p ∈ s.graph.pairs id, s.graph.isChecked p.1 = true →
          (s.graph.keyOf? p.1).isSome = true) ∧
        s.graph.KeysApart id := by
  have hread (keys : List Key) :
      List.Forall₂ (fun p key => (Make.key? p.1).run s = .ok (some key, s))
        ((s.graph.pairs id).filter fun p => s.graph.isChecked p.1) keys ↔
      (∀ p ∈ (s.graph.pairs id).filter fun p => s.graph.isChecked p.1,
        s.graph.tag p.1 ≠ .value ∧ (s.graph.keyOf? p.1).isSome = true) ∧
        keys = s.graph.keysOf id := by
    rw [← filterMap_filter_isChecked]
    apply Stepwise.forall₂_filterMap_iff
    intro p hp key
    exact key?_eq_ok_iff_of_isChecked hs (List.mem_filter.mp hp).2
  unfold Make.KeysPass Graph.KeysApart
  simp only [hread, List.mem_filter]
  constructor
  · rintro ⟨_, ⟨hpass, rfl⟩, hapart⟩
    refine ⟨?_, fun p hp hchecked => (hpass p ⟨hp, hchecked⟩).2, hapart⟩
    rintro ⟨p, hp, hchecked, hvalue⟩
    exact (hpass p ⟨hp, hchecked⟩).1 hvalue
  · rintro ⟨hdefault, hsome, hapart⟩
    refine ⟨_, ⟨?_, rfl⟩, hapart⟩
    rintro p ⟨hp, hchecked⟩
    exact ⟨fun hvalue => hdefault ⟨p, hp, hchecked, hvalue⟩, hsome p hp hchecked⟩

end Check

section Turns
variable [Host] {s s' : Making} {id : NodeId}

/-- The scalar keys of a mapping whose entries were read can be read. -/
theorem freshKey_of_entries {made made' : List (Key × Item)} {pairs : List (NodeId × NodeId)}
    (hs : s.DefaultsSound) (h : (Make.entries made pairs).run s = .ok (made', s')) :
    ∀ p ∈ pairs, (s.graph.node p.1).content.isScalar = true →
      ∃ key, Make.freshKey s.graph p.1 = .ok key := by
  induction pairs generalizing made s with
  | nil => simp
  | cons pair rest ih =>
      obtain ⟨key, first, hkey, h⟩ := Make.bind_run_eq_ok_iff.mp h
      cases key with
      | none => cases h
      | some key =>
          obtain ⟨item, second, hitem, h⟩ := Make.bind_run_eq_ok_iff.mp h
          have hextends := (Make.steady_key? _ hkey).trans (Make.steady_item _ hitem)
          refine List.forall_mem_cons.mpr ⟨?_, ?_⟩
          · intro hscalar
            exact ⟨key, ((key?_eq_ok_iff hs hscalar).mp hkey).2⟩
          · have hrest := ih (hextends.defaultsSound hs) h
            rwa [hextends.graph_eq] at hrest

/-- Keys that can be read once a mapping is merged gave a key before. -/
theorem keyOf?_isSome_of_mapping {made : List (Key × Item)} (hs : s.DefaultsSound)
    (h : (Make.mapping .lastWins id).run s = .ok (made, s')) :
    ∀ p ∈ s.graph.pairs id, s.graph.isChecked p.1 = true →
      (s.graph.keyOf? p.1).isSome = true := by
  intro p hp hchecked
  obtain ⟨_, g, _, hmerge, hentries⟩ := Make.mapping_lastWins_eq_ok_iff.mp h
  have hrewrites := Graph.mergeKeys_rewrites hmerge
  have hscalar := isScalar_of_isChecked hchecked
  have hsound : ({ s with graph := g } : Making).DefaultsSound := by
    intro e he
    exact (hrewrites.isScalar_eq e.1).trans (hs e he)
  have hmem : p ∈ g.pairs id := by
    refine hrewrites.pairs_kept id p hp ?_
    simpa [Graph.isChecked, hscalar] using hchecked
  have hscalar' : (g.node p.1).content.isScalar = true := (hrewrites.isScalar_eq p.1).trans hscalar
  obtain ⟨key, hkey⟩ := freshKey_of_entries hsound hentries p hmem hscalar'
  -- What is read now is no `=` any more, and of a scalar nothing else can have changed.
  have hne : g.tag p.1 ≠ .value := by
    intro hvalue
    simpa [hvalue, Tag.isScalar] using tag_isScalar_of_freshKey hkey
  have hfound : g.keyOf? p.1 = some key := by
    rw [Graph.keyOf?, if_pos ((hrewrites.isChecked_eq p.1).trans hchecked), asKey_of_ne hne]
    exact congrArg Except.toOption hkey
  rw [← hrewrites.keyOf?_eq, hfound]
  rfl

/-- A turn is refused when the check fails on the graph as it is, and only then. -/
theorem turn_refused_iff (hs : s.DefaultsSound) :
    Make.Turn .refused id s s' ↔
      (s.graph.isMapped id = true → s.graph.Passes id) ∧ Make.Turn .lastWins id s s' := by
  constructor
  · rintro ⟨rest, c, between, hwaiting, hfill, rfl⟩
    obtain ⟨hpass, hplain⟩ := Make.fill_refused_eq_ok_iff.mp hfill
    refine ⟨?_, rest, c, between, hwaiting, hplain, rfl⟩
    intro hmapped
    obtain ⟨hdefault, _, hapart⟩ := (keysPass_iff (s := { s with waiting := rest }) hs).mp
      (hpass hmapped)
    exact ⟨hdefault, hapart⟩
  · rintro ⟨hpass, rest, c, between, hwaiting, hplain, rfl⟩
    refine ⟨rest, c, between, hwaiting, Make.fill_refused_eq_ok_iff.mpr ⟨?_, hplain⟩, rfl⟩
    intro hmapped
    rw [Make.fill_run_of_isMapped hmapped] at hplain
    obtain ⟨⟨made, _⟩, hmade, _⟩ := bind_eq_ok_iff.mp hplain
    obtain ⟨hdefault, hapart⟩ := hpass hmapped
    refine (keysPass_iff (s := { s with waiting := rest }) hs).mpr ⟨hdefault, ?_, hapart⟩
    exact keyOf?_isSome_of_mapping hs hmade

end Turns

section MergedBy
variable [Host] {R : NodeId → NodeId → Prop} {g g' : Graph}

theorem Graph.mergedBy_append (g : Graph) (first second : List NodeId) :
    g.mergedBy (first ++ second) = g.mergedBy first >>= fun g' => g'.mergedBy second := by
  unfold Graph.mergedBy
  rw [List.foldlM_append]

theorem Graph.mergedBy_cons (g : Graph) (id : NodeId) (rest : List NodeId) :
    g.mergedBy (id :: rest) = g.mergedAt id >>= fun g' => g'.mergedBy rest := by
  unfold Graph.mergedBy
  rw [List.foldlM_cons]

theorem Graph.mergedAt_within (htrans : ∀ a b c, R a b → R b c → R a c) {id : NodeId}
    (h : g.mergedAt id = .ok g') (hmerges : ∀ a b, g.Merges a b → R a b) :
    Graph.Within R (fun x => x = id ∨ R id x) g g' := by
  unfold Graph.mergedAt at h
  split at h
  · exact Graph.mergeKeys_within htrans h hmerges
  · cases h
    exact .refl hmerges

/-- Filling nodes touches these and what chains of merge keys lead to from them. -/
theorem Graph.mergedBy_within (htrans : ∀ a b c, R a b → R b c → R a c) {ids : List NodeId}
    (h : g.mergedBy ids = .ok g') (hmerges : ∀ a b, g.Merges a b → R a b) :
    Graph.Within R (fun x => ∃ a ∈ ids, x = a ∨ R a x) g g' := by
  induction ids generalizing g with
  | nil =>
      cases h
      exact .refl hmerges
  | cons id rest ih =>
      rw [Graph.mergedBy_cons] at h
      obtain ⟨g₁, hfirst, hrest⟩ := bind_eq_ok_iff.mp h
      have hwithin := Graph.mergedAt_within htrans hfirst hmerges
      refine (hwithin.trans (ih hrest hwithin.merges)).mono ?_
      rintro x (hx | ⟨a, ha, hx⟩)
      · exact ⟨id, List.mem_cons_self, hx⟩
      · exact ⟨a, List.mem_cons_of_mem id ha, hx⟩

theorem Graph.mergedBy_rewrites {ids : List NodeId} (h : g.mergedBy ids = .ok g') :
    g.Rewrites g' :=
  (Graph.mergedBy_within (R := fun _ _ => True) (fun _ _ _ _ _ => trivial) h
    fun _ _ _ => trivial).rewrites

end MergedBy

section Runs
variable [Host] {original : Graph} {s s' : Making} {id : NodeId} {fuel : Nat}

/-- What holds on the way: the graph is the original one, merged at the nodes that are filled,
and nothing is remembered of scalars. -/
structure Making.Reached (original : Graph) (s : Making) : Prop where
  graph : original.mergedBy (s.filled.map (·.1)) = .ok s.graph
  defaults : s.DefaultsSound

theorem Make.Turn.reached {repeats : RepeatedKeys} (hs : s.Reached original)
    (h : Make.Turn repeats id s s') : s'.Reached original := by
  obtain ⟨c, hfilled, _, hmerged, hdefaults⟩ := h.spec
  have hone : s.graph.mergedBy [id] = .ok s'.graph := by
    rw [Graph.mergedBy_cons, hmerged]
    rfl
  refine ⟨?_, ?_⟩
  · rw [hfilled, List.map_append, Graph.mergedBy_append, hs.graph]
    exact hone
  · intro e he
    rcases hdefaults e he with hold | hnew
    · rw [(Graph.mergedBy_rewrites hone).isScalar_eq]
      exact hs.defaults e hold
    · exact hnew

theorem filled_prefix {repeats : RepeatedKeys}
    (h : (Make.fillAll repeats fuel).run s = .ok ((), s')) :
    ∃ more, s'.filled = s.filled ++ more := by
  refine Make.fillAll_induction (P := fun s' => ∃ more, s'.filled = s.filled ++ more) ?_ ?_ h
  · rintro id between next ⟨more, hmore⟩ hturn
    obtain ⟨c, hfilled, _⟩ := hturn.spec
    exact ⟨more ++ [(id, c)], by rw [hfilled, hmore, List.append_assoc]⟩
  · exact ⟨[], by simp⟩

/-- A mapping comes to its turn: it is filled after some others, which have merged the graph. -/
structure TurnOf (original : Graph) (order before : List NodeId) (id : NodeId) (now : Graph) :
    Prop where
  order : ∃ after, order = before ++ id :: after
  graph : original.mergedBy before = .ok now
  mapped : now.isMapped id = true

/-- Every turn after the first ones passes the check. -/
def PassesFrom (original : Graph) (count : Nat) (order : List NodeId) : Prop :=
  ∀ before id now, TurnOf original order before id now → count ≤ before.length → now.Passes id

theorem passesFrom_length (original : Graph) (order : List NodeId) :
    PassesFrom original order.length order := by
  rintro before id now ⟨⟨after, rfl⟩, _, _⟩ hlength
  simp only [List.length_append, List.length_cons] at hlength
  omega

/-- The first turn of a run, seen from its end. -/
theorem turnOf_first_iff {repeats : RepeatedKeys} {between : Making} (hs : s.Reached original)
    (hturn : Make.Turn repeats id s between)
    (hrun : (Make.fillAll repeats fuel).run between = .ok ((), s')) {before : List NodeId}
    {id' : NodeId} {now : Graph} (hlength : before.length = s.filled.length) :
    TurnOf original (s'.filled.map (·.1)) before id' now ↔
      before = s.filled.map (·.1) ∧ id' = id ∧ now = s.graph ∧ s.graph.isMapped id = true := by
  obtain ⟨c, hfilled, _⟩ := hturn.spec
  obtain ⟨more, hmore⟩ := filled_prefix hrun
  have horder : s'.filled.map (·.1) = s.filled.map (·.1) ++ id :: more.map (·.1) := by
    rw [hmore, hfilled]
    simp
  constructor
  · rintro ⟨⟨after, hafter⟩, hgraph, hmapped⟩
    rw [horder] at hafter
    obtain ⟨rfl, hrest⟩ := List.append_inj hafter (by simp [hlength])
    cases hrest
    rw [hs.graph] at hgraph
    cases hgraph
    exact ⟨rfl, rfl, rfl, hmapped⟩
  · rintro ⟨rfl, rfl, rfl, hmapped⟩
    exact ⟨⟨_, horder⟩, hs.graph, hmapped⟩

/-- A run that refuses repeats is a plain run on which every turn passes the check. -/
theorem fillAll_refused_eq_ok_iff (hs : s.Reached original) :
    (Make.fillAll .refused fuel).run s = .ok ((), s') ↔
      (Make.fillAll .lastWins fuel).run s = .ok ((), s') ∧
        PassesFrom original s.filled.length (s'.filled.map (·.1)) := by
  have hdone (s : Making) : PassesFrom original s.filled.length (s.filled.map (·.1)) := by
    simpa using passesFrom_length original (s.filled.map (·.1))
  induction fuel generalizing s with
  | zero =>
      rw [Make.fillAll, Make.fillAll]
      refine ⟨fun h => ⟨h, ?_⟩, And.left⟩
      obtain ⟨_, rfl⟩ := Make.pure_run_eq_ok_iff.mp h
      exact hdone s
  | succ fuel ih =>
      rw [Make.fillAll_succ_eq_ok_iff, Make.fillAll_succ_eq_ok_iff]
      constructor
      · rintro (⟨hwaiting, rfl⟩ | ⟨id, between, hturn, hrun⟩)
        · exact ⟨.inl ⟨hwaiting, rfl⟩, hdone s'⟩
        · obtain ⟨hpass, hplain⟩ := (turn_refused_iff hs.defaults).mp hturn
          obtain ⟨hrest, hpasses⟩ := (ih (hturn.reached hs)).mp hrun
          refine ⟨.inr ⟨id, between, hplain, hrest⟩, ?_⟩
          intro before id' now hat hlength
          obtain ⟨c, hfilled, _⟩ := hturn.spec
          rcases Nat.eq_or_lt_of_le hlength with hfirst | hlater
          · obtain ⟨_, rfl, rfl, hmapped⟩ := (turnOf_first_iff hs hplain hrest hfirst.symm).mp hat
            exact hpass hmapped
          · refine hpasses before id' now hat ?_
            rw [hfilled, List.length_append]
            exact hlater
      · rintro ⟨⟨hwaiting, rfl⟩ | ⟨id, between, hturn, hrun⟩, hpasses⟩
        · exact .inl ⟨hwaiting, rfl⟩
        · have hpass : s.graph.isMapped id = true → s.graph.Passes id := by
            intro hmapped
            have hlength : (s.filled.map (·.1)).length = s.filled.length := List.length_map _
            have hat := (turnOf_first_iff hs hturn hrun hlength).mpr ⟨rfl, rfl, rfl, hmapped⟩
            exact hpasses _ id s.graph hat (Nat.le_of_eq hlength.symm)
          have hrefused := (turn_refused_iff hs.defaults).mpr ⟨hpass, hturn⟩
          refine .inr ⟨id, between, hrefused, (ih (hturn.reached hs)).mpr ⟨hrun, ?_⟩⟩
          intro before id' now hat hlength
          obtain ⟨c, hfilled, _⟩ := hturn.spec
          refine hpasses before id' now hat (Nat.le_trans ?_ hlength)
          rw [hfilled, List.length_append]
          exact Nat.le_add_right _ _

end Runs

section Documents
variable [Host] {g : Graph} {root : NodeId} {d : Document}

/-- Refusing repeats gives the plain document when every turn passes the check, and nothing
otherwise. -/
theorem ofGraph_refused_eq_ok_iff : Document.ofGraph .refused g root = .ok d ↔
    Document.ofGraph .lastWins g root = .ok d ∧ PassesFrom g 0 (d.collections.map (·.1)) := by
  have hreached {item : Item} {s : Making}
      (hitem : (Make.item root).run ⟨g, [], [], [], []⟩ = .ok (item, s)) :
      s.Reached g ∧ s.filled.length = 0 := by
    have hextends := Make.steady_item root hitem
    refine ⟨⟨?_, hextends.defaultsSound (by simp [Making.DefaultsSound])⟩, ?_⟩
    · rw [hextends.filled_eq, hextends.graph_eq]
      rfl
    · rw [hextends.filled_eq]
      rfl
  rw [Document.ofGraph_eq_ok_iff, Document.ofGraph_eq_ok_iff]
  constructor
  · rintro ⟨item, s, s', hitem, hfill, rfl⟩
    obtain ⟨hs, hlength⟩ := hreached hitem
    obtain ⟨hplain, hpasses⟩ := (fillAll_refused_eq_ok_iff hs).mp hfill
    exact ⟨⟨item, s, s', hitem, hplain, rfl⟩, hlength ▸ hpasses⟩
  · rintro ⟨⟨item, s, s', hitem, hplain, rfl⟩, hpasses⟩
    obtain ⟨hs, hlength⟩ := hreached hitem
    refine ⟨item, s, s', hitem, (fillAll_refused_eq_ok_iff hs).mpr ⟨hplain, ?_⟩, rfl⟩
    rw [hlength]
    exact hpasses

/-- A mapping that no chain of merge keys leads to from one filled earlier has the keys that
were written when its turn comes. -/
theorem TurnOf.keysOf_eq {before : List NodeId} {id : NodeId} {now : Graph}
    (hturn : TurnOf g (d.collections.map (·.1)) before id now)
    (honce : (d.collections.map (·.1)).Nodup)
    (hapart : ¬∃ a ∈ before, Relation.TransGen g.Merges a id) : now.keysOf id = g.keysOf id := by
  have hwithin := Graph.mergedBy_within (fun _ _ _ => Relation.TransGen.trans) hturn.graph
    (fun _ _ => Relation.TransGen.single)
  refine hwithin.rewrites.keysOf_eq (hwithin.frame id ?_)
  rintro ⟨a, ha, rfl | hchain⟩
  · obtain ⟨after, horder⟩ := hturn.order
    rw [horder] at honce
    exact (List.nodup_append.mp honce).2.2 id ha id List.mem_cons_self rfl
  · exact hapart ⟨a, ha, hchain⟩

end Documents

/-- Where no mapping repeats a key as it is written, a document that can be made at all is made
with repeats refused exactly when no mapping has a key `=` at its turn and none that was merged
into an earlier one has come to repeat a key; and whatever is made is the same. -/
theorem repeats_refused_iff [Host] (g : Graph) (root : NodeId) (d : Document)
    (hwritten : ∀ id, g.isMapped id = true → g.KeysApart id)
    (hplain : Document.ofGraph .lastWins g root = .ok d) :
    (Document.ofGraph .refused g root = .ok d ↔
      ∀ before id now, TurnOf g (d.collections.map (·.1)) before id now →
        ¬now.HasDefault id ∧
          ((∃ a ∈ before, Relation.TransGen g.Merges a id) → now.KeysApart id)) ∧
    ∀ d', Document.ofGraph .refused g root = .ok d' → d' = d := by
  constructor
  · rw [ofGraph_refused_eq_ok_iff, and_iff_right hplain]
    constructor
    · intro hpasses before id now hturn
      obtain ⟨hdefault, hapart⟩ := hpasses before id now hturn (Nat.zero_le _)
      exact ⟨hdefault, fun _ => hapart⟩
    · intro hpasses before id now hturn _
      obtain ⟨hdefault, hmerged⟩ := hpasses before id now hturn
      refine ⟨hdefault, ?_⟩
      by_cases hchain : ∃ a ∈ before, Relation.TransGen g.Merges a id
      · exact hmerged hchain
      · have hmapped : g.isMapped id = true :=
          (Graph.mergedBy_rewrites hturn.graph).isMapped_eq id ▸ hturn.mapped
        have hkeys := hturn.keysOf_eq (Document.nodes_nodup hplain) hchain
        rw [Graph.KeysApart, hkeys]
        exact hwritten id hmapped
  · intro d' hrefused
    have hplain' := (ofGraph_refused_eq_ok_iff.mp hrefused).1
    exact Except.ok.inj (hplain'.symm.trans hplain)

/-- A mapping with an entry of its own in place of a merged one stands two levels down, and one
that stands higher up merges it. -/
def overriding : Graph :=
  let start : Mark := ⟨0, 0, 0⟩
  ⟨#[⟨.map, start, .mapping [(1, 2), (11, 12)]⟩, ⟨.str, start, .scalar "deep"⟩,
    ⟨.map, start, .mapping [(3, 4)]⟩, ⟨.str, start, .scalar "inner"⟩,
    ⟨.map, start, .mapping [(5, 6), (9, 10)]⟩, ⟨.merge, start, .scalar "<<"⟩,
    ⟨.map, start, .mapping [(7, 8)]⟩, ⟨.str, start, .scalar "x"⟩, ⟨.str, start, .scalar "1"⟩,
    ⟨.str, start, .scalar "x"⟩, ⟨.str, start, .scalar "2"⟩, ⟨.str, start, .scalar "user"⟩,
    ⟨.map, start, .mapping [(13, 4)]⟩, ⟨.merge, start, .scalar "<<"⟩]⟩

section Overriding

attribute [local instance] Host.plain

theorem overriding_keysApart : ∀ id, overriding.isMapped id = true → overriding.KeysApart id := by
  have hnodes : ∀ id < overriding.size,
      overriding.isMapped id = true → overriding.KeysApart id := by
    decide +kernel
  intro id hmapped
  refine hnodes id (Graph.lt_size_of_node_ne ?_) hmapped
  intro habsent
  simp [Graph.isMapped, Graph.tag, habsent, Node.absent] at hmapped

/-- The document of the graph. The mapping two levels down is filled last. -/
def overridingDocument : Document :=
  { root := .node 0
    collections :=
      [(0, .map [(.text "deep", .node 2), (.text "user", .node 12)]),
        (2, .map [(.text "inner", .node 4)]), (12, .map [(.text "x", .scalar (.text "2"))]),
        (4, .map [(.text "x", .scalar (.text "2"))])] }

theorem overriding_made : Document.ofGraph .lastWins overriding 0 = .ok overridingDocument := by
  rw [← Stepwise.toOption_eq_some_iff]
  decide +kernel

/-- The check finds a key repeated that is not repeated as written. -/
theorem overriding_refused : (∀ id, overriding.isMapped id = true → overriding.KeysApart id) ∧
    Document.ofGraph .lastWins overriding 0 = .ok overridingDocument ∧
    (∀ d, Document.ofGraph .refused overriding 0 ≠ .ok d) ∧
    ∃ before id now, TurnOf overriding (overridingDocument.collections.map (·.1)) before id now ∧
      (now.HasDefault id ∨
        (∃ a ∈ before, Relation.TransGen overriding.Merges a id) ∧ ¬now.KeysApart id) := by
  have hrefused (d : Document) : Document.ofGraph .refused overriding 0 ≠ .ok d := by
    have hnone : (Document.ofGraph .refused overriding 0).toOption = none := by
      decide +kernel
    rw [Ne, ← Stepwise.toOption_eq_some_iff, hnone]
    exact (Option.some_ne_none d).symm
  have hiff := (repeats_refused_iff overriding 0 overridingDocument overriding_keysApart
    overriding_made).1
  refine ⟨overriding_keysApart, overriding_made, hrefused, ?_⟩
  have hfails := hiff.not.mp (hrefused overridingDocument)
  simpa only [not_forall, not_and, exists_prop, or_iff_not_imp_left] using hfails

end Overriding

end VoiceIntents.Yaml
