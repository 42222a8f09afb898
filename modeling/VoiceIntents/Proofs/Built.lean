import Mathlib.Data.Finset.Card
import VoiceIntents.Context
import VoiceIntents.Proofs.Gathering
import VoiceIntents.Proofs.RepeatedKeys

/-!
# What is built

A collection is built when it is the root, or when filling another one reads it: as an entry of
a mapping, of its own or merged in, as an item of a sequence, or in a pair of a list of pairs.
A mapping that is only the source of a merge is not built, and neither is what stands under the
tag of a scalar. The collections of a document are those that are built, and the keys of a
built mapping are compared with each other as they are written. Nobody compares those of others.
-/

namespace VoiceIntents.Yaml

open Stepwise (bind_eq_ok_iff)

/-- Filling a collection reads a node. -/
inductive Graph.Reads (g : Graph) : NodeId → NodeId → Prop
  | entry {a : NodeId} {p : NodeId × NodeId} (ha : g.isMapped a = true) (hp : g.Gathers a p) :
      Reads g a p.2
  | item {a b : NodeId} {items : List NodeId} (ha : g.tag a = .seq)
      (hitems : (g.node a).content = .sequence items) (hb : b ∈ items) : Reads g a b
  | pair {a b i : NodeId} {items : List NodeId} {p : NodeId × NodeId}
      (ha : g.tag a = .omap ∨ g.tag a = .pairs)
      (hitems : (g.node a).content = .sequence items) (hi : i ∈ items) (hp : g.Gathers i p)
      (hb : b = p.1 ∨ b = p.2) : Reads g a b

/-- The collections that are read from the root, directly or through others. -/
inductive Graph.Built (g : Graph) (root : NodeId) : NodeId → Prop
  | root (h : Make.isCollection (g.tag root) = true) : Built g root root
  | read {a b : NodeId} (ha : Built g root a) (hab : g.Reads a b)
      (hb : Make.isCollection (g.tag b) = true) : Built g root b

namespace Graph
variable {g g' : Graph} {a b id root : NodeId} {items : List NodeId}

theorem Built.isCollection (h : g.Built root id) : Make.isCollection (g.tag id) = true := by
  cases h with
  | root h => exact h
  | read _ _ h => exact h

theorem tag_of_isMapped (h : g.isMapped a = true) : g.tag a = .map ∨ g.tag a = .set := by
  simpa [isMapped] using h

theorem reads_iff_of_isMapped (h : g.isMapped a = true) :
    g.Reads a b ↔ ∃ p, g.Gathers a p ∧ p.2 = b := by
  constructor
  · intro hread
    have htag := tag_of_isMapped h
    cases hread with
    | entry _ hp => exact ⟨_, hp, rfl⟩
    | item ha => simp [ha] at htag
    | pair ha => rcases ha with ha | ha <;> simp [ha] at htag
  · rintro ⟨p, hp, rfl⟩
    exact .entry h hp

theorem reads_iff_of_seq (h : g.tag a = .seq) (hitems : (g.node a).content = .sequence items) :
    g.Reads a b ↔ b ∈ items := by
  constructor
  · intro hread
    cases hread with
    | entry ha => simp [isMapped, h] at ha
    | item _ hitems' hb =>
        rw [hitems] at hitems'
        cases hitems'
        exact hb
    | pair ha => simp [h] at ha
  · exact .item h hitems

theorem reads_iff_of_pairs (h : g.tag a = .omap ∨ g.tag a = .pairs)
    (hitems : (g.node a).content = .sequence items) :
    g.Reads a b ↔ ∃ i ∈ items, ∃ p, g.Gathers i p ∧ (b = p.1 ∨ b = p.2) := by
  constructor
  · intro hread
    cases hread with
    | entry ha => rcases h with h | h <;> simp [isMapped, h] at ha
    | item ha => simp [ha] at h
    | pair _ hitems' hi hp hb =>
        rw [hitems] at hitems'
        cases hitems'
        exact ⟨_, hi, _, hp, hb⟩
  · rintro ⟨i, hi, p, hp, hb⟩
    exact .pair h hitems hi hp hb

namespace Rewrites

/-- A key `=` is the only node whose tag changes. -/
theorem tag_eq_iff (h : g.Rewrites g') {tag : Tag} (hvalue : tag ≠ .value) (hstr : tag ≠ .str) :
    g'.tag a = tag ↔ g.tag a = tag := by
  rcases h.tag_eq a with heq | ⟨hvalue', hstr'⟩
  · rw [heq]
  · rw [hvalue', hstr']
    exact ⟨fun h => absurd h.symm hstr, fun h => absurd h.symm hvalue⟩

theorem isCollection_eq (h : g.Rewrites g') (a : NodeId) :
    Make.isCollection (g'.tag a) = Make.isCollection (g.tag a) := by
  rcases h.tag_eq a with heq | ⟨hvalue, hstr⟩
  · rw [heq]
  · rw [hvalue, hstr]
    rfl

theorem isScalar_tag (h : g.Rewrites g') (ha : (g.tag a).isScalar = true) :
    (g'.tag a).isScalar = true := by
  rcases h.tag_eq a with heq | ⟨hvalue, _⟩
  · rw [heq]
    exact ha
  · simp [hvalue, Tag.isScalar] at ha

theorem sequence_iff (h : g.Rewrites g') :
    (g'.node a).content = .sequence items ↔ (g.node a).content = .sequence items := by
  rcases h.content_eq a with heq | ⟨⟨pairs, hpairs⟩, ⟨pairs', hpairs'⟩⟩
  · rw [heq]
  · simp [hpairs, hpairs']

end Rewrites

/-- Where mappings gather no more than before, collections read no more. -/
theorem Reads.of_gathers (h : g'.Reads a b) (hrewrites : g.Rewrites g')
    (hgathers : ∀ x p, g'.Gathers x p → g.Gathers x p) : g.Reads a b := by
  have htag (tag : Tag) (hvalue : tag ≠ .value) (hstr : tag ≠ .str) :=
    hrewrites.tag_eq_iff (a := a) hvalue hstr
  cases h with
  | entry ha hp => exact .entry (hrewrites.isMapped_eq a ▸ ha) (hgathers _ _ hp)
  | item ha hitems hb =>
      exact .item ((htag .seq (by decide) (by decide)).mp ha) (hrewrites.sequence_iff.mp hitems) hb
  | pair ha hitems hi hp hb =>
      rw [htag .omap (by decide) (by decide), htag .pairs (by decide) (by decide)] at ha
      exact .pair ha (hrewrites.sequence_iff.mp hitems) hi (hgathers _ _ hp) hb

/-- Where some pairs are gathered no more, what collections read is still read or in one of
these. -/
theorem Reads.of_lost {Lost : NodeId × NodeId → Prop} (h : g.Reads a b)
    (hrewrites : g.Rewrites g') (hlost : ∀ x p, g.Gathers x p → g'.Gathers x p ∨ Lost p) :
    g'.Reads a b ∨ ∃ p, Lost p ∧ (b = p.1 ∨ b = p.2) := by
  have htag (tag : Tag) (hvalue : tag ≠ .value) (hstr : tag ≠ .str) :=
    hrewrites.tag_eq_iff (a := a) hvalue hstr
  cases h with
  | entry ha hp =>
      rcases hlost _ _ hp with hp | hp
      · exact .inl (.entry ((hrewrites.isMapped_eq a).trans ha) hp)
      · exact .inr ⟨_, hp, .inr rfl⟩
  | item ha hitems hb =>
      exact .inl (.item ((htag .seq (by decide) (by decide)).mpr ha)
        (hrewrites.sequence_iff.mpr hitems) hb)
  | pair ha hitems hi hp hb =>
      rw [← htag .omap (by decide) (by decide), ← htag .pairs (by decide) (by decide)] at ha
      rcases hlost _ _ hp with hp | hp
      · exact .inl (.pair ha (hrewrites.sequence_iff.mpr hitems) hi hp hb)
      · exact .inr ⟨_, hp, hb⟩

end Graph

namespace Making

/-- Defaults are remembered of nodes under the tags of scalars. -/
def Tagged (s : Making) : Prop := ∀ e ∈ s.defaults, (s.graph.tag e.1).isScalar = true

/-- Nodes have been read: the collections among them are met, and nothing else is. -/
structure Meeting (read : NodeId → Prop) (s s' : Making) : Prop where
  graph_eq : s'.graph = s.graph
  met_iff : ∀ b, b ∈ s'.met ↔ b ∈ s.met ∨ (read b ∧ Make.isCollection (s.graph.tag b) = true)
  defaults_tagged : ∀ e ∈ s'.defaults, e ∈ s.defaults ∨ (s.graph.tag e.1).isScalar = true

namespace Meeting
variable {read read' : NodeId → Prop} {s s' s'' : Making}

theorem refl (s : Making) : Meeting (fun _ => False) s s :=
  ⟨rfl, by simp, fun _ => .inl⟩

theorem trans (h : Meeting read s s') (h' : Meeting read' s' s'') :
    Meeting (fun b => read b ∨ read' b) s s'' where
  graph_eq := h'.graph_eq.trans h.graph_eq
  met_iff b := by
    rw [h'.met_iff, h.met_iff, h.graph_eq]
    tauto
  defaults_tagged e he := by
    rcases h'.defaults_tagged e he with hold | hnew
    · exact h.defaults_tagged e hold
    · rw [h.graph_eq] at hnew
      exact .inr hnew

theorem congr (h : Meeting read s s')
    (hread : ∀ b, Make.isCollection (s.graph.tag b) = true → (read b ↔ read' b)) :
    Meeting read' s s' := by
  refine ⟨h.graph_eq, ?_, h.defaults_tagged⟩
  intro b
  rw [h.met_iff, and_congr_left (hread b)]

theorem tagged (h : Meeting read s s') (hs : s.Tagged) : s'.Tagged := by
  intro e he
  rw [h.graph_eq]
  rcases h.defaults_tagged e he with hold | hnew
  · exact hs e hold
  · exact hnew

end Meeting

end Making

namespace Make

open Making (Meeting)

section Steps
variable [Host] {s s' : Making} {id : NodeId}

/-- A node under the tag of a scalar meets nothing. -/
theorem scalarKey_meeting (hs : s.Tagged) {key : Key}
    (h : (scalarKey id).run s = .ok (key, s')) :
    Meeting (fun _ => False) s s' ∧ (s.graph.tag id).isScalar = true := by
  rw [scalarKey_run] at h
  split at h
  · next hfound =>
      cases h
      obtain ⟨before, after, hdefaults, _⟩ := List.lookup_eq_some_iff.mp hfound
      have hmem : (id, key) ∈ s.defaults := by simp [hdefaults]
      exact ⟨.refl s, hs _ hmem⟩
  · obtain ⟨fresh, hfresh, hend⟩ := bind_eq_ok_iff.mp h
    cases hend
    have htag := tag_isScalar_of_freshKey hfresh
    refine ⟨?_, htag⟩
    unfold Making.remember
    split
    · exact .refl s
    · refine ⟨rfl, by simp, ?_⟩
      intro e he
      rcases List.mem_cons.mp he with rfl | hold
      · exact .inr htag
      · exact .inl hold

omit [Host] in
theorem meet_meeting (h : isCollection (s.graph.tag id) = true) :
    Meeting (· = id) s (s.meet id) := by
  unfold Making.meet
  split
  · next hmet =>
      rw [List.contains_iff_mem] at hmet
      refine ⟨rfl, ?_, fun _ => .inl⟩
      intro b
      constructor
      · exact .inl
      · rintro (hb | ⟨rfl, _⟩)
        · exact hb
        · exact hmet
  · refine ⟨rfl, ?_, fun _ => .inl⟩
    intro b
    rw [List.mem_cons, or_comm]
    constructor
    · rintro (hb | rfl)
      · exact .inl hb
      · exact .inr ⟨rfl, h⟩
    · exact Or.imp_right And.left

theorem item_meeting (hs : s.Tagged) {result : Item} (h : (item id).run s = .ok (result, s')) :
    Meeting (· = id) s s' ∧ s.graph.tag id ≠ .merge := by
  rw [item_run] at h
  split at h
  · next hcollection =>
      cases h
      refine ⟨meet_meeting hcollection, ?_⟩
      intro hmerge
      simp [hmerge, isCollection] at hcollection
  · next hcollection =>
      obtain ⟨⟨key, between⟩, hkey, hend⟩ := bind_eq_ok_iff.mp h
      cases hend
      obtain ⟨hmeeting, htag⟩ := scalarKey_meeting hs hkey
      refine ⟨hmeeting.congr ?_, ?_⟩
      · rintro b hb
        refine ⟨False.elim, ?_⟩
        rintro rfl
        exact hcollection hb
      · intro hmerge
        simp [hmerge, Tag.isScalar] at htag

/-- A key that is no collection meets nothing. -/
theorem key?_meeting (hs : s.Tagged) {key : Key} (h : (key? id).run s = .ok (some key, s')) :
    Meeting (fun _ => False) s s' ∧ isCollection (s.graph.tag id) = false := by
  rw [key?_run] at h
  split at h
  · cases h
  · next hcollection =>
      obtain ⟨⟨key, between⟩, hkey, hend⟩ := bind_eq_ok_iff.mp h
      cases hend
      exact ⟨(scalarKey_meeting hs hkey).1, Bool.not_eq_true _ ▸ hcollection⟩

/-- The entries of a mapping are read, and no key is a collection. -/
theorem entries_meeting (hs : s.Tagged) {made made' : List (Key × Item)}
    {pairs : List (NodeId × NodeId)} (h : (entries made pairs).run s = .ok (made', s')) :
    Meeting (fun b => ∃ p ∈ pairs, p.2 = b) s s' ∧
      ∀ p ∈ pairs, isCollection (s.graph.tag p.1) = false := by
  induction pairs generalizing made s with
  | nil =>
      obtain ⟨_, rfl⟩ := pure_run_eq_ok_iff.mp h
      exact ⟨(Meeting.refl s).congr (by simp), by simp⟩
  | cons pair rest ih =>
      obtain ⟨key, first, hkey, h⟩ := bind_run_eq_ok_iff.mp h
      cases key with
      | none => cases h
      | some key =>
          obtain ⟨result, second, hitem, h⟩ := bind_run_eq_ok_iff.mp h
          obtain ⟨hfirst, hplain⟩ := key?_meeting hs hkey
          have hsecond := (item_meeting (hfirst.tagged hs) hitem).1
          have hboth := hfirst.trans hsecond
          obtain ⟨hrest, hplains⟩ := ih (hboth.tagged hs) h
          rw [hboth.graph_eq] at hplains
          refine ⟨(hboth.trans hrest).congr ?_, List.forall_mem_cons.mpr ⟨hplain, hplains⟩⟩
          intro b _
          simp [eq_comm]

omit [Host] in
/-- Items that are read one after another. What each of them reads depends on the graph. -/
theorem mapM_meeting {α β : Type} {f : α → Make β} (read : Graph → α → NodeId → Prop)
    (hf : ∀ ⦃s a b s'⦄, s.Tagged → (f a).run s = .ok (b, s') → Meeting (read s.graph a) s s')
    {items : List α} {results : List β} (hs : s.Tagged)
    (h : (items.mapM f).run s = .ok (results, s')) :
    Meeting (fun b => ∃ a ∈ items, read s.graph a b) s s' := by
  induction items generalizing results s with
  | nil =>
      rw [List.mapM_nil] at h
      obtain ⟨_, rfl⟩ := pure_run_eq_ok_iff.mp h
      exact (Meeting.refl s).congr (by simp)
  | cons a rest ih =>
      rw [List.mapM_cons] at h
      obtain ⟨b, first, hfirst, h⟩ := bind_run_eq_ok_iff.mp h
      obtain ⟨bs, second, hsecond, h⟩ := bind_run_eq_ok_iff.mp h
      obtain ⟨_, rfl⟩ := pure_run_eq_ok_iff.mp h
      have hmeeting := hf hs hfirst
      have hrest := ih (hmeeting.tagged hs) hsecond
      rw [hmeeting.graph_eq] at hrest
      apply (hmeeting.trans hrest).congr
      intro b _
      simp

/-- A list of pairs reads both nodes of a pair that stands alone in its mapping. -/
theorem singlePair_meeting (hs : s.Tagged) {result : Item × Item}
    (h : (singlePair id).run s = .ok (result, s')) :
    Meeting (fun b => ∃ p, s.graph.Gathers id p ∧ (b = p.1 ∨ b = p.2)) s s' := by
  unfold singlePair at h
  rw [get_bind_run] at h
  split at h
  · next first second hcontent =>
      obtain ⟨_, between, hfirst, h⟩ := bind_run_eq_ok_iff.mp h
      obtain ⟨_, after, hsecond, h⟩ := bind_run_eq_ok_iff.mp h
      obtain ⟨_, rfl⟩ := pure_run_eq_ok_iff.mp h
      obtain ⟨hmeeting, hplain⟩ := item_meeting hs hfirst
      obtain ⟨hmeeting', _⟩ := item_meeting (hmeeting.tagged hs) hsecond
      have hpairs : s.graph.pairs id = [(first, second)] := by
        rw [Graph.pairs, hcontent, Content.pairs]
      have hall : ∀ p ∈ s.graph.pairs id, s.graph.isPlain p = true := by
        simpa [hpairs, Graph.isPlain] using hplain
      apply (hmeeting.trans hmeeting').congr
      intro b _
      simp [Graph.gathers_iff_of_plain hall, hpairs]
  · cases h

end Steps

end Make

/-- The graph before and after a collection has been filled: mappings gather nothing new, and
what they gather no more has been read. -/
structure Graph.Turned (id : NodeId) (g g' : Graph) : Prop extends g.Keeps g' where
  gathers : ∀ x p, g'.Gathers x p → g.Gathers x p
  lost : ∀ x p, g.Gathers x p →
    g'.Gathers x p ∨ (g.Reads id p.2 ∧ Make.isCollection (g.tag p.1) = false)

theorem Graph.turned_refl (id : NodeId) (g : Graph) : Graph.Turned id g g :=
  ⟨.refl g, fun _ _ h => h, fun _ _ => .inl⟩

namespace Make

open Making (Meeting)

section Fill
variable [Host] {repeats : RepeatedKeys} {s s' : Making} {id : NodeId} {c : Collection}

/-- A mapping reads the entries that it gathers. -/
theorem mapping_meeting (hs : s.Tagged) (hmapped : s.graph.isMapped id = true)
    {made : List (Key × Item)} (h : (mapping repeats id).run s = .ok (made, s')) :
    ∃ g, s.graph.mergeKeys id = .ok g ∧ Graph.Turned id s.graph g ∧
      Meeting (s.graph.Reads id) { s with graph := g } s' := by
  have hplain : (mapping .lastWins id).run s = .ok (made, s') := by
    cases repeats with
    | refused => exact (mapping_refused_eq_ok_iff.mp h).2
    | lastWins => exact h
  obtain ⟨pairs, g, hcontent, hmerge, hentries⟩ := mapping_lastWins_eq_ok_iff.mp hplain
  have hmerged := Graph.mergeKeys_merged hmerge ⟨pairs, hcontent⟩
  have hmem (p : NodeId × NodeId) : p ∈ g.pairs id ↔ s.graph.Gathers id p := by
    simpa using hmerged.mem_iff p
  have htagged : ({ s with graph := g } : Making).Tagged :=
    fun e he => hmerged.isScalar_tag (hs e he)
  obtain ⟨hmeeting, hkeys⟩ := entries_meeting htagged hentries
  have hwithin := Graph.mergeKeys_within (fun _ _ _ => Relation.TransGen.trans) hmerge
    fun _ _ => Relation.TransGen.single
  refine ⟨g, hmerge, ⟨hmerged.toKeeps, ?_, ?_⟩, hmeeting.congr ?_⟩
  · intro x p hgathers
    rcases hmerged.gathers x p hgathers with hgathers | ⟨_, hnone⟩
    · exact hgathers
    · cases hnone
  · intro x p hgathers
    rcases hgathers.of_frame hwithin.rewrites hwithin.frame with hkept | ⟨t, ht, hgathers⟩
    · exact .inl hkept
    · have hid : s.graph.Gathers id p := by
        rcases ht with rfl | ht
        · exact hgathers
        · exact hgathers.chain ht.to_reflTransGen
      refine .inr ⟨.entry hmapped hid, ?_⟩
      rw [← hmerged.isCollection_eq]
      exact hkeys p ((hmem p).mpr hid)
  · intro b _
    rw [Graph.reads_iff_of_isMapped hmapped]
    simp only [hmem]

/-- Filling a collection reads what the graph says. -/
theorem fill_meeting (hs : s.Tagged) (hid : isCollection (s.graph.tag id) = true)
    (h : (fill repeats id).run s = .ok (c, s')) :
    ∃ g, Graph.Turned id s.graph g ∧ Meeting (s.graph.Reads id) { s with graph := g } s' := by
  cases hmapped : s.graph.isMapped id with
  | true =>
      rw [fill_run_of_isMapped hmapped] at h
      obtain ⟨⟨made, between⟩, hmade, hend⟩ := bind_eq_ok_iff.mp h
      cases hend
      obtain ⟨g, _, hturned, hmeeting⟩ := mapping_meeting hs hmapped hmade
      exact ⟨g, hturned, hmeeting⟩
  | false =>
      refine ⟨s.graph, Graph.turned_refl id s.graph, ?_⟩
      change Meeting _ s s'
      rw [fill, get_bind_run] at h
      split at h
      · next htag => simp [Graph.isMapped, htag] at hmapped
      · next htag => simp [Graph.isMapped, htag] at hmapped
      · next htag =>
          obtain ⟨results, between, hsequence, hend⟩ := bind_run_eq_ok_iff.mp h
          obtain ⟨_, rfl⟩ := pure_run_eq_ok_iff.mp hend
          unfold sequence at hsequence
          rw [get_bind_run] at hsequence
          split at hsequence
          · next items hitems =>
              have hread := mapM_meeting (fun _ a b => b = a)
                (fun _ _ _ _ hs h => (item_meeting hs h).1) hs hsequence
              apply hread.congr
              intro b _
              rw [Graph.reads_iff_of_seq htag hitems]
              simp
          · cases hsequence
      · next hmap hset hseq =>
          have htag : s.graph.tag id = .omap ∨ s.graph.tag id = .pairs := by
            generalize s.graph.tag id = tag at *
            cases tag <;> simp_all [isCollection]
          rw [get_bind_run] at h
          split at h
          · next items hitems =>
              obtain ⟨results, between, hpairs, hend⟩ := bind_run_eq_ok_iff.mp h
              obtain ⟨_, rfl⟩ := pure_run_eq_ok_iff.mp hend
              have hread := mapM_meeting
                (fun g i b => ∃ p, g.Gathers i p ∧ (b = p.1 ∨ b = p.2))
                (fun _ _ _ _ hs h => singlePair_meeting hs h) hs hpairs
              apply hread.congr
              intro b _
              rw [Graph.reads_iff_of_pairs htag hitems]
          · cases h

end Fill

end Make

/-- What holds on the way of making a document: what was met is built, and what the filled
collections read was met. Pairs that mappings have ceased to gather were read before. -/
structure Making.Following (g : Graph) (root : NodeId) (s : Making) : Prop where
  keeps : g.Keeps s.graph
  gathers : ∀ x p, s.graph.Gathers x p → g.Gathers x p
  lost : ∀ x p, g.Gathers x p → s.graph.Gathers x p ∨
    ∀ b, b = p.1 ∨ b = p.2 → Make.isCollection (g.tag b) = true → b ∈ s.met
  root_met : Make.isCollection (g.tag root) = true → root ∈ s.met
  built : ∀ b ∈ s.met, g.Built root b
  read : ∀ a ∈ s.filled.map (·.1), ∀ b, g.Reads a b →
    Make.isCollection (g.tag b) = true → b ∈ s.met
  scheduled : ∀ b, b ∈ s.met ↔ b ∈ s.filled.map (·.1) ∨ b ∈ s.waiting
  tagged : s.Tagged

section Run
variable [Host] {repeats : RepeatedKeys} {g : Graph} {root id : NodeId} {s s' : Making} {fuel : Nat}

theorem Make.Turn.following (hs : s.Following g root) (h : Make.Turn repeats id s s') :
    s'.Following g root := by
  obtain ⟨rest, c, between, hwaiting, hfill, rfl⟩ := h
  have hmet : id ∈ s.met := (hs.scheduled id).mpr (.inr (by simp [hwaiting]))
  have hbuilt := hs.built id hmet
  have hid : Make.isCollection (s.graph.tag id) = true :=
    (hs.keeps.isCollection_eq id).trans hbuilt.isCollection
  obtain ⟨g₁, hturned, hmeeting⟩ :=
    Make.fill_meeting (s := { s with waiting := rest }) hs.tagged hid hfill
  obtain ⟨_, _, hextends, _⟩ := Make.fill_spec hfill
  have hgraph : between.graph = g₁ := hmeeting.graph_eq
  have hmono : ∀ b ∈ s.met, b ∈ between.met := fun b hb => (hmeeting.met_iff b).mpr (.inl hb)
  have hnew (b : NodeId) (hb : s.graph.Reads id b)
      (hcollection : Make.isCollection (g.tag b) = true) : b ∈ between.met := by
    refine (hmeeting.met_iff b).mpr (.inr ⟨hb, ?_⟩)
    rw [hturned.isCollection_eq, hs.keeps.isCollection_eq]
    exact hcollection
  have hkeeps := hs.keeps.trans hturned.toKeeps
  refine ⟨?_, ?_, ?_, fun hroot => hmono root (hs.root_met hroot), ?_, ?_, ?_, ?_⟩
  · exact hgraph ▸ hkeeps
  · intro x p hgathers
    rw [hgraph] at hgathers
    exact hs.gathers x p (hturned.gathers x p hgathers)
  · intro x p hgathers
    dsimp only
    rw [hgraph]
    rcases hs.lost x p hgathers with hgathers | hread
    · rcases hturned.lost x p hgathers with hgathers | ⟨hread, hkey⟩
      · exact .inl hgathers
      · right
        rintro b (rfl | rfl) hb
        · rw [hs.keeps.isCollection_eq, hb] at hkey
          cases hkey
        · exact hnew _ hread hb
    · exact .inr fun b hb hcollection => hmono b (hread b hb hcollection)
  · intro b hb
    rcases (hmeeting.met_iff b).mp hb with hb | ⟨hread, hcollection⟩
    · exact hs.built b hb
    · refine .read hbuilt (hread.of_gathers hs.keeps.toRewrites hs.gathers) ?_
      rw [← hkeeps.isCollection_eq]
      exact hcollection
  · intro a ha b hab hb
    dsimp only at ha
    rw [hextends.filled_eq, List.map_append, List.mem_append] at ha
    rcases ha with ha | ha
    · exact hmono b (hs.read a ha b hab hb)
    · obtain rfl : a = id := by simpa using ha
      rcases hab.of_lost hs.keeps.toRewrites hs.lost with hread | ⟨p, hread, hbp⟩
      · exact hnew b hread hb
      · exact hmono b (hread b hbp hb)
  · intro b
    obtain ⟨new, hnewWaiting, hnewMet, _⟩ := hextends.waiting_new
    dsimp only at hnewWaiting hnewMet ⊢
    rw [hextends.filled_eq, hnewWaiting, hnewMet, List.mem_append, List.mem_reverse,
      hs.scheduled, hwaiting]
    simp only [List.map_append, List.map_cons, List.map_nil, List.mem_append, List.mem_cons,
      List.not_mem_nil, or_false]
    tauto
  · exact hmeeting.tagged fun e he => hturned.isScalar_tag (hs.tagged e he)

/-- A run goes on until nothing waits, unless its rounds are spent. -/
theorem Make.waiting_eq_nil_or (h : (Make.fillAll repeats fuel).run s = .ok ((), s')) :
    s'.waiting = [] ∨ s'.filled.length = s.filled.length + fuel := by
  induction fuel generalizing s with
  | zero =>
      obtain ⟨_, rfl⟩ := Make.pure_run_eq_ok_iff.mp h
      exact .inr rfl
  | succ fuel ih =>
      rcases Make.fillAll_succ_eq_ok_iff.mp h with ⟨hwaiting, rfl⟩ | ⟨id, between, hturn, hrest⟩
      · exact .inl hwaiting
      · obtain ⟨c, hfilled, _⟩ := hturn.spec
        refine (ih hrest).imp_right ?_
        intro hlength
        rw [hfilled, List.length_append] at hlength
        simp only [List.length_cons, List.length_nil] at hlength
        omega

omit [Host] in
theorem Graph.Built.lt_size (h : g.Built root id) : id < g.size := by
  apply Graph.lt_size_of_node_ne
  intro habsent
  have hcollection := h.isCollection
  rw [Graph.tag, habsent] at hcollection
  cases hcollection

omit [Host] in
theorem length_le_of_nodup {ids : List Nat} {n : Nat} (hnodup : ids.Nodup)
    (hids : ∀ id ∈ ids, id < n) : ids.length ≤ n := by
  have hsubset : ids.toFinset ⊆ Finset.range n := by
    intro id hid
    exact Finset.mem_range.mpr (hids id (List.mem_toFinset.mp hid))
  calc
    ids.length = ids.toFinset.card := (List.toFinset_card_of_nodup hnodup).symm
    _ ≤ (Finset.range n).card := Finset.card_le_card hsubset
    _ = n := Finset.card_range n

/-- A run with more turns than there are nodes ends when nothing waits. -/
theorem Make.waiting_eq_nil {size : Nat}
    (h : (Make.fillAll repeats (size + 1)).run s = .ok ((), s')) (hnone : s.filled = [])
    (honce : (s'.filled.map (·.1)).Nodup) (hnodes : ∀ b ∈ s'.filled.map (·.1), b < size) :
    s'.waiting = [] := by
  refine (Make.waiting_eq_nil_or h).resolve_right ?_
  intro hlength
  have hbound := length_le_of_nodup honce hnodes
  rw [List.length_map, hlength, hnone, List.length_nil] at hbound
  omega

/-- Reading the root meets it if it is a collection. -/
theorem following_of_item {item : Item}
    (h : (Make.item root).run ⟨g, [], [], [], []⟩ = .ok (item, s)) :
    s.Following g root ∧ s.Reached g ∧ s.filled = [] := by
  have htagged : (⟨g, [], [], [], []⟩ : Making).Tagged := by simp [Making.Tagged]
  have hmeeting := (Make.item_meeting htagged h).1
  have hextends := Make.steady_item root h
  refine ⟨⟨?_, ?_, ?_, ?_, ?_, ?_, ?_, hmeeting.tagged htagged⟩, ⟨?_, ?_⟩, hextends.filled_eq⟩
  · rw [hmeeting.graph_eq]
    exact .refl g
  · rw [hmeeting.graph_eq]
    exact fun _ _ h => h
  · rw [hmeeting.graph_eq]
    exact fun _ _ => .inl
  · exact fun hroot => (hmeeting.met_iff root).mpr (.inr ⟨rfl, hroot⟩)
  · intro b hb
    rcases (hmeeting.met_iff b).mp hb with hnone | ⟨rfl, hroot⟩
    · cases hnone
    · exact .root hroot
  · rw [hextends.filled_eq]
    simp
  · obtain ⟨new, hwaiting, hmet, _⟩ := hextends.waiting_new
    rw [hextends.filled_eq, hwaiting, hmet]
    simp
  · rw [hextends.filled_eq, hextends.graph_eq]
    rfl
  · exact hextends.defaultsSound (by simp [Making.DefaultsSound])

/-- The collections of a document are those that are built. -/
theorem Document.mem_nodes_iff_built {d : Document} (h : Document.ofGraph repeats g root = .ok d) :
    id ∈ d.collections.map (·.1) ↔ g.Built root id := by
  have honce := Document.nodes_nodup h
  obtain ⟨item, s, s', hitem, hfill, rfl⟩ := Document.ofGraph_eq_ok_iff.mp h
  obtain ⟨hstart, _, hnone⟩ := following_of_item hitem
  have hend := Make.fillAll_induction (P := fun s => s.Following g root)
    (fun _ _ _ hs hturn => hturn.following hs) hstart hfill
  have hdone : s'.waiting = [] := by
    apply Make.waiting_eq_nil hfill hnone honce
    intro b hb
    exact (hend.built b ((hend.scheduled b).mpr (.inl hb))).lt_size
  have hmet (b : NodeId) : b ∈ s'.filled.map (·.1) ↔ b ∈ s'.met := by
    rw [hend.scheduled, hdone]
    simp
  constructor
  · intro hid
    exact hend.built id ((hmet id).mp hid)
  · intro hbuilt
    induction hbuilt with
    | root hroot => exact (hmet root).mpr (hend.root_met hroot)
    | read _ hab hb ih => exact (hmet _).mpr (hend.read _ ih _ hab hb)

end Run

section Checked
variable [Host] {g g' : Graph} {root id : NodeId}

/-- A rewriting that keeps a mapping's own pairs repeats the keys that were repeated before. -/
theorem Graph.Keeps.keysApart (h : g.Keeps g') (hapart : g'.KeysApart id) : g.KeysApart id := by
  have hplain : (g.pairs id).filterMap (fun p => g.keyOf? p.1) =
      ((g.pairs id).filter g.isPlain).filterMap fun p => g.keyOf? p.1 := by
    rw [List.filterMap_filter]
    congr 1
    funext p
    by_cases hmerge : g.tag p.1 = .merge <;>
      simp [Graph.isPlain, Graph.keyOf?, Graph.isChecked, hmerge]
  have hkeys : (g.keysOf id).Sublist (g'.keysOf id) := by
    rw [Graph.keysOf, Graph.keysOf, hplain]
    simp only [h.keyOf?_eq]
    exact (h.plain_kept id).filterMap _
  exact hapart.sublist hkeys

/-- A document without repeats has no built mapping that repeats a key as it is written. -/
theorem Document.keysApart_of_built {d : Document}
    (h : Document.ofGraph .refused g root = .ok d) (hbuilt : g.Built root id)
    (hmapped : g.isMapped id = true) : g.KeysApart id := by
  have hmem := (Document.mem_nodes_iff_built h).mpr hbuilt
  obtain ⟨item, s, s', hitem, hfill, rfl⟩ := Document.ofGraph_eq_ok_iff.mp h
  obtain ⟨hstart, hreached, hnone⟩ := following_of_item hitem
  have hend := Make.fillAll_induction (P := fun s => s.Following g root ∧ s.Reached g ∧
    ∀ a ∈ s.filled.map (·.1), g.isMapped a = true → g.KeysApart a) ?_
    ⟨hstart, hreached, by simp [hnone]⟩ hfill
  · exact hend.2.2 id hmem hmapped
  · rintro a before after ⟨hfollowing, hreached, hchecked⟩ hturn
    refine ⟨hturn.following hfollowing, hturn.reached hreached, ?_⟩
    obtain ⟨c, hfilled, _⟩ := hturn.spec
    obtain ⟨hpasses, _⟩ := (turn_refused_iff hreached.defaults).mp hturn
    intro b hb hmapped
    rw [hfilled, List.map_append, List.mem_append] at hb
    rcases hb with hb | hb
    · exact hchecked b hb hmapped
    · obtain rfl : b = a := by simpa using hb
      have hnow := hpasses ((hfollowing.keeps.isMapped_eq b).trans hmapped)
      exact hfollowing.keeps.keysApart hnow.2

end Checked

/-- The keys of every mapping that is built are compared as they are written, wherever it
stands: a document that is made has none that repeats a key, and the text of one that has is
reported as illegal, unless a scalar met before has no value. The collections of a document are
exactly those that are built; a mapping that is only merged into others is not among them. -/
theorem built_keys_compared [Host] (g : Graph) (root : NodeId) :
    (∀ d, Document.ofGraph .refused g root = .ok d → ∀ id,
      (id ∈ d.collections.map (·.1) ↔ g.Built root id) ∧
        (g.Built root id → g.isMapped id = true → g.KeysApart id)) ∧
    ∀ source text id, Graph.ofText ImplicitRule.literal text = .ok (g, some root) →
      g.Built root id → g.isMapped id = true → ¬g.KeysApart id →
      (∃ detail, Context.load source text =
        .error (.document (.illegal detail) (Grammar.inSource source))) ∨
      ∃ cause, Context.load source text = .error (.unreadable cause) := by
  constructor
  · intro d h id
    exact ⟨Document.mem_nodes_iff_built h, Document.keysApart_of_built h⟩
  · intro source text id hgraph hbuilt hmapped hrepeats
    cases hmade : Document.ofGraph .refused g root with
    | ok d => exact absurd (Document.keysApart_of_built hmade hbuilt hmapped) hrepeats
    | error e =>
        have hread : readDocument ImplicitRule.literal .refused text = .error e := by
          rw [readDocument, hgraph]
          change (Document.ofGraph .refused g root >>= fun d => pure (some d)) = _
          rw [hmade]
          rfl
        unfold Context.load
        rw [hread]
        cases e with
        | malformed cause mark => exact .inl ⟨_, rfl⟩
        | repeatedKey mapping key shown => exact .inl ⟨_, rfl⟩
        | unreadable cause => exact .inr ⟨cause, rfl⟩

/-- A mapping with a merge key for another one, which is written in its place and repeats a key. -/
def mergedRepeat : Graph :=
  let start : Mark := ⟨0, 0, 0⟩
  ⟨#[⟨.map, start, .mapping [(1, 2)]⟩, ⟨.merge, start, .scalar "<<"⟩,
    ⟨.map, start, .mapping [(3, 4), (5, 6)]⟩, ⟨.str, start, .scalar "x"⟩,
    ⟨.str, start, .scalar "1"⟩, ⟨.str, start, .scalar "x"⟩, ⟨.str, start, .scalar "2"⟩]⟩

section MergedRepeat

attribute [local instance] Host.plain

/-- The mapping that is merged repeats a key, and the document is made all the same: it is not
built, so nobody compares its keys, and the last entry is kept. -/
theorem mergedRepeat_kept :
    Document.ofGraph .refused mergedRepeat 0 =
      .ok ⟨.node 0, [(0, .map [(.text "x", .scalar (.text "2"))])]⟩ ∧
    mergedRepeat.Merges 0 2 ∧ mergedRepeat.isMapped 2 = true ∧ ¬mergedRepeat.KeysApart 2 ∧
    ¬mergedRepeat.Built 0 2 := by
  have hmade : Document.ofGraph .refused mergedRepeat 0 =
      .ok ⟨.node 0, [(0, .map [(.text "x", .scalar (.text "2"))])]⟩ := by
    rw [← Stepwise.toOption_eq_some_iff]
    decide +kernel
  have hrepeats : ¬mergedRepeat.KeysApart 2 := by decide +kernel
  refine ⟨hmade, ⟨(1, 2), by decide, by decide⟩, by decide, hrepeats, ?_⟩
  intro hbuilt
  exact hrepeats (((built_keys_compared mergedRepeat 0).1 _ hmade 2).2 hbuilt (by decide))

end MergedRepeat

end VoiceIntents.Yaml
