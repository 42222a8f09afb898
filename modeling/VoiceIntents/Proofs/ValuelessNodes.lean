import Mathlib.Data.List.Chain
import VoiceIntents.Proofs.Contents
import VoiceIntents.Proofs.Nesting
import VoiceIntents.Proofs.Textless
import VoiceIntents.Proofs.ValuelessScalars
import VoiceIntents.Proofs.ValuelessTexts

/-!
# Nodes without a value

Making a document can fail for a reason that is no fault of its form. What is wrong then is found
in the graph as it was written: a scalar that its tag refuses, a mapping under the tag of a
timestamp, text or a sequence under the tag of a mapping, a key under the tag of a collection, a
repeated key that cannot be shown, mappings that stand for each other for too long, or merge keys
that lead through too many mappings.
-/

namespace VoiceIntents.Yaml

open Relation (ReflTransGen TransGen)
open Stepwise (bind_eq_ok_iff bind_eq_error_iff)

namespace Graph

/-- A mapping stands for the entry of a key `=` of its own, or of one that is merged into it. -/
def Defaults (g : Graph) (a b : NodeId) : Prop := ∃ key, g.Gathers a (key, b) ∧ g.tag key = .value

/-- The text that a node has, or stands for through other nodes. -/
def StandsFor (g : Graph) (id : NodeId) (text : String) : Prop :=
  ∃ last, ReflTransGen g.Defaults id last ∧ (g.node last).content = .scalar text

/-- What a graph holds that has no value, with the reason that is given for it. -/
inductive Defect [Host] (g : Graph) : Unreadable → Prop
  | scalar {id : NodeId} {text : String} {cause : Unreadable} (htext : g.StandsFor id text)
      (h : (g.tag id).Refuses text.toList cause) : Defect g cause
  | timestamp {id : NodeId} (htag : g.tag id = .timestamp) (h : g.IsMapping id) :
      Defect g .timestampOfMapping
  | defaults {path : List NodeId} (hpath : path.IsChain g.Defaults)
      (hlength : path.length = Host.defaultRoom + 2) : Defect g .endlessDefault
  | mappedText {id : NodeId} {text : String} (htag : g.isMapped id = true)
      (hcontent : (g.node id).content = .scalar text) (h : text ≠ "") : Defect g .mappingOfText
  | mappedSequence {id : NodeId} {items : List NodeId} (htag : g.isMapped id = true)
      (hcontent : (g.node id).content = .sequence items) (h : items ≠ []) :
      Defect g .mappingOfSequence
  | key {id : NodeId} {p : NodeId × NodeId} (hp : g.Gathers id p)
      (hscalar : (g.node p.1).content.isScalar = true) (h : Make.isCollection (g.tag p.1) = true) :
      Defect g .collectionAsKey
  | repeated {id : NodeId} {p q : NodeId × NodeId} {n : Int} {s : Scalar} (hp : g.Gathers id p)
      (hq : g.Gathers id q) (hs : g.GivesScalar p.1 s) (hn : g.GivesScalar q.1 (.int n))
      (hsame : (Scalar.int n).same s = true) (h : TooLong n) : Defect g .tooManyDigits
  | merges {path : List NodeId} (hpath : path.IsChain (TransGen g.Merges))
      (hlength : path.length = Host.mergeRoom + 2) (hcount : Host.mergeRoom < g.mergeCount) :
      Defect g .tooDeep

section Merging
variable {R : NodeId → NodeId → Prop} {limit fuel : Nat}

/-- A path of so many steps leads from a mapping, and there are as many merge keys. -/
def DeepAt (R : NodeId → NodeId → Prop) (g : Graph) (room : Nat) (id : NodeId) : Prop :=
  room ≤ g.mergeCount ∧ ∃ path : List NodeId, path.length = room ∧ (id :: path).IsChain R

theorem DeepAt.zero (g : Graph) (id : NodeId) : DeepAt R g 0 id :=
  ⟨Nat.zero_le _, [], rfl, List.isChain_singleton id⟩

theorem DeepAt.mono {g g' : Graph} {room : Nat} {id : NodeId} (h : DeepAt R g' room id)
    (hcount : g'.mergeCount ≤ g.mergeCount) : DeepAt R g room id :=
  ⟨h.1.trans hcount, h.2⟩

/-- One more merge key makes the path longer. -/
theorem DeepAt.step {g g' : Graph} {room : Nat} {id inner : NodeId} (h : DeepAt R g' room inner)
    (hstep : R id inner) (hcount : g'.mergeCount < g.mergeCount) : DeepAt R g (room + 1) id := by
  obtain ⟨hroom, path, hlength, hpath⟩ := h
  refine ⟨by omega, inner :: path, by rw [List.length_cons, hlength], ?_⟩
  exact List.isChain_cons_cons.mpr ⟨hstep, hpath⟩

/-- Merging into a mapping runs out of room at the end of a path from it. -/
def FromDeep (R : NodeId → NodeId → Prop) (limit fuel : Nat) : Prop :=
  ∀ id room front g cause, mergeFrom id fuel room front g = .error (.unreadable cause) →
    g.IsMapping id → (∀ a b, g.Merges a b → R a b) → (∀ p ∈ front, g.isPlain p = true) →
    g.SequencesWithin limit → g.roundsFor limit ≤ fuel →
    cause = .tooDeep ∧ DeepAt R g (room + 1) id

/-- Merging a list of mappings runs out of room at the end of a path from one of them. -/
def EachDeep (R : NodeId → NodeId → Prop) (limit fuel : Nat) : Prop :=
  ∀ room ids g cause, mergeEach fuel room ids g = .error (.unreadable cause) →
    (∀ a b, g.Merges a b → R a b) → g.SequencesWithin limit →
    ids.length + g.roundsFor limit ≤ fuel → cause = .tooDeep ∧ ∃ i ∈ ids, DeepAt R g room i

/-- There is no room inside a mapping, or the merging into it runs out of room. -/
theorem FromDeep.inside (hfrom : FromDeep R limit fuel) {g : Graph} {source : NodeId} {room : Nat}
    {cause : Unreadable}
    (h : (roomInside room >>= fun inside => mergeFrom source fuel inside [] g) =
      .error (.unreadable cause))
    (hmapping : g.IsMapping source) (hmerges : ∀ a b, g.Merges a b → R a b)
    (hlimit : g.SequencesWithin limit) (hfuel : g.roundsFor limit ≤ fuel) :
    cause = .tooDeep ∧ DeepAt R g room source := by
  cases room with
  | zero =>
      cases h
      exact ⟨rfl, .zero g source⟩
  | succ inside => exact hfrom source inside [] g cause h hmapping hmerges (by simp) hlimit hfuel

/-- Merging goes on after the mappings of a merge key. -/
theorem FromDeep.resume (hfrom : FromDeep R limit fuel) {g g₁ : Graph} {id : NodeId} {room : Nat}
    {front more : List (NodeId × NodeId)} {inner : List NodeId} {cause : Unreadable}
    (hmapping : g.IsMapping id) (hfront : ∀ p ∈ front, g.isPlain p = true)
    (hlimit : g.SequencesWithin limit) (hfuel : g.roundsFor limit ≤ fuel)
    (hinner : AllMerged inner more g g₁) (hmerges : ∀ a b, g₁.Merges a b → R a b)
    (h : mergeFrom id fuel room (front ++ more) g₁ = .error (.unreadable cause)) :
    cause = .tooDeep ∧ DeepAt R g (room + 1) id := by
  have hrounds := roundsFor_le limit hinner.count_le
  obtain ⟨hcause, hdeep⟩ := hfrom id room _ g₁ cause h (hinner.isMapping hmapping) hmerges
    (hinner.plain hfront) (hinner.sequencesWithin hlimit) (by omega)
  exact ⟨hcause, hdeep.mono hinner.count_le⟩

theorem fromDeep_succ (htrans : ∀ a b c, R a b → R b c → R a c) (hfrom : FromDeep R limit fuel)
    (heach : EachDeep R limit fuel) : FromDeep R limit (fuel + 1) := by
  intro id room front g cause h hmapping hmerges hfront hlimit hfuel
  rw [mergeFrom] at h
  cases hsplit : g.splitMerge (g.pairs id) with
  | none =>
      rw [hsplit] at h
      cases h
  | some split =>
      obtain ⟨before, source, after⟩ := split
      rw [hsplit] at h
      obtain ⟨pairs, hcontent⟩ := hmapping
      obtain ⟨key, hpairs, hkey⟩ := splitMerge_eq_some hsplit
      have hcontent' : (g.node id).content = .mapping (before ++ (key, source) :: after) := by
        rw [← hpairs, Graph.pairs, hcontent, Content.pairs]
      have hown : ∀ p ∈ before ++ (key, source) :: after, ∀ b ∈ g.sources p, R id b := by
        intro p hp b hb
        exact hmerges id b ⟨p, hpairs ▸ hp, hb⟩
      obtain ⟨hkeeps, hless⟩ := keeps_takeOut hcontent' hkey
      have hwithin := within_takeOut hkey hcontent' hmerges hown
      have hrounds := roundsFor_lt limit hless
      have hlimit' := hkeeps.sequencesWithin hlimit
      have hsources : ∀ i ∈ g.sources (key, source), R id i :=
        hown (key, source) (List.mem_append_right before List.mem_cons_self)
      rw [← hkeeps.sources_eq, sources, if_pos ((hkeeps.merge_iff key).mpr hkey)] at hsources
      dsimp only at h hsources
      generalize g.setContent id (.mapping (before ++ after)) = g₀ at *
      simp only [← hkeeps.isPlain_eq] at hfront
      have hid := hkeeps.isMapping ⟨_, hcontent⟩
      cases hkind : (g₀.node source).content with
      | scalar text =>
          rw [hkind] at h
          cases h
      | mapping inner =>
          rw [hkind] at h hsources
          rw [← bind_assoc] at h
          rcases bind_eq_error_iff.mp h with h | ⟨g₁, hfirst, hrest⟩
          · obtain ⟨hcause, hdeep⟩ :=
              hfrom.inside h ⟨inner, hkind⟩ hwithin.merges hlimit' (by omega)
            exact ⟨hcause, hdeep.step (hsources source (List.mem_singleton_self source)) hless⟩
          · obtain ⟨inside, _, hfirst⟩ := bind_eq_ok_iff.mp hfirst
            have hinside := (fromWithin htrans fuel).1 source inside [] g₀ g₁ hfirst
              ⟨inner, hkind⟩ hwithin.merges (by simp)
            have hmerged :=
              (fromMerged limit fuel).1.single hfirst ⟨inner, hkind⟩ hlimit' (by omega)
            obtain ⟨hcause, hdeep⟩ := hfrom.resume hid hfront hlimit' (by omega) hmerged
              hinside.merges hrest
            exact ⟨hcause, hdeep.mono hless.le⟩
      | sequence items =>
          rw [hkind] at h hsources
          have hitems := hlimit' source items hkind
          rcases bind_eq_error_iff.mp h with h | ⟨⟨lists, g₁⟩, hfirst, hrest⟩
          · obtain ⟨hcause, i, hi, hdeep⟩ := heach room items g₀ cause h hwithin.merges hlimit'
              (by omega)
            exact ⟨hcause, hdeep.step (hsources i hi) hless⟩
          · have hinside := ((fromWithin htrans fuel).2 room items g₀ lists g₁ hfirst
              hwithin.merges).1
            have hmerged := (fromMerged limit fuel).2.reversed hfirst hlimit' (by omega)
            obtain ⟨hcause, hdeep⟩ := hfrom.resume hid hfront hlimit' (by omega) hmerged
              hinside.merges hrest
            exact ⟨hcause, hdeep.mono hless.le⟩

theorem eachDeep_succ (htrans : ∀ a b c, R a b → R b c → R a c) (hfrom : FromDeep R limit fuel)
    (heach : EachDeep R limit fuel) : EachDeep R limit (fuel + 1) := by
  intro room ids g cause h hmerges hlimit hfuel
  cases ids with
  | nil =>
      rw [mergeEach] at h
      cases h
  | cons source rest =>
      rw [mergeEach] at h
      rw [List.length_cons] at hfuel
      split at h
      · next inner hkind =>
          rw [← bind_assoc] at h
          rcases bind_eq_error_iff.mp h with h | ⟨g₁, hfirst, h⟩
          · obtain ⟨hcause, hdeep⟩ := hfrom.inside h ⟨inner, hkind⟩ hmerges hlimit (by omega)
            exact ⟨hcause, source, List.mem_cons_self, hdeep⟩
          · obtain ⟨inside, _, hfirst⟩ := bind_eq_ok_iff.mp hfirst
            have hmerged := (fromMerged limit fuel).1 source inside [] g g₁ hfirst ⟨inner, hkind⟩
              (by simp) hlimit (by omega)
            have hwithin := (fromWithin htrans fuel).1 source inside [] g g₁ hfirst ⟨inner, hkind⟩
              hmerges (by simp)
            have hless := roundsFor_le limit hmerged.count_le
            rcases bind_eq_error_iff.mp h with h | ⟨_, _, h⟩
            · obtain ⟨hcause, i, hi, hdeep⟩ := heach room rest g₁ cause h hwithin.merges
                (hmerged.sequencesWithin hlimit) (by omega)
              exact ⟨hcause, i, List.mem_cons_of_mem source hi, hdeep.mono hmerged.count_le⟩
            · cases h
      · cases h

theorem fromDeep (htrans : ∀ a b c, R a b → R b c → R a c) (limit fuel : Nat) :
    FromDeep R limit fuel ∧ EachDeep R limit fuel := by
  induction fuel with
  | zero =>
      refine ⟨?_, ?_⟩
      · intro id room front g cause h
        rw [mergeFrom] at h
        cases h
      · intro room ids g cause h
        rw [mergeEach] at h
        cases h
  | succ fuel ih => exact ⟨fromDeep_succ htrans ih.1 ih.2, eachDeep_succ htrans ih.1 ih.2⟩

/-- Merge keys are not replaced where they lead through more mappings than there is room for. -/
theorem mergeKeys_deep [Host] (htrans : ∀ a b c, R a b → R b c → R a c) {g : Graph} {id : NodeId}
    {cause : Unreadable} (h : g.mergeKeys id = .error (.unreadable cause))
    (hmapping : g.IsMapping id) (hmerges : ∀ a b, g.Merges a b → R a b) :
    cause = .tooDeep ∧ DeepAt R g (Host.mergeRoom + 1) id := by
  obtain ⟨limit, hlimit, fuel, hfuel, heq⟩ := mergeKeys_rounds g id
  rw [heq] at h
  exact (fromDeep htrans limit fuel).1 id _ [] g cause h hmapping hmerges (by simp) hlimit hfuel

end Merging

section Texts
variable {g : Graph} {id : NodeId}

theorem defaults_of_find {pairs : List (NodeId × NodeId)} {p : NodeId × NodeId}
    (hcontent : (g.node id).content = .mapping pairs)
    (hfind : (pairs.find? fun p => g.tag p.1 = .value) = some p) : g.Defaults id p.2 := by
  have hvalue : g.tag p.1 = .value := by simpa using List.find?_some hfind
  refine ⟨p.1, gathers_of_mem ?_ ?_, hvalue⟩
  · rw [Graph.pairs, hcontent, Content.pairs]
    exact List.mem_of_find?_eq_some hfind
  · simp [isPlain, hvalue]

theorem standsFor_of_textOf {fuel : Nat} {text : String} (h : Make.textOf g fuel id = .ok text) :
    g.StandsFor id text := by
  induction fuel generalizing id with
  | zero => cases h
  | succ fuel ih =>
      rw [Make.textOf] at h
      split at h
      · next own hcontent =>
          cases h
          exact ⟨id, .refl, hcontent⟩
      · next pairs hcontent =>
          split at h
          · next p hfind =>
              obtain ⟨last, hpath, hlast⟩ := ih h
              exact ⟨last, .head (defaults_of_find hcontent hfind) hpath, hlast⟩
          · cases h
      · cases h

/-- A node has no text after so many nodes in a row that stand for each other. -/
theorem path_of_textOf {fuel : Nat} {cause : Unreadable}
    (h : Make.textOf g fuel id = .error (.unreadable cause)) :
    cause = .endlessDefault ∧
      ∃ path : List NodeId, path.length = fuel ∧ (id :: path).IsChain g.Defaults := by
  induction fuel generalizing id with
  | zero =>
      cases h
      exact ⟨rfl, [], rfl, List.isChain_singleton id⟩
  | succ fuel ih =>
      rw [Make.textOf] at h
      split at h
      · cases h
      · next pairs hcontent =>
          split at h
          · next p hfind =>
              obtain ⟨hcause, path, hlength, hpath⟩ := ih h
              refine ⟨hcause, p.2 :: path, by rw [List.length_cons, hlength], ?_⟩
              exact List.isChain_cons_cons.mpr ⟨defaults_of_find hcontent hfind, hpath⟩
          · cases h
      · cases h

theorem isMapping_of_textOf {fuel : Nat} {text : String} (h : Make.textOf g fuel id = .ok text)
    (hscalar : (g.node id).content.isScalar = false) : g.IsMapping id := by
  cases fuel with
  | zero => cases h
  | succ fuel =>
      rw [Make.textOf] at h
      cases hcontent : (g.node id).content with
      | scalar own => simp [hcontent, Content.isScalar] at hscalar
      | mapping pairs => exact ⟨pairs, hcontent⟩
      | sequence items =>
          rw [hcontent] at h
          cases h

end Texts

end Graph

/-- What holds on the way of making a document as long as nothing fails: besides what is given,
merge keys lead where chains of them have led at first. -/
structure Making.Tracking (g : Graph) (s : Making) : Prop extends s.Giving g where
  merges : ∀ a b, s.graph.Merges a b → TransGen g.Merges a b

namespace Making.Tracking
variable {g : Graph} {s s' : Making}

theorem of_extends (h : s.Tracking g) (hgiving : s'.Giving g) (hextends : s.Extends s') :
    s'.Tracking g := by
  refine ⟨hgiving, ?_⟩
  rw [hextends.graph_eq]
  exact h.merges

theorem defaults_of (h : s.Tracking g) {a b : NodeId} (hab : s.graph.Defaults a b) :
    g.Defaults a b := by
  obtain ⟨key, hgathers, hvalue⟩ := hab
  refine ⟨key, h.gathers a _ hgathers, ?_⟩
  rcases h.keeps.tag_eq key with heq | ⟨_, hstr⟩
  · exact heq ▸ hvalue
  · simp [hstr] at hvalue

theorem standsFor (h : s.Tracking g) {id : NodeId} {text : String}
    (htext : s.graph.StandsFor id text) : g.StandsFor id text := by
  obtain ⟨last, hpath, hlast⟩ := htext
  refine ⟨last, ReflTransGen.mono (fun _ _ => h.defaults_of) _ _ hpath, ?_⟩
  rcases h.keeps.content_eq last with heq | ⟨_, pairs, hpairs⟩
  · exact heq ▸ hlast
  · simp [hpairs] at hlast

end Making.Tracking

namespace Make

theorem bind_run_eq_error_iff {α β : Type} {x : Make α} {f : α → Make β} {s : Making} {e : Error} :
    (x >>= f).run s = .error e ↔ x.run s = .error e ∨
      ∃ a between, x.run s = .ok (a, between) ∧ (f a).run between = .error e := by
  rw [StateT.run_bind, bind_eq_error_iff, Prod.exists]

variable [Host] {g : Graph}

/-- A key that cannot be read now stands for a defect of the original graph. -/
theorem defect_of_freshKey {s : Making} (hs : s.Tracking g) {id : NodeId} {cause : Unreadable}
    (h : freshKey s.graph id = .error (.unreadable cause)) : g.Defect cause := by
  rcases bind_eq_error_iff.mp h with h | ⟨_, _, h⟩
  · unfold scalarOf at h
    dsimp only at h
    split at h
    · cases h
    · next htag =>
        rcases bind_eq_error_iff.mp h with htext | ⟨text, htext, h⟩
        · obtain ⟨rfl, path, hlength, hpath⟩ := Graph.path_of_textOf htext
          exact .defaults (hpath.imp fun _ _ => hs.defaults_of) (by rw [List.length_cons, hlength])
        · have hsame {tag : Tag} (hvalue : tag ≠ .value) (hstr : tag ≠ .str) :
              s.graph.tag id = tag ↔ g.tag id = tag := hs.keeps.tag_eq_iff hvalue hstr
          split at h
          · next htimestamp =>
              cases h
              obtain ⟨htimestamp, hscalar⟩ := Bool.and_eq_true_iff.mp htimestamp
              have htag := (hsame (by decide) (by decide)).mp (of_decide_eq_true htimestamp)
              refine .timestamp htag ?_
              exact hs.keeps.isMapping_iff.mp
                (Graph.isMapping_of_textOf htext (by simpa using hscalar))
          · have hrefuses := readScalar_eq_unreadable_iff.mp h
            have heq : g.tag id = s.graph.tag id := by
              refine (hsame ?_ ?_).mp rfl
              · intro hvalue
                rw [Graph.tag] at hvalue
                rw [hvalue] at hrefuses
                cases hrefuses
              · intro hstr
                rw [Graph.tag] at hstr
                rw [hstr] at hrefuses
                cases hrefuses
            refine .scalar (hs.standsFor (Graph.standsFor_of_textOf htext)) ?_
            rw [heq]
            exact hrefuses
  · cases h

/-- A step that keeps track of the original graph and fails, other than for its form, only for a
defect of it. -/
def Traced {α : Type} (g : Graph) (x : Make α) : Prop :=
  ∀ ⦃s⦄, s.Tracking g → (∀ cause, x.run s = .error (.unreadable cause) → g.Defect cause) ∧
    ∀ a s', x.run s = .ok (a, s') → s'.Tracking g

section Traced
variable {α β : Type}

theorem traced_pure (a : α) : Traced g (pure a) := by
  intro s hs
  refine ⟨fun cause h => ?_, fun b s' h => ?_⟩
  · cases h
  · obtain ⟨_, rfl⟩ := pure_run_eq_ok_iff.mp h
    exact hs

theorem traced_fail (cause : Malformed) (id : NodeId) : Traced g (fail cause id : Make α) := by
  intro s hs
  refine ⟨fun cause h => ?_, fun b s' h => ?_⟩
  · cases h
  · cases h

theorem Traced.bind {x : Make α} {f : α → Make β} (hx : Traced g x) (hf : ∀ a, Traced g (f a)) :
    Traced g (x >>= f) := by
  intro s hs
  obtain ⟨hfail, hnext⟩ := hx hs
  refine ⟨fun cause h => ?_, fun b s' h => ?_⟩
  · rcases bind_run_eq_error_iff.mp h with h | ⟨a, between, ha, h⟩
    · exact hfail cause h
    · exact (hf a (hnext a between ha)).1 cause h
  · obtain ⟨a, between, ha, h⟩ := bind_run_eq_ok_iff.mp h
    exact (hf a (hnext a between ha)).2 b s' h

theorem Traced.mapM {f : α → Make β} (hf : ∀ a, Traced g (f a)) (items : List α) :
    Traced g (items.mapM f) := by
  induction items with
  | nil =>
      rw [List.mapM_nil]
      exact traced_pure []
  | cons a rest ih =>
      rw [List.mapM_cons]
      exact (hf a).bind fun b => ih.bind fun bs => traced_pure (b :: bs)

theorem traced_scalarKey (id : NodeId) : Traced g (scalarKey id) := by
  intro s hs
  refine ⟨fun cause h => ?_, fun key s' h => ?_⟩
  · rw [scalarKey_run] at h
    split at h
    · cases h
    · rcases bind_eq_error_iff.mp h with h | ⟨_, _, h⟩
      · exact defect_of_freshKey hs h
      · cases h
  · exact hs.of_extends (scalarKey_gives hs.toGiving h).2 (steady_scalarKey id h)

theorem traced_item (id : NodeId) : Traced g (item id) := by
  intro s hs
  refine ⟨fun cause h => ?_, fun result s' h => ?_⟩
  · rw [item_run] at h
    split at h
    · cases h
    · rcases bind_eq_error_iff.mp h with h | ⟨_, _, h⟩
      · exact (traced_scalarKey id hs).1 cause h
      · cases h
  · exact hs.of_extends (item_gives id hs.toGiving h).2 (steady_item id h)

theorem traced_key? (id : NodeId) : Traced g (key? id) := by
  intro s hs
  refine ⟨fun cause h => ?_, fun result s' h => ?_⟩
  · rw [key?_run] at h
    split at h
    · cases h
    · rcases bind_eq_error_iff.mp h with h | ⟨_, _, h⟩
      · exact (traced_scalarKey id hs).1 cause h
      · cases h
  · cases result with
    | some key => exact hs.of_extends (key?_gives hs.toGiving h).2 (steady_key? id h)
    | none =>
        rw [key?_run] at h
        split at h
        · next hcollection =>
            cases h
            refine (traced_item id hs).2 (.node id) _ ?_
            rw [item_run, if_pos hcollection]
        · obtain ⟨_, _, hend⟩ := bind_eq_ok_iff.mp h
          cases hend

theorem traced_entries (made : List (Key × Item)) (pairs : List (NodeId × NodeId)) :
    Traced g (entries made pairs) := by
  induction pairs generalizing made with
  | nil => exact traced_pure made
  | cons pair rest ih =>
      refine (traced_key? pair.1).bind ?_
      rintro (_ | key)
      · exact traced_fail .collectionKey pair.1
      · exact (traced_item pair.2).bind fun item => ih (key.put item made)

theorem traced_sequence (id : NodeId) : Traced g (sequence id) := by
  intro s hs
  unfold sequence
  rw [get_bind_run]
  split
  · exact Traced.mapM traced_item _ hs
  · exact traced_fail _ _ hs

theorem traced_singlePair (id : NodeId) : Traced g (singlePair id) := by
  intro s hs
  unfold singlePair
  rw [get_bind_run]
  split
  · next first second _ =>
      exact (traced_item first).bind (fun a => (traced_item second).bind fun b =>
        traced_pure (a, b)) hs
  · exact traced_fail _ _ hs

end Traced

section Checks
variable {s : Making} {id : NodeId} {cause : Unreadable}

omit [Host] in
theorem inspect_of_shown {key : Key} (h : (shown key).run s = .error (.unreadable cause)) :
    cause = .tooManyDigits ∧ ∃ n, key.scalar = .int n ∧ TooLong n := by
  unfold shown at h
  split at h
  · cases h
  · next fault hfault =>
      cases h
      refine ⟨rfl, ?_⟩
      generalize key.scalar = scalar at hfault
      cases Scalar.inspect_eq_error hfault with
      | tooLong hlong => exact ⟨_, rfl, hlong⟩

/-- A scalar without a key has the tag of a collection. -/
theorem defect_of_no_key {s' : Making} {p : NodeId × NodeId} (hs : s.Tracking g)
    (hp : g.Gathers id p) (hscalar : (s.graph.node p.1).content.isScalar = true)
    (h : (key? p.1).run s = .ok (none, s')) : g.Defect .collectionAsKey := by
  rw [key?_run] at h
  split at h
  · next hcollection =>
      refine .key hp ?_ (hs.keeps.isCollection_eq p.1 ▸ hcollection)
      rw [← hs.keeps.isScalar_eq]
      exact hscalar
  · obtain ⟨_, _, hend⟩ := bind_eq_ok_iff.mp h
    cases hend

/-- A repeated key that cannot be shown is an integer with too many digits. -/
theorem defect_of_shown {p q : NodeId × NodeId} {first key : Key} (hp : g.Gathers id p)
    (hq : g.Gathers id q) (hfirst : g.GivesScalar p.1 first.scalar)
    (hkey : g.GivesScalar q.1 key.scalar) (hsame : key.same first = true)
    (h : (shown key).run s = .error (.unreadable cause)) : g.Defect cause := by
  obtain ⟨rfl, n, hn, hlong⟩ := inspect_of_shown h
  rw [hn] at hkey
  refine .repeated hp hq hfirst hkey ?_ hlong
  simpa [Key.same, Key.isNan, hn] using hsame

/-- The check for repeated keys fails, other than for its form or a repeated key, for a key without
a value or one that cannot be shown. -/
theorem defect_of_refuseRepeats {before : List Key} {pairs : List (NodeId × NodeId)}
    (hs : s.Tracking g) (hpairs : ∀ p ∈ pairs, g.isPlain p = true → g.Gathers id p)
    (hbefore : ∀ k ∈ before, ∃ p, g.Gathers id p ∧ g.GivesScalar p.1 k.scalar)
    (h : (refuseRepeats id before pairs).run s = .error (.unreadable cause)) : g.Defect cause := by
  induction pairs generalizing before with
  | nil => cases h
  | cons pair rest ih =>
      obtain ⟨hpair, hrest⟩ := List.forall_mem_cons.mp hpairs
      rw [refuseRepeats, get_bind_run] at h
      dsimp only at h
      split at h
      · exact ih hrest hbefore h
      · next hchecked =>
          simp only [Bool.or_eq_true, Bool.not_eq_true', decide_eq_true_eq, not_or,
            Bool.not_eq_false] at hchecked
          obtain ⟨hscalar, hmerge⟩ := hchecked
          have hgathers : g.Gathers id pair := by
            apply hpair
            rw [hs.keeps.merge_iff] at hmerge
            simpa [Graph.isPlain] using hmerge
          rcases bind_run_eq_error_iff.mp h with h | ⟨key, between, hkey, h⟩
          · exact (traced_key? pair.1 hs).1 cause h
          · cases key with
            | none =>
                cases h
                exact defect_of_no_key hs hgathers hscalar hkey
            | some key =>
                obtain ⟨hgives, _⟩ := key?_gives hs.toGiving hkey
                obtain rfl := key?_state_eq hscalar hkey
                cases hrepeats : before.any key.same with
                | true =>
                    simp only [hrepeats, if_true] at h
                    obtain ⟨k, hk, hsame⟩ := List.any_eq_true.mp hrepeats
                    obtain ⟨p, hp, hgiven⟩ := hbefore k hk
                    rcases bind_run_eq_error_iff.mp h with h | ⟨_, _, _, h⟩
                    · exact defect_of_shown hp hgathers hgiven hgives hsame h
                    · cases h
                | false =>
                    simp only [hrepeats, Bool.false_eq_true, if_false] at h
                    refine ih hrest ?_ h
                    intro k hk
                    rcases List.mem_append.mp hk with hk | hk
                    · exact hbefore k hk
                    · rw [List.mem_singleton.mp hk]
                      exact ⟨pair, hgathers, hgives⟩

theorem defect_of_checkKeys (hs : s.Tracking g) (hmapped : s.graph.isMapped id = true)
    (h : (checkKeys id).run s = .error (.unreadable cause)) : g.Defect cause := by
  rw [hs.keeps.isMapped_eq] at hmapped
  rw [checkKeys, get_bind_run] at h
  split at h
  · next pairs hcontent =>
      refine defect_of_refuseRepeats hs ?_ (by simp) h
      intro p hp hplain
      apply hs.gathers
      apply Graph.gathers_of_mem
      · rw [Graph.pairs, hcontent]
        exact hp
      · rw [hs.keeps.isPlain_eq]
        exact hplain
  · next text hcontent =>
      split at h
      · next hempty =>
          cases h
          refine .mappedText hmapped ?_ hempty
          rcases hs.keeps.content_eq id with heq | ⟨_, pairs, hpairs⟩
          · exact heq ▸ hcontent
          · simp [hpairs] at hcontent
      · cases h
  · next items hcontent =>
      split at h
      · next hempty =>
          cases h
          exact .mappedSequence hmapped (hs.keeps.sequence_iff.mp hcontent) (by simpa using hempty)
      · cases h

end Checks

section Fill
variable {repeats : RepeatedKeys} {s s' : Making} {id : NodeId} {cause : Unreadable}

theorem defect_of_mapping (hs : s.Tracking g) (hmapped : s.graph.isMapped id = true)
    (h : (mapping repeats id).run s = .error (.unreadable cause)) : g.Defect cause := by
  have hplain (h : (mapping .lastWins id).run s = .error (.unreadable cause)) :
      g.Defect cause := by
    rw [mapping, if_neg (by decide), get_bind_run] at h
    split at h
    · next pairs hcontent =>
        rw [get_bind_run, lift_bind_run] at h
        rcases bind_eq_error_iff.mp h with h | ⟨g', hmerge, h⟩
        · obtain ⟨rfl, hcount, path, hlength, hpath⟩ :=
            Graph.mergeKeys_deep (fun _ _ _ => TransGen.trans) h ⟨pairs, hcontent⟩ hs.merges
          exact .merges hpath (by rw [List.length_cons, hlength]) (hcount.trans hs.keeps.count_le)
        · have hwithin := Graph.mergeKeys_within (fun _ _ _ => TransGen.trans) hmerge hs.merges
          have hgiving := hs.merged (Graph.mergeKeys_merged hmerge ⟨pairs, hcontent⟩)
          exact (traced_entries [] (g'.pairs id) ⟨hgiving, hwithin.merges⟩).1 cause h
    · cases h
  cases repeats with
  | lastWins => exact hplain h
  | refused =>
      rw [mapping_refused] at h
      rcases bind_run_eq_error_iff.mp h with hcheck | ⟨_, between, hcheck, hrest⟩
      · exact defect_of_checkKeys hs hmapped hcheck
      · obtain ⟨rfl, _⟩ := checkKeys_eq_ok_iff.mp hcheck
        exact hplain hrest

theorem defect_of_fill (hs : s.Tracking g)
    (h : (fill repeats id).run s = .error (.unreadable cause)) : g.Defect cause := by
  cases hmapped : s.graph.isMapped id with
  | true =>
      rw [fill_run_of_isMapped hmapped] at h
      rcases bind_eq_error_iff.mp h with h | ⟨_, _, h⟩
      · exact defect_of_mapping hs hmapped h
      · cases h
  | false =>
      rw [fill, get_bind_run] at h
      split at h
      · next hmap => simp [Graph.isMapped, hmap] at hmapped
      · next hset => simp [Graph.isMapped, hset] at hmapped
      · have htraced := (traced_sequence (g := g) id).bind fun items =>
          traced_pure (Collection.list items)
        exact (htraced hs).1 cause h
      · rw [get_bind_run] at h
        split at h
        · next nodes hnodes =>
            have htraced := (Traced.mapM (g := g) traced_singlePair nodes).bind fun entries =>
              traced_pure (Collection.pairs entries)
            exact (htraced hs).1 cause h
        · cases h

theorem tracking_of_turn (hs : s.Tracking g) (h : Turn repeats id s s') : s'.Tracking g := by
  obtain ⟨_, _, _, hmerged, _⟩ := h.spec
  obtain ⟨rest, c, between, _, hfill, rfl⟩ := h
  have hrest : ({ s with waiting := rest } : Making).Giving g :=
    ⟨hs.keeps, hs.gathers, hs.tagged, hs.defaults⟩
  obtain ⟨_, hgiving⟩ := fill_fills hrest hfill
  refine ⟨⟨hgiving.keeps, hgiving.gathers, hgiving.tagged, hgiving.defaults⟩, ?_⟩
  exact (Graph.mergedAt_within (fun _ _ _ => TransGen.trans) hmerged hs.merges).merges

theorem defect_of_fillAll {fuel : Nat} (hs : s.Tracking g)
    (h : (fillAll repeats fuel).run s = .error (.unreadable cause)) : g.Defect cause := by
  induction fuel generalizing s with
  | zero => cases h
  | succ fuel ih =>
      cases hwaiting : s.waiting with
      | nil =>
          rw [fillAll, get_bind_run, hwaiting] at h
          cases h
      | cons id rest =>
          rw [fillAll_succ_run hwaiting] at h
          rcases bind_eq_error_iff.mp h with h | ⟨⟨c, between⟩, hfill, h⟩
          · have hrest : ({ s with waiting := rest } : Making).Tracking g :=
              ⟨⟨hs.keeps, hs.gathers, hs.tagged, hs.defaults⟩, hs.merges⟩
            exact defect_of_fill hrest h
          · exact ih (tracking_of_turn hs ⟨rest, c, between, hwaiting, hfill, rfl⟩) h

end Fill

end Make

/-- A graph that has no document, other than for its form or a repeated key, has a defect. -/
theorem Document.defect_of_ofGraph [Host] {repeats : RepeatedKeys} {g : Graph} {root : NodeId}
    {cause : Unreadable} (h : ofGraph repeats g root = .error (.unreadable cause)) :
    g.Defect cause := by
  have hempty : (⟨g, [], [], [], []⟩ : Making).Tracking g :=
    ⟨⟨.refl g, fun _ _ h => h, by simp [Making.Tagged], by simp⟩, fun _ _ => .single⟩
  unfold ofGraph at h
  dsimp only at h
  rcases bind_eq_error_iff.mp h with h | ⟨_, _, h⟩
  · rcases Make.bind_run_eq_error_iff.mp h with h | ⟨item, s, hitem, h⟩
    · exact (Make.traced_item root hempty).1 cause h
    · have hs := (Make.traced_item root hempty).2 item s hitem
      rcases Make.bind_run_eq_error_iff.mp h with h | ⟨_, _, _, h⟩
      · exact Make.defect_of_fillAll hs h
      · cases h
  · cases h

section Met
variable {g : Graph} {root id : NodeId} {d : Document}

/-- The nodes that are read wherever they stand: the root, the items of a sequence, and the keys and
entries that a mapping has of its own. -/
inductive Graph.Met (g : Graph) (root : NodeId) : NodeId → Prop
  | root : Met g root root
  | item {a b : NodeId} {items : List NodeId} (ha : g.Built root a) (htag : g.tag a = .seq)
      (hitems : (g.node a).content = .sequence items) (hb : b ∈ items) : Met g root b
  | key {a : NodeId} {p : NodeId × NodeId} (ha : g.Built root a) (htag : g.isMapped a = true)
      (hp : p ∈ g.pairs a) (hplain : g.isPlain p = true) : Met g root p.1
  | entry {a : NodeId} {p : NodeId × NodeId} (ha : g.Built root a) (htag : g.isMapped a = true)
      (hp : p ∈ g.pairs a) (hplain : g.isPlain p = true) : Met g root p.2

theorem Graph.Fills.gives_own {c : Collection} (h : g.Fills id c) (hmapped : g.isMapped id = true)
    {p : NodeId × NodeId} (hp : p ∈ g.pairs id) (hplain : g.isPlain p = true) :
    ∃ e, g.GivesPair p e := by
  cases h with
  | list htag => simp [Graph.isMapped, htag] at hmapped
  | mapped _ hown _ hgiven =>
      have hmem := hown.subset (List.mem_filter.mpr ⟨hp, hplain⟩)
      obtain ⟨e, _, hgives⟩ := Stepwise.exists_of_forall₂ hgiven hmem
      exact ⟨e, hgives⟩
  | pairs _ hnodes => simp [Graph.pairs, hnodes, Content.pairs] at hp

theorem Graph.Loads.fills_of_built (h : g.Loads root d) (hbuilt : g.Built root id) :
    ∃ c, g.Fills id c := by
  obtain ⟨e, he, rfl⟩ := List.mem_map.mp ((h.built id).mpr hbuilt)
  exact ⟨e.2, h.filled e he⟩

/-- A node that is met gives an item of the document. -/
theorem Graph.Loads.gives_of_met (h : g.Loads root d) (hmet : g.Met root id) :
    ∃ i, g.Gives id i := by
  cases hmet with
  | root => exact ⟨d.root, h.start⟩
  | item ha htag hitems hb =>
      obtain ⟨c, hfills⟩ := h.fills_of_built ha
      cases hfills with
      | list _ hnodes hgives =>
          rw [hitems] at hnodes
          cases hnodes
          obtain ⟨i, _, hi⟩ := Stepwise.exists_of_forall₂ hgives hb
          exact ⟨i, hi⟩
      | mapped hmapped => simp [Graph.isMapped, htag] at hmapped
      | pairs hother => exact absurd htag hother
  | key ha htag hp hplain =>
      obtain ⟨c, hfills⟩ := h.fills_of_built ha
      obtain ⟨e, hkey, _⟩ := hfills.gives_own htag hp hplain
      exact ⟨.scalar e.1.scalar, .scalar hkey⟩
  | entry ha htag hp hplain =>
      obtain ⟨c, hfills⟩ := h.fills_of_built ha
      obtain ⟨e, _, hentry⟩ := hfills.gives_own htag hp hplain
      exact ⟨e.2, hentry⟩

/-- No document holds a scalar that its tag refuses. -/
theorem Graph.Loads.not_refuses (h : g.Loads root d) (hmet : g.Met root id) {text : String}
    (hcontent : (g.node id).content = .scalar text) (cause : Unreadable) :
    ¬ (g.tag id).Refuses text.toList cause := by
  intro hrefuses
  obtain ⟨i, hgives⟩ := h.gives_of_met hmet
  cases hgives with
  | collection hcollection =>
      generalize g.tag id = tag at hcollection hrefuses
      cases hrefuses <;> simp [Make.isCollection] at hcollection
  | scalar hscalar =>
      obtain ⟨own, hown, hread⟩ := hscalar
      rw [hown text hcontent, Graph.readTag, if_neg] at hread
      · rw [readScalar_eq_unreadable_iff.mpr hrefuses] at hread
        cases hread
      · intro hvalue
        rw [hvalue] at hrefuses
        cases hrefuses

end Met

/-- What a text holds that has no value, with the reason that is given for it: a part that cannot
be scanned, collections that are opened inside each other, or a defect of its graph. -/
inductive Valueless [Host] (rules : List ImplicitRule) (text : String) : Unreadable → Prop
  | scan {cause : Unreadable} (h : ScanDefect text.toList cause) : Valueless rules text cause
  | nested {taken rest : List Token}
      (htokens : (TokenStream.ofText text.toList).tokens = taken ++ rest)
      (h : (Host.openRoom : Int) ≤ 2 * balance taken) : Valueless rules text .tooDeep
  | node {g : Graph} {root : NodeId} {cause : Unreadable}
      (hgraph : Graph.ofText rules text = .ok (g, some root)) (h : g.Defect cause) :
      Valueless rules text cause

/-- A text that cannot be read, other than for its form or a repeated key, has a part without a
value. -/
theorem valueless_of_readDocument [Host] {rules : List ImplicitRule} {repeats : RepeatedKeys}
    {text : String} {cause : Unreadable}
    (h : readDocument rules repeats text = .error (.unreadable cause)) :
    Valueless rules text cause := by
  unfold readDocument at h
  rcases bind_eq_error_iff.mp h with h | ⟨⟨g, root⟩, hgraph, h⟩
  · rcases Graph.unreadable_of_ofText h with herror | ⟨rfl, taken, rest, htokens, hdeep⟩
    · exact .scan (TokenStream.defect_of_ofText herror)
    · exact .nested htokens hdeep
  · cases root with
    | none => cases h
    | some root =>
        rcases bind_eq_error_iff.mp h with h | ⟨_, _, h⟩
        · exact .node hgraph (Document.defect_of_ofGraph h)
        · cases h

/-- A text is not read where a scalar of it is met that its tag refuses. -/
theorem readDocument_ne_ok [Host] {rules : List ImplicitRule} {repeats : RepeatedKeys}
    {text own : String} {g : Graph} {root id : NodeId} {cause : Unreadable}
    (hgraph : Graph.ofText rules text = .ok (g, some root)) (hmet : g.Met root id)
    (hcontent : (g.node id).content = .scalar own) (hrefuses : (g.tag id).Refuses own.toList cause)
    (found : Option Document) : readDocument rules repeats text ≠ .ok found := by
  intro h
  unfold readDocument at h
  obtain ⟨_, hother, h⟩ := bind_eq_ok_iff.mp h
  rw [hgraph] at hother
  cases hother
  obtain ⟨d, hd, _⟩ := bind_eq_ok_iff.mp h
  exact (Document.loads hd).not_refuses hmet hcontent cause hrefuses

end VoiceIntents.Yaml
