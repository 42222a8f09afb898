import VoiceIntents.Proofs.Loading
import VoiceIntents.Proofs.Making
import VoiceIntents.Proofs.ScalarText
import VoiceIntents.Proofs.SlotLookup

/-!
# Names of intents

The keys of a map are apart as scalars, and the names of intents are their texts. Two keys that
are apart may have one text, an infinity and the text `inf` for instance, and then two intents
have one name. These pairs of keys are listed here; there are no others. Names that are apart may
still be one name to the host, and then a class of the module takes the place of another.
-/

namespace VoiceIntents

namespace Scalar

/-- Keys that are apart and have one name. -/
def alike : Scalar → Scalar → Bool
  | .float (.infinity false), .text name | .text name, .float (.infinity false) => name = "inf"
  | .float .nan, .text name | .text name, .float .nan => name = "nan"
  | .float .nan, .float .nan => true
  | _, _ => false

/-- Of keys that stand for names and are apart, those with one name are the alike ones. -/
theorem Names.eq_iff_alike {a b : Scalar} {m n : String} (ha : a.Names m) (hb : b.Names n)
    (hapart : a.same b = false) : m = n ↔ a.alike b = true := by
  cases ha <;> cases hb <;>
    simp_all [alike, same, integer?, Binary64.equal, eq_comm]

end Scalar

/-- Names are distinct when no two of the keys that stand for them are alike. -/
theorem names_nodup_iff {keys : List Scalar} {names : List String}
    (hapart : keys.Pairwise fun a b => a.same b = false)
    (hnames : List.Forall₂ Scalar.Names keys names) :
    names.Nodup ↔ keys.Pairwise fun a b => a.alike b = false := by
  induction hnames with
  | nil => simp
  | @cons a m keys names ha hnames ih =>
      obtain ⟨hfirst, hapart⟩ := List.pairwise_cons.mp hapart
      rw [List.nodup_cons, List.pairwise_cons, ih hapart]
      refine and_congr_left fun _ => ?_
      constructor
      · intro hfresh b hb
        obtain ⟨n, hn, hname⟩ := Stepwise.exists_of_forall₂ hnames hb
        have hne : m ≠ n := by
          rintro rfl
          exact hfresh hn
        simpa [ha.eq_iff_alike hname (hfirst b hb)] using hne
      · intro hnone hm
        obtain ⟨b, hb, hname⟩ := Stepwise.exists_of_forall₂ hnames.flip hm
        have halike := (ha.eq_iff_alike hname (hfirst b hb)).mp rfl
        rw [hnone b hb] at halike
        cases halike

section Select
open Yaml (Document Item)
variable [Listing] {d : Document} {item : Item} {asked : Scalar → Bool}
variable {deeper : List (Scalar → Bool)} {entries : List (Scalar × Value)}

theorem mem_collections_of_view {all : List (Scalar × Item)} (h : d.view item = .map all) :
    ∃ id, (id, .map all) ∈ d.collections := by
  cases item with
  | scalar s => cases h
  | node id =>
      simp only [Document.view] at h
      split at h <;> cases h
      next hfound =>
        obtain ⟨before, after, hcollections, _⟩ := List.lookup_eq_some_iff.mp hfound
        exact ⟨id, by simp [hcollections]⟩
  | pair id place =>
      simp only [Document.view] at h
      split at h
      · split at h <;> cases h
      · cases h

variable [Host]

/-- A map among the selected values has the entries of a map of the document that are asked
for. -/
theorem select_eq_map (h : d.select (asked :: deeper) item = .map entries) :
    ∃ all, d.view item = .map all ∧
      entries = (all.filter fun e => asked e.1).map fun e => (e.1, d.select deeper e.2) := by
  unfold Document.select at h
  split at h
  · next all hview =>
      cases h
      exact ⟨all, hview, rfl⟩
  · next hview =>
      unfold Document.outline at h
      split at h <;> cases h
      next all hmap => exact absurd hmap (hview all)

theorem select_lookup {key : String} {v : Value}
    (h : d.select (asked :: deeper) item = .map entries)
    (hv : lookup entries key = some v) : ∃ inner, v = d.select deeper inner := by
  obtain ⟨all, _, rfl⟩ := select_eq_map h
  obtain ⟨e, _, he⟩ := List.mem_map.mp (mem_of_lookup hv)
  exact ⟨e.2, (congrArg Prod.snd he).symm⟩

theorem select_keys_apart (hd : ∀ e ∈ d.collections, e.2.KeysApart)
    (h : d.select (asked :: deeper) item = .map entries) :
    (entries.map (·.1)).Pairwise fun a b => a.same b = false := by
  obtain ⟨all, hview, rfl⟩ := select_eq_map h
  obtain ⟨id, hmem⟩ := mem_collections_of_view hview
  have hall : (all.map (·.1)).Pairwise fun a b => a.same b = false := hd _ hmem
  rw [List.map_map]
  exact hall.sublist (List.filter_sublist.map _)

end Select

namespace Context

/-- The keys of the map of expressions of a context. -/
def expressionKeys (document : Value) : List Scalar :=
  match document with
  | .map root =>
      match lookup root "context" with
      | some (.map context) =>
          match lookup context "expressions" with
          | some (.map entries) => entries.map (·.1)
          | _ => []
      | _ => []
  | _ => []

theorem grammar_eq_ok_iff [Host] [Listing] {source : Option String} {text : String} {g : Grammar} :
    grammar source text = .ok g ↔
      ∃ d, load source text = .ok d ∧ Grammar.ofValue source (value d) = .ok g := by
  rw [grammar, Stepwise.bind_eq_ok_iff]
  refine exists_congr fun d => and_congr_right fun _ => ?_
  cases Grammar.ofValue source (value d) with
  | error e => simp [throw, throwThe, MonadExceptOf.throw]
  | ok g' => exact Stepwise.pure_eq_ok_iff.trans (by simp)

end Context

section Names
variable {source project : Option String} {text : String} {g : Grammar}

/-- The names of the intents stand for the keys of the expressions, which are apart. -/
theorem intents_named [Host] [Listing] {d : Yaml.Document}
    (hload : Context.load source text = .ok d)
    (hbuilt : Grammar.ofValue source (Context.value d) = .ok g) :
    ((Context.expressionKeys (Context.value d)).Pairwise fun a b => a.same b = false) ∧
      List.Forall₂ Scalar.Names (Context.expressionKeys (Context.value d))
        (g.intents.map (·.name)) := by
  obtain ⟨graph, root, _, hmade, _⟩ := Context.load_eq_ok_iff.mp hload
  have hd := Yaml.Document.keysApart_of_mem hmade
  obtain ⟨o, ⟨document, context, entries, hdocument, hcontext, _, hexpressions, hentries⟩, hrules,
    rfl⟩ := Grammar.ofValue_eq_ok_iff.mp hbuilt
  have hkeys : Context.expressionKeys (Context.value d) = entries.map (·.1) := by
    simp only [Context.expressionKeys, hdocument, hcontext, hexpressions]
  rw [hkeys]
  constructor
  · obtain ⟨inner, hinner⟩ := select_lookup hdocument hcontext
    obtain ⟨expressions, hmap⟩ := select_lookup hinner.symm hexpressions
    exact select_keys_apart hd hmap.symm
  · rw [Outline.grammar, List.map_map, List.forall₂_map_left_iff, List.forall₂_map_right_iff]
    obtain ⟨hlength, hreads⟩ := List.forall₂_iff_zip.mp hentries
    refine List.forall₂_iff_zip.mpr ⟨hlength, ?_⟩
    intro entry named hpair
    have husable := (hrules.intents named (List.of_mem_zip hpair).2).name_usable
    exact (display_eq_ok_iff_names husable).mp (hreads hpair).1

/-- The names of a grammar are distinct when those of its intents are. -/
theorem declared_nodup_iff (hg : g.WellFormed) :
    (g.intents.map (·.name) ++ g.slots.map (·.name)).Nodup ↔ (g.intents.map (·.name)).Nodup := by
  have hslots : (g.intents.map (·.name)).Disjoint (g.slots.map (·.name)) := by
    intro name hintent
    obtain ⟨i, hi, rfl⟩ := List.mem_map.mp hintent
    exact hg.intents_apart i hi
  rw [List.nodup_append']
  exact ⟨fun h => h.1, fun h => ⟨h, hg.slots_distinct, hslots⟩⟩

end Names

section Folding
variable [Host] {g : Grammar} {project : Option String}

/-- Different names are different to the host. -/
def FoldsApart (names : List String) : Prop :=
  ∀ a ∈ names, ∀ b ∈ names, Host.fold a = Host.fold b → a = b

theorem fold_nodup_iff {names : List String} :
    (names.map Host.fold).Nodup ↔ names.Nodup ∧ FoldsApart names := by
  constructor
  · intro h
    exact ⟨h.of_map, fun a ha b hb => List.inj_on_of_nodup_map h ha hb⟩
  · rintro ⟨hnodup, hapart⟩
    exact (List.nodup_map_iff_inj_on hnodup).mpr hapart

end Folding

/-- Intents have distinct names, and the decoder has one case for each, exactly when no two keys of
the expressions are alike. Each then has a class of its own exactly when their names are different
to the host, and every name that the module binds keeps what it is bound to exactly when, besides,
those of the slots are, and none is one of the module's own. -/
theorem intent_names_distinct_iff [Host] [Listing] (source project : Option String) (text : String)
    (g : Grammar) (h : Context.grammar source text = .ok g) :
    ∃ d, Context.load source text = .ok d ∧
      ((g.intents.map (·.name)).Nodup ↔
        (Context.expressionKeys (Context.value d)).Pairwise fun a b => a.alike b = false) ∧
      (((g.toModule project).decoder.cases.map (·.intentName)).Nodup ↔
        (g.intents.map (·.name)).Nodup) ∧
      (((g.toModule project).sumType.variants.map fun v => Host.fold v.name).Nodup ↔
        (g.intents.map (·.name)).Nodup ∧ FoldsApart (g.intents.map (·.name))) ∧
      (((Text.boundNames (g.toModule project).code).map Host.fold).Nodup ↔
        (g.intents.map (·.name)).Nodup ∧
          FoldsApart (g.intents.map (·.name) ++ g.slots.map (·.name)) ∧
          ∀ name ∈ g.intents.map (·.name) ++ g.slots.map (·.name),
            Host.fold name ∉ TypedModule.ownNames) := by
  obtain ⟨d, hload, hbuilt⟩ := Context.grammar_eq_ok_iff.mp h
  obtain ⟨hapart, hnamed⟩ := intents_named hload hbuilt
  have hg := Grammar.wellFormed_of_ofValue hbuilt
  have hcases : (g.toModule project).decoder.cases.map (·.intentName) = g.intents.map (·.name) := by
    simp [Grammar.toModule, Intent.toCase]
  have hclasses : (g.toModule project).sumType.variants.map (fun v => Host.fold v.name) =
      (g.intents.map (·.name)).map Host.fold := by
    simp [Grammar.toModule, Intent.toVariant]
  refine ⟨d, hload, names_nodup_iff hapart hnamed, by rw [hcases], ?_, ?_⟩
  · rw [hclasses, fold_nodup_iff]
  · rw [fold_boundNames_nodup_iff hg, fold_nodup_iff, declared_nodup_iff hg, and_assoc]

section Clashes
attribute [local instance] Host.plain Listing.written

/-- A context with an intent under an infinity and one under the text of it. -/
def endlessContext : String :=
  "context:\n  expressions:\n    .inf: [a]\n    inf: [b]\n"

theorem endlessContext_names : ∃ g, Context.grammar none endlessContext = .ok g ∧
    g.intents.map (·.name) = ["inf", "inf"] := by
  have hnames : (Context.grammar none endlessContext).toOption.map
      (fun g => g.intents.map (·.name)) = some ["inf", "inf"] := by
    decide +kernel
  obtain ⟨g, hg, hnames⟩ := Option.map_eq_some_iff.mp hnames
  exact ⟨g, Stepwise.toOption_eq_some_iff.mp hg, hnames⟩

/-- A context with two intents whose names are one to a host that folds ligatures. -/
def ligatureContext : String :=
  "context:\n  expressions:\n    \ufb01: [a]\n    fi: [b]\n"

theorem ligatureContext_names : ∃ g, Context.grammar none ligatureContext = .ok g ∧
    g.intents.map (·.name) = ["\ufb01", "fi"] := by
  have hnames : (Context.grammar none ligatureContext).toOption.map
      (fun g => g.intents.map (·.name)) = some ["\ufb01", "fi"] := by
    decide +kernel
  obtain ⟨g, hg, hnames⟩ := Option.map_eq_some_iff.mp hnames
  exact ⟨g, Stepwise.toOption_eq_some_iff.mp hg, hnames⟩

/-- The first two intents have one name, and the module binds it twice. The others have two, and
one class. -/
theorem endlessContext_clash :
    (∃ g d, Context.grammar none endlessContext = .ok g ∧
      Context.load none endlessContext = .ok d ∧ ¬(g.intents.map (·.name)).Nodup ∧
      (¬(Context.expressionKeys (Context.value d)).Pairwise fun a b => a.alike b = false) ∧
      (¬((Text.boundNames (g.toModule none).code).map Host.fold).Nodup) ∧
      ¬((g.toModule none).decoder.cases.map (·.intentName)).Nodup) ∧
    ∃ g, Context.grammar none ligatureContext = .ok g ∧ (g.intents.map (·.name)).Nodup ∧
      ((g.toModule none).decoder.cases.map (·.intentName)).Nodup ∧
      ¬((g.toModule none).sumType.variants.map fun v => Host.fold v.name).Nodup := by
  constructor
  · obtain ⟨g, hg, hnames⟩ := endlessContext_names
    obtain ⟨d, hload, hkeys, hcases, _, hbound⟩ := intent_names_distinct_iff none none _ g hg
    have hclash : ¬(g.intents.map (·.name)).Nodup := by
      rw [hnames]
      decide
    exact ⟨g, d, hg, hload, hclash, hkeys.not.mp hclash, fun h => hclash (hbound.mp h).1,
      hcases.not.mpr hclash⟩
  · obtain ⟨g, hg, hnames⟩ := ligatureContext_names
    obtain ⟨_, _, _, hcases, hclasses, _⟩ := intent_names_distinct_iff none none _ g hg
    have hdistinct : (g.intents.map (·.name)).Nodup := by
      rw [hnames]
      decide
    refine ⟨g, hg, hdistinct, hcases.mpr hdistinct, fun h => ?_⟩
    have hapart := (hclasses.mp h).2
    rw [hnames] at hapart
    exact absurd (hapart "\ufb01" (by decide) "fi" (by decide) (by decide +kernel)) (by decide)

end Clashes

end VoiceIntents
