import VoiceIntents.Proofs.DeclarationOrder
import VoiceIntents.Proofs.Encoding
import VoiceIntents.Proofs.Warnings

/-!
# Which intents can be obtained

An intent is obtained if there are words to report for which it is decoded. This takes an element
for each required variable, so a required variable of an empty slot makes its intent a dead one,
of which no error tells. Where no slot is empty, every element of every variable is obtained. All
this is for modules that load; from the others nothing is obtained.
-/

namespace VoiceIntents

/-- The slots of an inference that reports words under names. -/
def reportedSlots (words : List (String × String)) : List (Scalar × Value) :=
  words.map fun w => (.text w.1, .text w.2)

namespace Grammar
variable [Host]

/-- The module of a grammar loads and decodes an inference to a value. -/
def Decoded (g : Grammar) (project : Option String) (understood intent : Value)
    (slots : List (Scalar × Value)) (t : TypedIntent) : Prop :=
  (g.toModule project).loads = true ∧
    (g.toModule project).decode understood intent (.map slots) = .ok t

/-- A value is decoded from words that are reported under different names. -/
def Obtains (g : Grammar) (project : Option String) (understood intent : Value)
    (t : TypedIntent) : Prop :=
  ∃ words : List (String × String), (words.map (·.1)).Nodup ∧
    g.Decoded project understood intent (reportedSlots words) t

end Grammar

namespace Intent

/-- Every required variable has an element to choose. -/
def Fillable (i : Intent) : Prop := ∀ v ∈ i.required, v.slot.elements ≠ []

instance (i : Intent) : Decidable i.Fillable :=
  inferInstanceAs (Decidable (∀ v ∈ i.required, v.slot.elements ≠ []))

/-- Elements are chosen from the slots of the variables, at least for the required ones. -/
structure Chooses (i : Intent) (pick : Variable → Option Element) : Prop where
  offered : ∀ v ∈ i.vars, ∀ e, pick v = some e → e ∈ v.slot.elements
  complete : ∀ v ∈ i.vars, pick v = none → v.required = false

/-- The value with the chosen elements. -/
def chosen [Host] (i : Intent) (pick : Variable → Option Element) : TypedIntent :=
  { variant := Host.fold i.name
    fields := i.vars.map fun v =>
      (v.name, (pick v).map fun e => ⟨v.slot.name, Host.fold e.name, e.raw⟩) }

/-- The words of the chosen elements, each under the name of its variable as written. -/
def chosenWords (i : Intent) (pick : Variable → Option Element) : List (String × String) :=
  i.vars.filterMap fun v => (pick v).map fun e => (v.rawName, e.raw)

end Intent

section Choice
variable {g : Grammar} {i : Intent} {pick : Variable → Option Element}

theorem chosenWords_sublist :
    ((i.chosenWords pick).map (·.1)).Sublist (i.vars.map (·.rawName)) := by
  rw [Intent.chosenWords]
  generalize i.vars = vars
  induction vars with
  | nil => exact .slnil
  | cons v rest ih =>
      rw [List.filterMap_cons, List.map_cons]
      cases pick v with
      | none => exact ih.cons v.rawName
      | some e => exact ih.cons_cons v.rawName

/-- No two variables are written in one way, as they would have one identifier. -/
theorem chosenWords_nodup (hg : g.WellFormed) (hi : i ∈ g.intents) :
    ((i.chosenWords pick).map (·.1)).Nodup := by
  have hnames : (i.vars.map (·.rawName)).map Identifier.escape = i.vars.map (·.name) := by
    rw [List.map_map]
    exact List.map_congr_left (hg.vars_escaped i hi)
  apply List.Nodup.sublist chosenWords_sublist
  apply List.Nodup.of_map Identifier.escape
  rw [hnames]
  exact hg.vars_distinct i hi

/-- The first element of each slot will do. -/
theorem chooses_first (h : i.Fillable) : i.Chooses fun v => v.slot.elements.head? where
  offered := fun v _ e he => List.mem_of_mem_head? he
  complete := by
    intro v hv hnone
    rw [List.head?_eq_none_iff] at hnone
    by_contra hrequired
    exact h v (List.mem_filter.mpr ⟨hv, by simpa using hrequired⟩) hnone

/-- The choice for one variable can be changed to any element of its slot. -/
theorem Intent.Chooses.update (h : i.Chooses pick) {v : Variable} {e : Element}
    (he : e ∈ v.slot.elements) : i.Chooses (Function.update pick v (some e)) where
  offered := by
    intro w hw e' hpick
    by_cases hsame : w = v
    · subst hsame
      rw [Function.update_self, Option.some.injEq] at hpick
      exact hpick ▸ he
    · rw [Function.update_of_ne hsame] at hpick
      exact h.offered w hw e' hpick
  complete := by
    intro w hw hpick
    by_cases hsame : w = v
    · subst hsame
      simp at hpick
    · rw [Function.update_of_ne hsame] at hpick
      exact h.complete w hw hpick

variable [Host]

theorem chosen_wellTyped (h : i.Chooses pick) : i.WellTyped (i.chosen pick) := by
  refine ⟨rfl, ?_⟩
  rw [Intent.chosen, List.forall₂_map_right_iff]
  apply List.forall₂_same.mpr
  intro v hv
  refine ⟨rfl, ?_⟩
  cases hpick : pick v with
  | none => exact .absent (h.complete v hv hpick)
  | some e => exact .member (h.offered v hv e hpick)

theorem written_chosen :
    i.written Variable.rawName (i.chosen pick) = reportedSlots (i.chosenWords pick) := by
  rw [Intent.written, Intent.chosen, reportedSlots, Intent.chosenWords, List.map_filterMap]
  generalize i.vars = vars
  induction vars with
  | nil => rfl
  | cons v rest ih =>
      rw [List.map_cons, List.zip_cons_cons, List.filterMap_cons, List.filterMap_cons, ih]
      cases pick v with
      | none => rfl
      | some e => rfl

/-- Where a module loads, what is chosen is obtained. -/
theorem obtains_chosen {project : Option String} (hg : g.WellFormed)
    (hn : (g.intents.map (·.name)).Nodup) (hloadable : g.Loadable project) (hi : i ∈ g.intents)
    (h : i.Chooses pick) :
    g.Obtains project (.bool true) (.text i.name) (i.chosen pick) := by
  refine ⟨i.chosenWords pick, chosenWords_nodup hg hi, (loads_iff hg).mpr hloadable, ?_⟩
  apply decode_encoding hg hloadable hn hi (chosen_wellTyped h)
  refine ⟨Variable.rawName, fun v _ => by simp [Variable.names], ?_⟩
  intro v _ name _
  rw [written_chosen]

/-- What is decoded at all has elements for its required variables. -/
theorem Grammar.Decoded.fillable {project : Option String} {slots : List (Scalar × Value)}
    {t : TypedIntent} (hg : g.WellFormed) (hn : (g.intents.map (·.name)).Nodup)
    (hi : i ∈ g.intents) (h : g.Decoded project (.bool true) (.text i.name) slots t) :
    i.Fillable := by
  obtain ⟨fields, hfields, _⟩ :=
    (decodes_intent_ok_iff hn hi rfl).mp ((decode_eq_iff hg ((loads_iff hg).mp h.1) hn).mp h.2)
  intro v hv
  obtain ⟨hvars, hrequired⟩ := List.mem_filter.mp hv
  obtain ⟨field, _, _, hfills⟩ := Stepwise.exists_of_forall₂ hfields hvars
  generalize field.2 = x at hfills
  cases hfills with
  | absent _ hoptional => simp [hoptional] at hrequired
  | member he _ => exact List.ne_nil_of_mem he

theorem lookup_chosen (hg : g.WellFormed) (hi : i ∈ g.intents) {v : Variable} (hv : v ∈ i.vars) :
    (i.chosen pick).fields.lookup v.name =
      some ((pick v).map fun e => ⟨v.slot.name, Host.fold e.name, e.raw⟩) := by
  have hdistinct : ((i.chosen pick).fields.map (·.1)).Nodup := by
    rw [Intent.chosen, List.map_map]
    exact hg.vars_distinct i hi
  exact lookup_of_mem hdistinct (List.mem_map_of_mem hv)

end Choice

section Obtained
variable {g : Grammar}

/-- Without empty slots every intent can be filled. -/
theorem fillable_of_no_warning (hg : g.WellFormed) (h : ∀ s ∈ g.slots, .emptySlot s.name ∉ g.lint)
    {i : Intent} (hi : i ∈ g.intents) : i.Fillable := by
  intro v hv hempty
  have hs : v.slot ∈ g.slots := hg.vars_slot i hi v (List.mem_of_mem_filter hv)
  exact h v.slot hs (emptySlot_mem_lint_iff.mpr ⟨v.slot, hs, rfl, hempty⟩)

variable [Host] {project : Option String}

theorem Grammar.Decoded.loadable {understood intent : Value} {slots : List (Scalar × Value)}
    {t : TypedIntent} (hg : g.WellFormed) (h : g.Decoded project understood intent slots t) :
    g.Loadable project :=
  (loads_iff hg).mp h.1

theorem Grammar.Obtains.loadable {understood intent : Value} {t : TypedIntent} (hg : g.WellFormed)
    (h : g.Obtains project understood intent t) : g.Loadable project := by
  obtain ⟨_, _, hdecoded⟩ := h
  exact hdecoded.loadable hg

/-- Nothing is needed to obtain the sentinel. -/
theorem obtains_sentinel (hg : g.WellFormed) (hn : (g.intents.map (·.name)).Nodup)
    (hloadable : g.Loadable project) :
    g.Obtains project (.bool false) .null ⟨"NotUnderstood", []⟩ := by
  refine ⟨[], List.nodup_nil, (loads_iff hg).mpr hloadable, ?_⟩
  exact (decode_eq_iff hg hloadable hn).mpr (.notUnderstood rfl)

end Obtained

/-- An intent of a grammar that was built is decoded from some slots exactly when the module loads
and every required variable has an element to choose, and then from words under different names.
If no slot is warned of for having no elements, then every variant is obtained, and so is every
element of every variable, exactly when the module loads. -/
theorem obtainable_iff [Host] (source project : Option String) (document : Value) (g : Grammar)
    (hbuilt : Grammar.ofValue source document = .ok g)
    (hn : (g.intents.map (·.name)).Nodup) :
    (∀ i ∈ g.intents,
      ((∃ slots t, g.Decoded project (.bool true) (.text i.name) slots t) ↔
        g.Loadable project ∧ i.Fillable) ∧
      ((∃ t, g.Obtains project (.bool true) (.text i.name) t) ↔ g.Loadable project ∧ i.Fillable)) ∧
    ((∀ s ∈ g.slots, .emptySlot s.name ∉ g.lint) →
      (∀ variant ∈ (g.toModule project).sumType.sentinel ::
          (g.toModule project).sumType.variants,
        (∃ understood intent t, g.Obtains project understood intent t ∧
          t.variant = Host.fold variant.name) ↔ g.Loadable project) ∧
      ∀ i ∈ g.intents, ∀ v ∈ i.vars, ∀ e ∈ v.slot.elements,
        (∃ t, g.Obtains project (.bool true) (.text i.name) t ∧
            t.variant = Host.fold i.name ∧
            t.fields.lookup v.name = some (some ⟨v.slot.name, Host.fold e.name, e.raw⟩)) ↔
          g.Loadable project) := by
  have hg := Grammar.wellFormed_of_ofValue hbuilt
  have hobtains {i : Intent} (hi : i ∈ g.intents) {pick : Variable → Option Element}
      (hloadable : g.Loadable project) (hpick : i.Chooses pick) :=
    obtains_chosen hg hn hloadable hi hpick
  refine ⟨fun i hi => ?_, fun hfull => ⟨?_, ?_⟩⟩
  · have hneeds (slots : List (Scalar × Value)) (t : TypedIntent)
        (h : g.Decoded project (.bool true) (.text i.name) slots t) :
        g.Loadable project ∧ i.Fillable :=
      ⟨h.loadable hg, h.fillable hg hn hi⟩
    have hfirst (h : g.Loadable project ∧ i.Fillable) := hobtains hi h.1 (chooses_first h.2)
    refine ⟨⟨fun ⟨slots, t, h⟩ => hneeds slots t h, fun h => ?_⟩,
      ⟨fun ⟨t, words, _, h⟩ => hneeds _ t h, fun h => ⟨_, hfirst h⟩⟩⟩
    obtain ⟨words, _, hdecoded⟩ := hfirst h
    exact ⟨_, _, hdecoded⟩
  · intro variant hvariant
    refine ⟨fun ⟨_, _, _, hobtained, _⟩ => hobtained.loadable hg, fun hloadable => ?_⟩
    rcases List.mem_cons.mp hvariant with rfl | hvariant
    · exact ⟨_, _, _, obtains_sentinel hg hn hloadable, fold_sentinel.symm⟩
    · obtain ⟨i, hi, rfl⟩ := List.mem_map.mp hvariant
      have hfirst := chooses_first (fillable_of_no_warning hg hfull hi)
      exact ⟨_, _, _, hobtains hi hloadable hfirst, rfl⟩
  · intro i hi v hv e he
    refine ⟨fun ⟨_, hobtained, _⟩ => hobtained.loadable hg, fun hloadable => ?_⟩
    have hfirst := chooses_first (fillable_of_no_warning hg hfull hi)
    refine ⟨_, hobtains hi hloadable (hfirst.update he), rfl, ?_⟩
    rw [lookup_chosen hg hi hv, Function.update_self]
    rfl

/-- A context with a slot that is still empty. One intent cannot do without it. -/
def idleContext : Value :=
  contextWith
    [(.text "State", .list [.text "on", .text "off"]), (.text "Tool", .null)]
    [(.text "Set", .list [.text "set $State:to", .text "set $State:to by $Tool:with"]),
      (.text "Use", .list [.text "use $Tool:with"])]

def idleGrammar : Grammar :=
  { intents :=
      [⟨"Set", [⟨"to", "to", stateSlot, true⟩, ⟨"With", "with", toolSlot, false⟩],
          ["set $State:to", "set $State:to by $Tool:with"]⟩,
        ⟨"Use", [⟨"With", "with", toolSlot, true⟩], ["use $Tool:with"]⟩]
    slots := [stateSlot, toolSlot]
    source := none }

theorem idleGrammar_loadable [Host] : idleGrammar.Loadable none := by
  have hbuilt : Grammar.ofValue none idleContext = .ok idleGrammar := rfl
  have hascii : ∀ name ∈ idleGrammar.names, Text.IsAscii name := by decide
  exact (Grammar.wellFormed_of_ofValue hbuilt).loadable_of_isAscii (by decide) hascii (by decide)
    (by simp [idleGrammar]) (by simp)

section Runs
attribute [local instance] Host.plain

/-- Without tools the one intent is obtained and the other never; the room of the lamp is obtained
with its element; and nothing is obtained from the modules that do not load, although all their
variables can be filled. -/
theorem idle_obtained :
    Grammar.ofValue none idleContext = .ok idleGrammar ∧
    (∃ t, idleGrammar.Obtains none (.bool true) (.text "Set") t) ∧
    (¬∃ slots t, idleGrammar.Decoded none (.bool true) (.text "Use") slots t) ∧
    (∃ t, lampGrammar.Obtains none (.bool true) (.text "Turn") t ∧ t.variant = "Turn" ∧
      t.fields.lookup "Class" = some (some ⟨"Room", "With", "with"⟩)) ∧
    swap.Fillable ∧
    (¬∃ slots t, orderGrammar.Decoded none (.bool true) (.text "Swap") slots t) ∧
    ¬∃ slots t, ligatureGrammar.Decoded none (.bool true) (.text "Spell") slots t := by
  have hidle : Grammar.ofValue none idleContext = .ok idleGrammar := rfl
  have hligature : Grammar.ofValue none ligatureDocument = .ok ligatureGrammar :=
    Stepwise.toOption_eq_some_iff.mp (by decide +kernel)
  obtain ⟨hintents, _⟩ := obtainable_iff none none idleContext idleGrammar hidle (by decide)
  obtain ⟨_, hfull⟩ := obtainable_iff none none lampContext lampGrammar rfl (by decide)
  obtain ⟨horder, _⟩ := obtainable_iff none none orderContext orderGrammar rfl (by decide)
  obtain ⟨hspell, _⟩ := obtainable_iff none none _ ligatureGrammar hligature (by decide)
  obtain ⟨_, hmembers⟩ := hfull (by decide)
  refine ⟨hidle, ?_, ?_, ?_, by decide, ?_, ?_⟩
  · exact (hintents _ List.mem_cons_self).2.mpr ⟨idleGrammar_loadable, by decide⟩
  · have huse := (hintents _ (List.mem_cons_of_mem _ List.mem_cons_self)).1
    intro hdecoded
    exact absurd (huse.mp hdecoded).2 (by decide)
  · obtain ⟨t, hobtains, hvariant, hfield⟩ := (hmembers turn List.mem_cons_self
      ⟨"Class", "class", roomSlot, false⟩ (by decide) ⟨"With", "with"⟩ (by decide)).mpr
      lampGrammar_loadable
    exact ⟨t, hobtains, hvariant.trans (by decide +kernel), hfield.trans (by decide +kernel)⟩
  · intro hdecoded
    have hl := ((horder swap List.mem_cons_self).1.mp hdecoded).1
    exact absurd (hl.variables_ordered swap List.mem_cons_self) (by decide)
  · intro hdecoded
    have hl := ((hspell _ List.mem_cons_self).1.mp hdecoded).1
    exact absurd (hl.elements_apart letterSlot List.mem_cons_self) (by decide +kernel)

end Runs

end VoiceIntents
