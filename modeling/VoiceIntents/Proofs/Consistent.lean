import VoiceIntents.Proofs.Acceptance
import VoiceIntents.Proofs.TopLevel

/-!
# Consistent grammars

What every grammar that is built keeps to: what is looked up by name is what has the name, all
names can stand in a module, and no name of the grammar is one that the module binds itself.
The module's own names are read off its text, so the names that the builder keeps free are
compared with the text that needs them.
-/

namespace VoiceIntents

open Identifier (escape Usable)

namespace TypedModule

/-- The names that every module binds itself: those of a module for which nothing is declared. -/
def ownNames : List String := Text.boundNames ((Grammar.mk [] [] none).toModule none).code

theorem wellFormed_empty : (Grammar.mk [] [] none).WellFormed := by
  constructor <;> simp

/-- A name of the module is kept free by the builder, or no name of a grammar begins like it. -/
theorem mem_moduleNames_of_mem_ownNames {name : String} (h : name ∈ ownNames) :
    name ∈ Identifier.moduleNames ∨ name.toList.head? = some '_' := by
  have hcovered : ∀ name ∈ ["annotations", "builtins", "Mapping", "dataclass", "Enum", "Any",
      "InferenceError", "UnknownIntentKind", "MissingRequiredSlot", "InvalidSlotValue", "Intent",
      "NotUnderstood", "decode", "from_inference", "_decode", "_optional_slot", "_required_slot"],
      name ∈ Identifier.moduleNames ∨ name.toList.head? = some '_' := by
    decide
  rw [ownNames, boundNames_code wellFormed_empty] at h
  exact hcovered name h

theorem ownNames_nodup : ownNames.Nodup := by
  rw [ownNames, boundNames_code wellFormed_empty]
  decide

end TypedModule

namespace Grammar

/-- All names that a grammar declares: of slots and their elements, of intents and their
variables. -/
def names (g : Grammar) : List String :=
  g.slots.map (·.name) ++ g.slots.flatMap Slot.names ++ g.intents.map (·.name)
    ++ g.intents.flatMap fun i => i.vars.map (·.name)

/-- The invariants of a grammar and of the module that is made of it. -/
structure Consistent (g : Grammar) : Prop extends g.WellFormed where
  elements_paired : ∀ s ∈ g.slots,
    s.names.length = s.words.length ∧ s.names = s.words.map escape
  slot_found : ∀ i ∈ g.intents, ∀ v ∈ i.vars, g.getSlot? v.slot.name = some v.slot
  variable_found : ∀ i ∈ g.intents, ∀ v ∈ i.vars, i.getVariable? v.name = some v
  names_plain : ∀ name ∈ g.names, Text.isIdentifier name.toList = true ∧
    name ∉ Identifier.reserved ∧ name.toList.head? ≠ some '_'
  own_names_free : ∀ name ∈ TypedModule.ownNames,
    name ∉ g.slots.map (·.name) ∧ name ∉ g.intents.map (·.name)
  names_bound : ∀ project, (Text.boundNames (g.toModule project).code).Perm
    (TypedModule.ownNames ++ (g.intents.map (·.name) ++ g.slots.map (·.name)))

namespace WellFormed
variable {g : Grammar}

theorem usable_of_mem_names (hg : g.WellFormed) {name : String} (h : name ∈ g.names) :
    Usable name := by
  simp only [names, List.mem_append, List.mem_map, List.mem_flatMap] at h
  rcases h with ((⟨s, hs, rfl⟩ | ⟨s, hs, hname⟩) | ⟨i, hi, rfl⟩) | ⟨i, hi, v, hv, rfl⟩
  · exact hg.slots_usable s hs
  · obtain ⟨e, he, rfl⟩ := List.mem_map.mp hname
    exact hg.elements_usable s hs e he
  · exact hg.intents_usable i hi
  · exact hg.vars_usable i hi v hv

/-- A usable name that the builder keeps off the names of modules is none of a module's own. -/
theorem not_mem_ownNames {name : String} (husable : Usable name)
    (hfree : name ∉ Identifier.moduleNames) : name ∉ TypedModule.ownNames := by
  intro hown
  rcases TypedModule.mem_moduleNames_of_mem_ownNames hown with h | h
  · exact hfree h
  · exact (Identifier.usable_iff.mp husable).2.2 h

theorem consistent (hg : g.WellFormed) : g.Consistent where
  toWellFormed := hg
  elements_paired := by
    intro s hs
    refine ⟨by simp [Slot.names, Slot.words], ?_⟩
    rw [Slot.names, Slot.words, List.map_map]
    apply List.map_congr_left
    intro e he
    exact (hg.elements_escaped s hs e he).symm
  slot_found := by
    intro i hi v hv
    exact (find?_key_eq_some_iff hg.slots_distinct).mpr ⟨hg.vars_slot i hi v hv, rfl⟩
  variable_found := by
    intro i hi v hv
    exact (find?_key_eq_some_iff (hg.vars_distinct i hi)).mpr ⟨hv, rfl⟩
  names_plain := fun name h => Identifier.usable_iff.mp (hg.usable_of_mem_names h)
  own_names_free := by
    intro name hown
    constructor
    · intro h
      obtain ⟨s, hs, rfl⟩ := List.mem_map.mp h
      exact not_mem_ownNames (hg.slots_usable s hs) (hg.slots_free s hs) hown
    · intro h
      obtain ⟨i, hi, rfl⟩ := List.mem_map.mp h
      exact not_mem_ownNames (hg.intents_usable i hi) (hg.intents_free i hi) hown
  names_bound := by
    intro project
    rw [TypedModule.ownNames, TypedModule.boundNames_code hg,
      TypedModule.boundNames_code TypedModule.wellFormed_empty, List.append_assoc]
    apply List.Perm.append_left
    rw [← List.append_assoc]
    exact List.perm_append_comm

end WellFormed

end Grammar

/-- Every grammar that is built is consistent. -/
theorem consistent_of_ofValue (source : Option String) (document : Value) (g : Grammar)
    (h : Grammar.ofValue source document = .ok g) : g.Consistent :=
  (Grammar.wellFormed_of_ofValue h).consistent

/-- The context of loops has a consistent grammar. -/
theorem loopContext_consistent :
    ∃ g, Grammar.ofValue none loopContext = .ok g ∧ g.Consistent :=
  ⟨_, rfl, consistent_of_ofValue none loopContext _ rfl⟩

end VoiceIntents
