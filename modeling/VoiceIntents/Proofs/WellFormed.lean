import Mathlib.Data.List.Nodup
import VoiceIntents.Proofs.Build
import VoiceIntents.Proofs.PhraseReferences

/-!
# Well-formed grammars

The invariants of the grammars that are built: what is looked up by name is found once, a
variable has its escaped name and a slot of the grammar, and names stay apart from those of
the generated module. They follow from the rules on outlines.
-/

namespace VoiceIntents

open Identifier (escape Usable)

section Keyed
variable {α : Type} {key : α → String} {items : List α}

/-- Where keys are distinct, a search finds the item of a key and no other. -/
theorem find?_key_eq_some_iff (hn : (items.map key).Nodup) {k : String} {a : α} :
    items.find? (fun b => key b = k) = some a ↔ a ∈ items ∧ key a = k := by
  constructor
  · intro h
    exact ⟨List.mem_of_find?_eq_some h, by simpa using List.find?_some h⟩
  · rintro ⟨ha, rfl⟩
    have hsome : (items.find? fun b => key b = key a).isSome = true :=
      List.find?_isSome.mpr ⟨a, ha, by simp⟩
    obtain ⟨b, hb⟩ := Option.isSome_iff_exists.mp hsome
    have hkey : key b = key a := by simpa using List.find?_some hb
    rw [hb, List.inj_on_of_nodup_map hn (List.mem_of_find?_eq_some hb) ha hkey]

/-- Where keys are distinct, an item is all that has its key. -/
theorem filter_key_eq_singleton (hn : (items.map key).Nodup) {a : α} (ha : a ∈ items) :
    items.filter (fun b => key b = key a) = [a] := by
  obtain ⟨before, after, rfl⟩ := List.append_of_mem ha
  have hother : ∀ b ∈ before ++ after, key b ≠ key a := by
    rw [List.map_append, List.map_cons, List.nodup_middle, List.nodup_cons, ← List.map_append] at hn
    intro b hb hkey
    exact hn.1 (List.mem_map.mpr ⟨b, hb, hkey⟩)
  have hnone (part : List α) (hpart : part ⊆ before ++ after) :
      part.filter (fun b => key b = key a) = [] := by
    rw [List.filter_eq_nil_iff]
    intro b hb
    simpa using hother b (hpart hb)
  rw [List.filter_append, List.filter_cons_of_pos (by simp), hnone before (by simp),
    hnone after (by simp), List.nil_append]

end Keyed

/-- A usable name is an identifier, no reserved word, and has no underscore in front. -/
theorem Identifier.usable_iff {name : String} :
    Usable name ↔ Text.isIdentifier name.toList = true ∧ name ∉ Identifier.reserved ∧
      name.toList.head? ≠ some '_' := by
  unfold Usable Identifier.problem? Identifier.isReserved
  by_cases hempty : name = ""
  · simp [hempty, Text.isIdentifier]
  by_cases hidentifier : Text.isIdentifier name.toList = true
  · by_cases hreserved : name ∈ Identifier.reserved <;> simp [hempty, hidentifier, hreserved]
  · simp [hempty, hidentifier]

/-- A usable name is no reserved word, so escaping leaves it. -/
theorem Identifier.Usable.escape_eq {name : String} (h : Usable name) : escape name = name := by
  have hreserved : name ∉ Identifier.reserved := (Identifier.usable_iff.mp h).2.1
  simp [escape, Identifier.isReserved, hreserved]

/-- Escaping adds no characters from beyond ASCII. -/
theorem Identifier.isAscii_escape {name : String} (h : Text.IsAscii name) :
    Text.IsAscii (escape name) := by
  have hreserved : ∀ word ∈ Identifier.reserved,
      (Identifier.capitalise word).toList.all (·.toNat < 128) = true := by
    decide
  unfold escape
  split
  next hname =>
      intro c hc
      have hall := hreserved name (by simpa [Identifier.isReserved] using hname)
      simpa using List.all_eq_true.mp hall c hc
  next => exact h

namespace Grammar

/-- The invariants of a grammar that later steps rely on. -/
structure WellFormed (g : Grammar) : Prop where
  slots_distinct : (g.slots.map (·.name)).Nodup
  slots_usable : ∀ s ∈ g.slots, Usable s.name
  slots_free : ∀ s ∈ g.slots, s.name ∉ Identifier.moduleNames
  elements_escaped : ∀ s ∈ g.slots, ∀ e ∈ s.elements, escape e.raw = e.name
  elements_usable : ∀ s ∈ g.slots, ∀ e ∈ s.elements, Usable e.name
  elements_allowed : ∀ s ∈ g.slots, ∀ e ∈ s.elements, e.name ≠ "mro"
  elements_distinct : ∀ s ∈ g.slots, s.names.Nodup
  words_distinct : ∀ s ∈ g.slots, s.words.Nodup
  intents_usable : ∀ i ∈ g.intents, Usable i.name
  intents_free : ∀ i ∈ g.intents, i.name ∉ Identifier.moduleNames
  intents_apart : ∀ i ∈ g.intents, i.name ∉ g.slots.map (·.name)
  vars_distinct : ∀ i ∈ g.intents, (i.vars.map (·.name)).Nodup
  vars_escaped : ∀ i ∈ g.intents, ∀ v ∈ i.vars, escape v.rawName = v.name
  vars_usable : ∀ i ∈ g.intents, ∀ v ∈ i.vars, Usable v.name
  vars_slot : ∀ i ∈ g.intents, ∀ v ∈ i.vars, v.slot ∈ g.slots
  vars_ascii : ∀ i ∈ g.intents, ∀ v ∈ i.vars, Text.IsAscii v.name ∧ Text.IsAscii v.slot.name

end Grammar

namespace Outline

theorem slotNamed_mem {slots : List Slot} {name : String} (h : name ∈ slots.map (·.name)) :
    slotNamed slots name ∈ slots := by
  obtain ⟨slot, hslot, hname⟩ := List.mem_map.mp h
  unfold slotNamed
  cases hfound : slots.find? (·.name = name) with
  | none =>
      rw [List.find?_eq_none] at hfound
      exact absurd hname (by simpa using hfound slot hslot)
  | some found => exact List.mem_of_find?_eq_some hfound

/-- A variable comes from a reference in a phrase of its intent. -/
theorem exists_reference_of_mem_vars {slots : List Slot} {entry : String × List String}
    {v : Variable} (h : v ∈ (toIntent slots entry).vars) :
    ∃ phrase ∈ entry.2, ∃ r ∈ references phrase, v = toVariable slots entry.2 r := by
  obtain ⟨r, hr, rfl⟩ := List.mem_map.mp h
  obtain ⟨phrase, hphrase, hr⟩ := List.mem_flatMap.mp (mem_of_mem_firstsBy hr)
  exact ⟨phrase, hphrase, r, hr, rfl⟩

/-- A well-declared outline has a well-formed grammar. -/
theorem WellDeclared.wellFormed {o : Outline} (h : o.WellDeclared) (source : Option String) :
    (o.grammar source).WellFormed where
  slots_distinct := by
    simp only [grammar, Grammar.map_toSlot_name]
    exact h.slots_distinct
  slots_usable := by
    intro s hs
    obtain ⟨entry, hentry, rfl⟩ := List.mem_map.mp hs
    exact (h.slots entry hentry).name_usable
  slots_free := by
    intro s hs
    obtain ⟨entry, hentry, rfl⟩ := List.mem_map.mp hs
    exact h.slots_free _ (List.mem_map_of_mem hentry)
  elements_escaped := by
    intro s hs e he
    obtain ⟨entry, _, rfl⟩ := List.mem_map.mp hs
    obtain ⟨word, _, rfl⟩ := List.mem_map.mp he
    rfl
  elements_usable := by
    intro s hs e he
    obtain ⟨entry, hentry, rfl⟩ := List.mem_map.mp hs
    obtain ⟨word, hword, rfl⟩ := List.mem_map.mp he
    exact (h.slots entry hentry).words_usable word hword
  elements_allowed := by
    intro s hs e he
    obtain ⟨entry, hentry, rfl⟩ := List.mem_map.mp hs
    obtain ⟨word, hword, rfl⟩ := List.mem_map.mp he
    exact (h.slots entry hentry).words_allowed word hword
  elements_distinct := by
    intro s hs
    obtain ⟨entry, hentry, rfl⟩ := List.mem_map.mp hs
    simp only [Slot.names, toSlot, List.map_map]
    exact (h.slots entry hentry).words_distinct
  words_distinct := by
    intro s hs
    obtain ⟨entry, hentry, rfl⟩ := List.mem_map.mp hs
    have hwords : (toSlot entry).words = entry.2 := by
      simp [Slot.words, toSlot, Function.comp_def]
    rw [hwords]
    exact (h.slots entry hentry).words_distinct.of_map
  intents_usable := by
    intro i hi
    obtain ⟨entry, hentry, rfl⟩ := List.mem_map.mp hi
    exact (h.intents entry hentry).name_usable
  intents_free := by
    intro i hi
    obtain ⟨entry, hentry, rfl⟩ := List.mem_map.mp hi
    exact h.intents_free _ (List.mem_map_of_mem hentry)
  intents_apart := by
    intro i hi
    obtain ⟨entry, hentry, rfl⟩ := List.mem_map.mp hi
    simp only [grammar, Grammar.map_toSlot_name]
    exact h.intents_apart _ (List.mem_map_of_mem hentry)
  vars_distinct := by
    intro i hi
    obtain ⟨entry, hentry, rfl⟩ := List.mem_map.mp hi
    simp only [toIntent, List.map_map]
    exact firstsBy_keys_nodup Reference.variableName _
  vars_escaped := by
    intro i hi v hv
    obtain ⟨entry, _, rfl⟩ := List.mem_map.mp hi
    obtain ⟨_, _, r, _, rfl⟩ := exists_reference_of_mem_vars hv
    rfl
  vars_usable := by
    intro i hi v hv
    obtain ⟨entry, hentry, rfl⟩ := List.mem_map.mp hi
    obtain ⟨phrase, hphrase, r, hr, rfl⟩ := exists_reference_of_mem_vars hv
    exact ((h.intents entry hentry).phrases phrase hphrase).variables_usable r hr
  vars_slot := by
    intro i hi v hv
    obtain ⟨entry, hentry, rfl⟩ := List.mem_map.mp hi
    obtain ⟨phrase, hphrase, r, hr, rfl⟩ := exists_reference_of_mem_vars hv
    have hdeclared := ((h.intents entry hentry).phrases phrase hphrase).slots_declared r hr
    apply slotNamed_mem
    change r.slotName ∈ (o.slots.map toSlot).map (·.name)
    rw [Grammar.map_toSlot_name]
    exact hdeclared
  vars_ascii := by
    intro i hi v hv
    obtain ⟨entry, _, rfl⟩ := List.mem_map.mp hi
    obtain ⟨phrase, _, r, hr, rfl⟩ := exists_reference_of_mem_vars hv
    obtain ⟨hslot, hname⟩ := Reference.isWord_of_mem_scan hr
    refine ⟨Identifier.isAscii_escape hname.isAscii, ?_⟩
    rw [toVariable, Grammar.slotNamed_name]
    exact Identifier.isAscii_escape hslot.isAscii

end Outline

/-- Every grammar that is built is well formed. -/
theorem Grammar.wellFormed_of_ofValue {source : Option String} {document : Value} {g : Grammar}
    (h : ofValue source document = .ok g) : g.WellFormed := by
  obtain ⟨o, _, hrules, rfl⟩ := ofValue_eq_ok_iff.mp h
  exact hrules.wellFormed source

end VoiceIntents
