import VoiceIntents.Proofs.Decoder
import VoiceIntents.Proofs.TopLevel

/-!
# Decoded values and declared types

A module declares its types and its decoder apart. Whatever the decoder returns is a value of
the declared types, for every inference: it belongs to one declared class, has the fields of
that class in their order, and each field holds what its annotation says. The names of the value
are those that the host takes the declared ones for, so it is a value of the types as they are
declared only where the host leaves the names that occur in it.
-/

namespace VoiceIntents

open Identifier (Usable)

namespace TypedModule

/-- The values that a module allows for a field, with its names taken in some way: nothing if the
field is optional, or a member of the one enumeration that its type names. -/
inductive Allows (m : TypedModule) (taken : String → String) (f : Field) : Option EnumValue → Prop
  | absent (hoptional : f.optional = true) : Allows m taken f none
  | member {e : EnumType} {x : EnumMember}
      (hdeclared : m.enums.filter (·.name = f.typeName) = [e]) (hx : x ∈ e.members) :
      Allows m taken f (some ⟨taken f.typeName, taken x.name, x.value⟩)

/-- A value of the type of intents that answers to an intent, with names taken in some way: it is
of one declared class, the sentinel or the variant that the intent names, and has the fields of the
class in order. -/
def Conforms (m : TypedModule) (taken : String → String) (intent : Value) (t : TypedIntent) :
    Prop :=
  ∃ v, (m.sumType.sentinel :: m.sumType.variants).filter (fun v => taken v.name = t.variant) = [v] ∧
    (v = m.sumType.sentinel ∨ v ∈ m.sumType.variants ∧ intent = .text v.name) ∧
    List.Forall₂ (fun f field => field.1 = taken f.name ∧ m.Allows taken f field.2)
      v.fields t.fields

end TypedModule

/-- The host leaves the names that occur in the answer to an inference: that of the intent and those
of the elements that are given. -/
def Grammar.KeepsNames [Host] (g : Grammar) (understood intent : Value)
    (slots : List (Scalar × Value)) : Prop :=
  understood.isEmpty = false → ∀ i ∈ g.intents, intent = .text i.name →
    Host.fold i.name = i.name ∧
      ∀ v ∈ i.vars, ∀ e ∈ v.slot.elements, v.given slots = some (.text e.raw) →
        Host.fold e.name = e.name

section Types
variable {g : Grammar}

theorem filter_enums (project : Option String) (hg : g.WellFormed) {s : Slot} (hs : s ∈ g.slots) :
    (g.toModule project).enums.filter (·.name = s.name) = [s.toEnum] := by
  have hdistinct : ((g.toModule project).enums.map (·.name)).Nodup := by
    simpa [Grammar.toModule, Function.comp_def, Slot.toEnum] using hg.slots_distinct
  exact filter_key_eq_singleton hdistinct (List.mem_map_of_mem hs)

variable [Host] {project : Option String} {slots : List (Scalar × Value)}

/-- What fills a variable is allowed for its field. -/
theorem allows_of_fills (hg : g.WellFormed) {i : Intent} (hi : i ∈ g.intents) {v : Variable}
    (hv : v ∈ i.vars) {x : Option EnumValue} (h : v.Fills slots x) :
    (g.toModule project).Allows Host.fold v.toField x := by
  cases h with
  | absent _ hoptional => exact .absent (by simp [Variable.toField, hoptional])
  | @member e he _ =>
      have hdeclared := filter_enums project hg (hg.vars_slot i hi v hv)
      have hx : (⟨e.name, e.raw⟩ : EnumMember) ∈ v.slot.toEnum.members :=
        List.mem_map.mpr ⟨e, he, rfl⟩
      have hallows : (g.toModule project).Allows Host.fold v.toField _ := .member hdeclared hx
      rwa [show Host.fold v.toField.typeName = v.slot.name from fold_slot hg hi hv] at hallows

theorem filter_classes (hl : g.Loadable project) {v : Variant}
    (hv : v ∈ (g.toModule project).sumType.sentinel :: (g.toModule project).sumType.variants) :
    ((g.toModule project).sumType.sentinel :: (g.toModule project).sumType.variants).filter
      (fun w => Host.fold w.name = Host.fold v.name) = [v] := by
  have hdistinct : (((g.toModule project).sumType.sentinel ::
      (g.toModule project).sumType.variants).map fun w => Host.fold w.name).Nodup := by
    rw [← List.nodup_reverse, ← List.map_reverse]
    exact variants_distinct hl
  exact filter_key_eq_singleton hdistinct hv

/-- An answer of a grammar is a value of the types of its module, as the host takes their names. -/
theorem conforms_of_decodes (hg : g.WellFormed) (hl : g.Loadable project)
    {understood intent : Value} {t : TypedIntent}
    (h : g.Decodes understood intent slots (.ok t)) :
    (g.toModule project).Conforms Host.fold intent t := by
  cases h with
  | notUnderstood _ =>
      have hsentinel := filter_classes hl List.mem_cons_self
      refine ⟨_, ?_, .inl rfl, .nil⟩
      rwa [show Host.fold (g.toModule project).sumType.sentinel.name = "NotUnderstood" from
        fold_sentinel] at hsentinel
  | @typed _ i hi hname fields hfields =>
      have hvariant : i.toVariant ∈ (g.toModule project).sumType.variants :=
        List.mem_map_of_mem hi
      refine ⟨i.toVariant, filter_classes hl (List.mem_cons_of_mem _ hvariant),
        .inr ⟨hvariant, hname⟩, ?_⟩
      rw [Intent.toVariant, List.forall₂_map_left_iff]
      obtain ⟨hlength, hfills⟩ := List.forall₂_iff_zip.mp hfields
      refine List.forall₂_iff_zip.mpr ⟨hlength, ?_⟩
      intro v field hpair
      have hv : v ∈ i.vars := (List.of_mem_zip hpair).1
      obtain ⟨hfield, hfill⟩ := hfills hpair
      exact ⟨hfield.trans (fold_variable hg hi hv).symm, allows_of_fills hg hi hv hfill⟩

/-- A variable is filled with a value that is allowed as it is declared exactly when the host leaves
the name of the element that it is given. -/
theorem allows_id_iff (hg : g.WellFormed) {i : Intent} (hi : i ∈ g.intents) {v : Variable}
    (hv : v ∈ i.vars) {x : Option EnumValue} (h : v.Fills slots x) :
    (g.toModule project).Allows id v.toField x ↔
      ∀ e ∈ v.slot.elements, v.given slots = some (.text e.raw) → Host.fold e.name = e.name := by
  have hslot := hg.vars_slot i hi v hv
  have hdeclared := filter_enums project hg hslot
  cases h with
  | absent hgiven hoptional =>
      refine iff_of_true (.absent (by simp [Variable.toField, hoptional])) ?_
      simp [hgiven]
  | @member e he hgiven =>
      have hsame (e' : Element) (he' : e' ∈ v.slot.elements) (hraw : e'.raw = e.raw) : e' = e :=
        List.inj_on_of_nodup_map (hg.words_distinct _ hslot) he' he hraw
      constructor
      · intro hallows e' he' hgiven'
        rw [hgiven, Option.some.injEq] at hgiven'
        rw [hsame e' he' (Scalar.text.inj (Value.scalar.inj hgiven')).symm]
        generalize hx : some (EnumValue.mk v.slot.name (Host.fold e.name) e.raw) = x at hallows
        cases hallows with
        | absent => cases hx
        | @member enum m hfound hm =>
            obtain rfl : enum = v.slot.toEnum := by
              simpa using (hfound.symm.trans hdeclared : [enum] = [v.slot.toEnum])
            obtain ⟨e', he', rfl⟩ := List.mem_map.mp hm
            simp only [Option.some.injEq, EnumValue.mk.injEq] at hx
            rw [hx.2.1, hsame e' he' hx.2.2.symm]
            rfl
      · intro hkeeps
        rw [hkeeps e he hgiven]
        exact .member (x := ⟨e.name, e.raw⟩) hdeclared (List.mem_map.mpr ⟨e, he, rfl⟩)

theorem filter_spelled (hl : g.Loadable project) {v : Variant}
    (hv : v ∈ (g.toModule project).sumType.sentinel :: (g.toModule project).sumType.variants) :
    ((g.toModule project).sumType.sentinel :: (g.toModule project).sumType.variants).filter
      (·.name = v.name) = [v] := by
  have hdistinct : (((g.toModule project).sumType.sentinel ::
      (g.toModule project).sumType.variants).map (·.name)).Nodup := by
    apply List.Nodup.of_map Host.fold
    rw [List.map_map, ← List.nodup_reverse, ← List.map_reverse]
    exact variants_distinct hl
  exact filter_key_eq_singleton hdistinct hv

/-- The value of an intent is one of the types as they are declared exactly when the host leaves the
name of the intent and those of the elements that are given. -/
theorem conforms_id_typed_iff (hg : g.WellFormed) (hl : g.Loadable project)
    (hn : (g.intents.map (·.name)).Nodup) {i : Intent} (hi : i ∈ g.intents)
    {fields : List (String × Option EnumValue)}
    (hfields : List.Forall₂ (fun v field => field.1 = v.name ∧ v.Fills slots field.2)
      i.vars fields) :
    (g.toModule project).Conforms id (.text i.name) ⟨Host.fold i.name, fields⟩ ↔
      Host.fold i.name = i.name ∧ ∀ v ∈ i.vars, ∀ e ∈ v.slot.elements,
        v.given slots = some (.text e.raw) → Host.fold e.name = e.name := by
  obtain ⟨hlength, hfills⟩ := List.forall₂_iff_zip.mp hfields
  have hvariant : i.toVariant ∈ (g.toModule project).sumType.variants := List.mem_map_of_mem hi
  constructor
  · rintro ⟨w, hfilter, hwhich, hallowed⟩
    have hname : w.name = Host.fold i.name := by
      have hw := (List.mem_filter.mp (hfilter ▸ List.mem_singleton_self w)).2
      simpa using hw
    obtain rfl : w = i.toVariant := by
      rcases hwhich with rfl | ⟨hw, hintent⟩
      · have hne := fold_ne_sentinel hl (List.mem_append_left _ (List.mem_map_of_mem hi))
        rw [fold_sentinel] at hne
        exact absurd hname.symm hne
      · obtain ⟨j, hj, rfl⟩ := List.mem_map.mp hw
        rw [eq_of_text_eq hn hi hj hintent]
    refine ⟨hname.symm, ?_⟩
    rw [Intent.toVariant, List.forall₂_map_left_iff] at hallowed
    obtain ⟨_, hallowed⟩ := List.forall₂_iff_zip.mp hallowed
    have hboth : List.Forall₂ (fun v field => v.Fills slots field.2 ∧
        (g.toModule project).Allows id v.toField field.2) i.vars fields :=
      List.forall₂_iff_zip.mpr ⟨hlength, fun hpair =>
        ⟨(hfills hpair).2, (hallowed hpair).2⟩⟩
    intro v hv
    obtain ⟨_, _, hfill, hallows⟩ := Stepwise.exists_of_forall₂ hboth hv
    exact (allows_id_iff hg hi hv hfill).mp hallows
  · rintro ⟨hname, hkeeps⟩
    refine ⟨i.toVariant, ?_, .inr ⟨hvariant, rfl⟩, ?_⟩
    · rw [hname]
      exact filter_spelled hl (List.mem_cons_of_mem _ hvariant)
    · rw [Intent.toVariant, List.forall₂_map_left_iff]
      refine List.forall₂_iff_zip.mpr ⟨hlength, fun hpair => ⟨(hfills hpair).1, ?_⟩⟩
      have hv := (List.of_mem_zip hpair).1
      exact (allows_id_iff hg hi hv (hfills hpair).2).mpr (hkeeps _ hv)

/-- An answer of a grammar is a value of the types as they are declared exactly when the host leaves
the names that occur in it. -/
theorem conforms_id_iff (hg : g.WellFormed) (hl : g.Loadable project)
    (hn : (g.intents.map (·.name)).Nodup) {understood intent : Value} {t : TypedIntent}
    (h : g.Decodes understood intent slots (.ok t)) :
    (g.toModule project).Conforms id intent t ↔ g.KeepsNames understood intent slots := by
  cases h with
  | notUnderstood hflag =>
      refine iff_of_true ⟨_, filter_spelled hl List.mem_cons_self, .inl rfl, .nil⟩ ?_
      intro hunderstood
      rw [hflag] at hunderstood
      cases hunderstood
  | typed hflag hi hname hfields =>
      subst hname
      rw [conforms_id_typed_iff hg hl hn hi hfields]
      constructor
      · intro hkeeps _ j hj hintent
        rw [eq_of_text_eq hn hi hj hintent]
        exact hkeeps
      · intro hkeeps
        exact hkeeps hflag _ hi rfl

end Types

/-- The annotation of a field tells whether the field is optional. -/
theorem optional_iff_annotation {f : Field} (htype : Usable f.typeName) :
    f.optional = true ↔ "| None".toList <:+ f.annotation.toList := by
  unfold Field.annotation
  cases hoptional : f.optional with
  | true =>
      have hend : (f.typeName ++ " | None").toList =
          (f.typeName.toList ++ [' ']) ++ "| None".toList := by simp
      simp only [if_true, hend, true_iff]
      exact List.suffix_append _ _
  | false =>
      simp only [Bool.false_eq_true, if_false, false_iff]
      intro hend
      have hblank : ' ' ∈ f.typeName.toList := hend.subset (by decide)
      exact htype.not_mem (by decide) hblank

/-- Whatever the decoder of a module that loads returns is a value of the types that the module
declares, as the host takes their names, and the annotations of these types tell which fields may
be empty. It is a value of the types as they are declared exactly when the host leaves the names
that occur in it. -/
theorem decode_conforms [Host] (source project : Option String) (document : Value) (g : Grammar)
    (hbuilt : Grammar.ofValue source document = .ok g)
    (hn : (g.intents.map (·.name)).Nodup) (hloads : (g.toModule project).loads = true)
    (understood intent : Value) (slots : List (Scalar × Value)) (t : TypedIntent)
    (h : (g.toModule project).decode understood intent (.map slots) = .ok t) :
    (g.toModule project).Conforms Host.fold intent t ∧
      ((g.toModule project).Conforms id intent t ↔ g.KeepsNames understood intent slots) ∧
      ∀ v ∈ (g.toModule project).sumType.variants, ∀ f ∈ v.fields,
        (f.optional = true ↔ "| None".toList <:+ f.annotation.toList) := by
  have hg := Grammar.wellFormed_of_ofValue hbuilt
  have hl := (loads_iff hg).mp hloads
  have hdecodes := (decode_eq_iff hg hl hn).mp h
  refine ⟨conforms_of_decodes hg hl hdecodes, conforms_id_iff hg hl hn hdecodes, ?_⟩
  intro v hv f hf
  obtain ⟨i, hi, rfl⟩ := List.mem_map.mp hv
  obtain ⟨w, hw, rfl⟩ := List.mem_map.mp hf
  exact optional_iff_annotation (hg.slots_usable _ (hg.vars_slot i hi w hw))

/-- A context with one element, whose name some hosts take for another. -/
def letterDocument : Value :=
  .map [(.text "context", .map
    [(.text "slots", .map [(.text "Letter", .list [.text "\ufb01"])]),
      (.text "expressions", .map [(.text "Spell", .list [.text "spell $Letter:it"])])])]

def oneLetter : Slot := ⟨"Letter", [⟨"\ufb01", "\ufb01"⟩]⟩

def spell : Intent := ⟨"Spell", [⟨"it", "it", oneLetter, true⟩], ["spell $Letter:it"]⟩

def letterGrammar : Grammar := ⟨[spell], [oneLetter], none⟩

section Runs
attribute [local instance] Host.plain

theorem letterGrammar_loadable : letterGrammar.Loadable none where
  variables_ordered := by decide
  elements_apart := by decide +kernel
  elements_allowed := by decide +kernel
  names_apart := by decide +kernel
  names_free := by
    rw [TypedModule.ownNames, TypedModule.boundNames_code TypedModule.wellFormed_empty]
    decide +kernel
  source_readable := by simp [letterGrammar]
  project_readable := by simp

/-- The lamp is turned off in no room, and the empty field is one that may be. The letter is decoded
to a member whose name is not the declared one. -/
theorem turnOff_conforms :
    ((lampGrammar.toModule none).Conforms id (.text "Turn")
        ⟨"Turn", [("to", some ⟨"State", "off", "off"⟩), ("Class", none)]⟩ ∧
      ∀ v ∈ (lampGrammar.toModule none).sumType.variants, ∀ f ∈ v.fields,
        (f.optional = true ↔ "| None".toList <:+ f.annotation.toList)) ∧
    Grammar.ofValue none letterDocument = .ok letterGrammar ∧
    (letterGrammar.toModule none).decode (.bool true) (.text "Spell")
      (.map [(.text "it", .text "\ufb01")]) =
      .ok ⟨"Spell", [("it", some ⟨"Letter", "fi", "\ufb01"⟩)]⟩ ∧
    ¬(letterGrammar.toModule none).Conforms id (.text "Spell")
      ⟨"Spell", [("it", some ⟨"Letter", "fi", "\ufb01"⟩)]⟩ := by
  have hletter : Grammar.ofValue none letterDocument = .ok letterGrammar :=
    Stepwise.toOption_eq_some_iff.mp (by decide +kernel)
  have hspelled : (letterGrammar.toModule none).decode (.bool true) (.text "Spell")
      (.map [(.text "it", .text "\ufb01")]) =
      .ok ⟨"Spell", [("it", some ⟨"Letter", "fi", "\ufb01"⟩)]⟩ :=
    Stepwise.toOption_eq_some_iff.mp (by decide +kernel)
  have hturned : (lampGrammar.toModule none).decode (.bool true) (.text "Turn")
      (.map [(.text "to", .text "off"), (.text "room", .text "with")]) =
      .ok ⟨"Turn", [("to", some ⟨"State", "off", "off"⟩), ("Class", none)]⟩ :=
    Stepwise.toOption_eq_some_iff.mp (by decide +kernel)
  have hlamp := Grammar.wellFormed_of_ofValue (show Grammar.ofValue none lampContext =
    .ok lampGrammar from rfl)
  obtain ⟨_, hplain, hannotated⟩ := decode_conforms none none lampContext lampGrammar rfl
    (by decide) ((loads_iff hlamp).mpr lampGrammar_loadable) _ _ _ _ hturned
  obtain ⟨_, hfolded, _⟩ := decode_conforms none none letterDocument letterGrammar hletter
    (by decide) ((loads_iff (Grammar.wellFormed_of_ofValue hletter)).mpr letterGrammar_loadable)
    _ _ _ _ hspelled
  refine ⟨⟨hplain.mpr ?_, hannotated⟩, hletter, hspelled, ?_⟩
  · intro _ i hi _
    obtain rfl := List.mem_singleton.mp hi
    have hkept : Host.fold turn.name = turn.name ∧
        ∀ v ∈ turn.vars, ∀ e ∈ v.slot.elements, Host.fold e.name = e.name := by
      decide +kernel
    exact ⟨hkept.1, fun v hv e he _ => hkept.2 v hv e he⟩
  · intro hconforms
    have hkeeps := hfolded.mp hconforms rfl spell List.mem_cons_self rfl
    have helement := hkeeps.2 _ List.mem_cons_self _ List.mem_cons_self rfl
    exact absurd helement (by decide +kernel)

end Runs

end VoiceIntents
