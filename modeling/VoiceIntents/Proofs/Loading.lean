import VoiceIntents.Proofs.Consistent
import VoiceIntents.Proofs.StrayCharacters
import VoiceIntents.TypedModule.Decode

/-!
# Modules that load

A module loads as it is declared when its text can be read, all its classes can be declared and no
declaration takes the name of another. On the grammar these are rules on the order of variables
and on names as the host takes them, which the builder does not check.
-/

namespace VoiceIntents

/-- All items from the first one of a kind on are of the kind exactly when an item of the kind
is only followed by such items. -/
theorem all_dropWhile_iff {α : Type} {p : α → Bool} {items : List α} :
    (items.dropWhile fun a => !p a).all p = true ↔
      items.Pairwise fun a b => p a = true → p b = true := by
  induction items with
  | nil => simp
  | cons a rest ih =>
      rw [List.pairwise_cons]
      cases ha : p a with
      | true =>
          rw [List.dropWhile_cons_of_neg (by simp [ha]), List.all_cons, ha, Bool.true_and,
            List.all_eq_true]
          constructor
          · intro h
            refine ⟨fun b hb _ => h b hb, ?_⟩
            exact List.pairwise_of_forall_mem_list fun _ _ b hb _ => h b hb
          · rintro ⟨h, _⟩ b hb
            exact h b hb rfl
      | false =>
          rw [List.dropWhile_cons_of_pos (by simp [ha]), ih]
          simp

/-- The names that a module declares are those that its text binds. -/
theorem names_toModule {g : Grammar} {project : Option String} (hg : g.WellFormed) :
    (g.toModule project).names = Text.boundNames (g.toModule project).code := by
  rw [TypedModule.boundNames_code hg]
  simp [TypedModule.names, Grammar.toModule, Function.comp_def, Intent.toVariant, Slot.toEnum,
    TypedModule.sumTypeName, TypedModule.sentinelName, TypedModule.decoderName]

variable [Host] {g : Grammar} {project : Option String}

/-- The rules on a grammar, and on the project that its module names. The name `mro` is one that
every class has. -/
structure Grammar.Loadable (g : Grammar) (project : Option String) : Prop where
  variables_ordered : ∀ i ∈ g.intents, i.vars.Pairwise fun v _ => v.name ≠ "mro"
  elements_apart : ∀ s ∈ g.slots, (s.names.map Host.fold).Nodup
  elements_allowed : ∀ s ∈ g.slots, ∀ name ∈ s.names, Host.fold name ≠ "mro"
  names_apart : ((g.intents.map (·.name) ++ g.slots.map (·.name)).map Host.fold).Nodup
  names_free : ∀ name ∈ g.intents.map (·.name) ++ g.slots.map (·.name),
    Host.fold name ∉ TypedModule.ownNames
  source_readable : ∀ text, g.source = some text → '\x00' ∉ text.toList
  project_readable : ∀ text, project = some text → '\x00' ∉ text.toList

/-- In ASCII the builder has checked all rules on names. -/
theorem Grammar.WellFormed.loadable_of_isAscii (hg : g.WellFormed)
    (hn : (g.intents.map (·.name)).Nodup) (hascii : ∀ name ∈ g.names, Text.IsAscii name)
    (hordered : ∀ i ∈ g.intents, i.vars.Pairwise fun v _ => v.name ≠ "mro")
    (hsource : ∀ text, g.source = some text → '\x00' ∉ text.toList)
    (hproject : ∀ text, project = some text → '\x00' ∉ text.toList) : g.Loadable project := by
  have hfold {names : List String} (h : names ⊆ g.names) : names.map Host.fold = names :=
    (List.map_congr_left fun name hname => Host.fold_ascii name (hascii name (h hname))).trans
      (List.map_id names)
  have helements {s : Slot} (hs : s ∈ g.slots) : s.names ⊆ g.names := by
    intro name hname
    simp only [Grammar.names, List.mem_append, List.mem_flatMap]
    exact .inl (.inl (.inr ⟨s, hs, hname⟩))
  have hdeclared : g.intents.map (·.name) ++ g.slots.map (·.name) ⊆ g.names := by
    intro name hname
    simp only [Grammar.names, List.mem_append] at hname ⊢
    exact hname.elim (fun h => .inl (.inr h)) fun h => .inl (.inl (.inl h))
  refine ⟨hordered, ?_, ?_, ?_, ?_, hsource, hproject⟩
  · intro s hs
    rw [hfold (helements hs)]
    exact hg.elements_distinct s hs
  · intro s hs name hname
    rw [Host.fold_ascii name (hascii name (helements hs hname))]
    obtain ⟨e, he, rfl⟩ := List.mem_map.mp hname
    exact hg.elements_allowed s hs e he
  · rw [hfold hdeclared, List.nodup_append']
    refine ⟨hn, hg.slots_distinct, fun name hintent => ?_⟩
    obtain ⟨i, hi, rfl⟩ := List.mem_map.mp hintent
    exact hg.intents_apart i hi
  · intro name hname hown
    rw [Host.fold_ascii name (hascii name (hdeclared hname))] at hown
    obtain ⟨hslot, hintent⟩ := hg.consistent.own_names_free name hown
    exact (List.mem_append.mp hname).elim hintent hslot

section Names

theorem fold_variable (hg : g.WellFormed) {i : Intent} (hi : i ∈ g.intents) {v : Variable}
    (hv : v ∈ i.vars) : Host.fold v.name = v.name :=
  Host.fold_ascii v.name (hg.vars_ascii i hi v hv).1

theorem fold_slot (hg : g.WellFormed) {i : Intent} (hi : i ∈ g.intents) {v : Variable}
    (hv : v ∈ i.vars) : Host.fold v.slot.name = v.slot.name :=
  Host.fold_ascii v.slot.name (hg.vars_ascii i hi v hv).2

theorem fold_ownNames : TypedModule.ownNames.map Host.fold = TypedModule.ownNames := by
  have hascii : (TypedModule.ownNames.all fun name => name.toList.all (·.toNat < 128)) = true := by
    rw [TypedModule.ownNames, TypedModule.boundNames_code TypedModule.wellFormed_empty]
    decide
  refine (List.map_congr_left fun name hname => ?_).trans (List.map_id _)
  apply Host.fold_ascii
  intro c hc
  simpa using List.all_eq_true.mp (List.all_eq_true.mp hascii name hname) c hc

/-- No name takes the place of another if the names of the grammar are apart and none is one of
the module's own. -/
theorem fold_boundNames_nodup_iff (hg : g.WellFormed) :
    ((Text.boundNames (g.toModule project).code).map Host.fold).Nodup ↔
      ((g.intents.map (·.name) ++ g.slots.map (·.name)).map Host.fold).Nodup ∧
        ∀ name ∈ g.intents.map (·.name) ++ g.slots.map (·.name),
          Host.fold name ∉ TypedModule.ownNames := by
  rw [((hg.consistent.names_bound project).map Host.fold).nodup_iff,
    List.map_append, List.nodup_append', fold_ownNames]
  constructor
  · rintro ⟨_, hapart, hown⟩
    exact ⟨hapart, fun name hname h => hown h (List.mem_map_of_mem hname)⟩
  · rintro ⟨hapart, hfree⟩
    refine ⟨TypedModule.ownNames_nodup, hapart, ?_⟩
    intro folded hown hfolded
    obtain ⟨name, hname, rfl⟩ := List.mem_map.mp hfolded
    exact hfree name hname hown

end Names

section Classes

theorem isDeclarable_toVariant_iff (hg : g.WellFormed) {i : Intent} (hi : i ∈ g.intents) :
    i.toVariant.isDeclarable = true ↔ i.vars.Pairwise fun v _ => v.name ≠ "mro" := by
  have hnamed {v : Variable} (hv : v ∈ i.vars) :
      Identifier.classNames.contains (Host.fold v.name) = true ↔ v.name = "mro" := by
    rw [fold_variable hg hi hv]
    simp [Identifier.classNames]
  have hfields : i.toVariant.isDeclarable =
      (i.vars.dropWhile fun v => !Identifier.classNames.contains (Host.fold v.name)).all
        fun v => Identifier.classNames.contains (Host.fold v.name) := by
    simp only [Variant.isDeclarable, Intent.toVariant, List.dropWhile_map, List.all_map]
    rfl
  have hapart : i.vars.Pairwise fun v w => v.name ≠ w.name :=
    List.pairwise_map.mp (hg.vars_distinct i hi)
  rw [hfields, all_dropWhile_iff]
  constructor
  · intro h
    -- Two variables of the name would not be distinct.
    refine (hapart.and h).imp_of_mem ?_
    rintro v w hv hw ⟨hne, hsame⟩ hname
    exact hne (hname.trans ((hnamed hw).mp (hsame ((hnamed hv).mpr hname))).symm)
  · intro h
    exact h.imp_of_mem fun hv _ hne hsame => absurd ((hnamed hv).mp hsame) hne

theorem isDeclarable_toEnum_iff (s : Slot) :
    s.toEnum.isDeclarable = true ↔
      (s.names.map Host.fold).Nodup ∧ ∀ name ∈ s.names, Host.fold name ≠ "mro" := by
  simp [EnumType.isDeclarable, Slot.toEnum, Slot.names, Function.comp_def,
    Identifier.refusedMembers, Identifier.classNames]

end Classes

/-- A module loads exactly when its grammar is loadable. -/
theorem loads_iff (hg : g.WellFormed) :
    (g.toModule project).loads = true ↔ g.Loadable project := by
  have hvariants : ((g.toModule project).sumType.sentinel ::
      (g.toModule project).sumType.variants).all Variant.isDeclarable = true ↔
        ∀ i ∈ g.intents, i.vars.Pairwise fun v _ => v.name ≠ "mro" := by
    rw [List.all_cons, Bool.and_eq_true, List.all_eq_true]
    refine (and_iff_right rfl).trans (List.forall_mem_map.trans ?_)
    exact forall₂_congr fun i hi => isDeclarable_toVariant_iff hg hi
  have henums : (g.toModule project).enums.all EnumType.isDeclarable = true ↔
      ∀ s ∈ g.slots, (s.names.map Host.fold).Nodup ∧ ∀ name ∈ s.names, Host.fold name ≠ "mro" := by
    rw [List.all_eq_true]
    exact List.forall_mem_map.trans (forall₂_congr fun s _ => isDeclarable_toEnum_iff s)
  have hnull : (!(g.toModule project).render.toList.contains '\x00') = true ↔
      (∀ text, g.source = some text → '\x00' ∉ text.toList) ∧
        ∀ text, project = some text → '\x00' ∉ text.toList := by
    simp [TypedModule.stray_mem_render_iff (c := '\x00') (by decide) hg]
  rw [TypedModule.loads, TypedModule.isImportable, Bool.and_eq_true, Bool.and_eq_true,
    Bool.and_eq_true, decide_eq_true_iff, hvariants, henums, hnull, names_toModule hg,
    fold_boundNames_nodup_iff hg]
  constructor
  · rintro ⟨⟨⟨hordered, helements⟩, hsource, hproject⟩, hapart, hfree⟩
    exact ⟨hordered, fun s hs => (helements s hs).1, fun s hs => (helements s hs).2, hapart, hfree,
      hsource, hproject⟩
  · rintro ⟨hordered, helements, hallowed, hapart, hfree, hsource, hproject⟩
    exact ⟨⟨⟨hordered, fun s hs => ⟨helements s hs, hallowed s hs⟩⟩, hsource, hproject⟩, hapart,
      hfree⟩

end VoiceIntents
