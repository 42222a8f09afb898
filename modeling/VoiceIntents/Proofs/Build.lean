import VoiceIntents.Proofs.Outline
import VoiceIntents.Proofs.Stepwise

/-!
# What the builder accepts

Each function of the builder is given by what it accepts and what it then returns, with no
mention of the order in which it looks. Together they say that a document is built exactly
when it can be read as an outline that is well declared, and that the grammar is then the one
of the outline.
-/

namespace VoiceIntents.Grammar

open Identifier (escape Usable)
open Stepwise

theorem locate_eq_ok_iff {α : Type} {location : Location} {x : Except Fault α} {a : α} :
    locate location x = .ok a ↔ x = .ok a := by
  cases x <;> simp [locate]

theorem printed_eq_ok_iff {α : Type} {x : Except DisplayFault α} {a : α} :
    printed x = .ok a ↔ x = .ok a := by
  cases x <;> simp [printed]

theorem any_name_iff {α : Type} {key : α → String} {items : List α} {name : String} :
    (items.any fun a => key a = name) = true ↔ name ∈ items.map key := by
  simp

section Texts
variable {location : Location} {owner : Owner}

theorem plainText_eq_ok_iff {item : Value} {text : String} :
    plainText location owner item = .ok text ↔ HasText item text := by
  unfold plainText HasText
  by_cases hplain : isPlain item = true
  · rw [if_pos hplain, printed_eq_ok_iff]
    exact ⟨fun h => ⟨hplain, h⟩, fun h => h.2⟩
  · rw [if_neg hplain, bind_eq_ok_iff]
    constructor
    · rintro ⟨shown, _, h⟩
      cases h
    · intro h
      exact absurd h.1 hplain

theorem plainTexts_eq_ok_iff {entry : Value} {texts : List String} :
    plainTexts location owner entry = .ok texts ↔ HasTexts entry texts := by
  constructor
  · intro h
    unfold plainTexts at h
    split at h
    · cases h
      exact .null
    · rw [mapM_eq_ok_iff] at h
      exact .list (h.imp fun _ _ => plainText_eq_ok_iff.mp)
    · cases h
  · intro h
    cases h with
    | null => rfl
    | list h => exact mapM_eq_ok_iff.mpr (h.imp fun _ _ => plainText_eq_ok_iff.mpr)

end Texts

section Slots
variable {location : Location}

/-- One more element is read when its identifier is usable, allowed and new. -/
theorem readElement_eq_ok_iff {slot : String} {before : List Element} {raw : String}
    {e : Element} :
    readElement slot before raw = .ok e ↔
      ((Usable (escape raw) ∧ escape raw ≠ "mro") ∧ e = ⟨escape raw, raw⟩) ∧
        e.name ∉ before.map (·.name) := by
  unfold readElement Usable
  cases hproblem : Identifier.problem? (escape raw) with
  | some problem => simp [hproblem]
  | none =>
      simp only [hproblem, guard_eq_ok_iff, Except.ok.injEq, Identifier.refusedMembers,
        Identifier.classNames, List.contains_eq_mem, List.mem_singleton, decide_eq_true_eq,
        List.any_eq_true, List.mem_map, not_exists, not_and, true_and, ne_eq]
      constructor
      · rintro ⟨hmember, hbefore, rfl⟩
        exact ⟨⟨hmember, rfl⟩, hbefore⟩
      · rintro ⟨⟨hmember, rfl⟩, hbefore⟩
        exact ⟨hmember, hbefore, rfl⟩

/-- The elements of a slot are its words, if each of them is fit and no two get one name. -/
theorem readElements_eq_ok_iff {slot : String} {words : List String} {es : List Element} :
    readElements slot [] words = .ok es ↔
      (∀ word ∈ words, Usable (escape word) ∧ escape word ≠ "mro") ∧
        (words.map escape).Nodup ∧ es = words.map fun word => ⟨escape word, word⟩ := by
  rw [collect_eq_ok_iff (readElements slot) (fun _ => rfl) (fun _ _ _ => rfl)
    (fun _ _ _ => readElement_eq_ok_iff)]
  simp only [forall₂_map_iff]
  constructor
  · rintro ⟨_, ⟨hfit, rfl⟩, hdistinct, _, rfl⟩
    refine ⟨hfit, ?_, by simp⟩
    simpa [Function.comp_def] using hdistinct
  · rintro ⟨hfit, hdistinct, rfl⟩
    refine ⟨_, ⟨hfit, rfl⟩, ?_, by simp, by simp⟩
    simpa [Function.comp_def] using hdistinct

theorem readSlot_eq_ok_iff {before : List Slot} {key : Scalar} {entry : Value} {s : Slot} :
    readSlot location before key entry = .ok s ↔
      (∃ named, (ReadsEntry (key, entry) named ∧ Outline.SlotRules named) ∧
        s = Outline.toSlot named) ∧ s.name ∉ before.map (·.name) := by
  unfold readSlot
  simp only [bind_eq_ok_iff, printed_eq_ok_iff]
  constructor
  · rintro ⟨name, hname, h⟩
    cases hproblem : Identifier.problem? (escape name) with
    | some problem => simp [hproblem, throw_eq_error] at h
    | none =>
        simp only [hproblem, throw_eq_error, error_bind, guard_eq_ok_iff, any_name_iff,
          bind_eq_ok_iff, plainTexts_eq_ok_iff, locate_eq_ok_iff, readElements_eq_ok_iff] at h
        obtain ⟨hbefore, words, hwords, _, ⟨hfit, hdistinct, rfl⟩, hs⟩ := h
        obtain rfl := pure_eq_ok_iff.mp hs
        have hrules : Outline.SlotRules (name, words) :=
          ⟨hproblem, fun w hw => (hfit w hw).1, fun w hw => (hfit w hw).2, hdistinct⟩
        exact ⟨⟨(name, words), ⟨⟨hname, hwords⟩, hrules⟩, rfl⟩, hbefore⟩
  · rintro ⟨⟨⟨name, words⟩, ⟨⟨hname, hwords⟩, hrules⟩, rfl⟩, hbefore⟩
    have hproblem : Identifier.problem? (escape name) = none := hrules.name_usable
    have hfit (w : String) (hw : w ∈ words) : Usable (escape w) ∧ escape w ≠ "mro" :=
      ⟨hrules.words_usable w hw, hrules.words_allowed w hw⟩
    refine ⟨name, hname, ?_⟩
    simp only [hproblem, throw_eq_error, error_bind, guard_eq_ok_iff, any_name_iff, bind_eq_ok_iff,
      plainTexts_eq_ok_iff, locate_eq_ok_iff, readElements_eq_ok_iff]
    exact ⟨hbefore, words, hwords, _, ⟨hfit, hrules.words_distinct, rfl⟩, rfl⟩

/-- Slots are read when each of them is fit and no two get one name. -/
theorem readSlots_eq_ok_iff {entries : List (Scalar × Value)} {slots : List Slot} :
    readSlots location [] entries = .ok slots ↔
      ∃ named, List.Forall₂ ReadsEntry entries named ∧ (∀ n ∈ named, Outline.SlotRules n) ∧
        (named.map fun n => escape n.1).Nodup ∧ slots = named.map Outline.toSlot := by
  rw [collect_eq_ok_iff (readSlots location) (fun _ => rfl) (fun _ _ _ => rfl)
    (fun _ _ _ => readSlot_eq_ok_iff)]
  simp only [forall₂_exists_iff]
  constructor
  · rintro ⟨_, ⟨named, hread, hfit, rfl⟩, hdistinct, _, rfl⟩
    refine ⟨named, hread, hfit, ?_, by simp⟩
    simpa [Function.comp_def, Outline.toSlot] using hdistinct
  · rintro ⟨named, hread, hfit, hdistinct, rfl⟩
    refine ⟨_, ⟨named, hread, hfit, rfl⟩, ?_, by simp, by simp⟩
    simpa [Function.comp_def, Outline.toSlot] using hdistinct

theorem slotsOf_eq_ok_iff {entry : Option Value} {slots : List Slot} :
    slotsOf location entry = .ok slots ↔
      ∃ named, ReadsSlots entry named ∧ (∀ n ∈ named, Outline.SlotRules n) ∧
        (named.map fun n => escape n.1).Nodup ∧ slots = named.map Outline.toSlot := by
  constructor
  · intro h
    unfold slotsOf at h
    split at h
    · cases h
      exact ⟨[], .absent, by simp, by simp, rfl⟩
    · cases h
      exact ⟨[], .null, by simp, by simp, rfl⟩
    · obtain ⟨named, hread, hrest⟩ := readSlots_eq_ok_iff.mp h
      exact ⟨named, .map hread, hrest⟩
    · cases h
  · rintro ⟨named, hread, hrest⟩
    cases hread with
    | absent =>
        obtain ⟨_, _, rfl⟩ := hrest
        rfl
    | null =>
        obtain ⟨_, _, rfl⟩ := hrest
        rfl
    | map hread => exact readSlots_eq_ok_iff.mpr ⟨named, hread, hrest⟩

end Slots

section Phrases
variable {slots : List Slot}

/-- The binding of a reference among the slots. -/
def toBinding (slots : List Slot) (r : Reference) : Binding :=
  ⟨r.variableName, r.name, Outline.slotNamed slots r.slotName⟩

@[simp] theorem slotNamed_name (slots : List Slot) (name : String) :
    (Outline.slotNamed slots name).name = name := by
  unfold Outline.slotNamed
  cases h : slots.find? (·.name = name) with
  | none => rfl
  | some slot => simpa using List.find?_some h

/-- A reference is bound when its slot is declared and its variable is usable and new. -/
theorem bind_reference_eq_ok_iff {before : List Binding} {r : Reference} {b : Binding} :
    bind slots before r = .ok b ↔
      ((r.slotName ∈ slots.map (·.name) ∧ Usable r.variableName) ∧ b = toBinding slots r) ∧
        b.name ∉ before.map (·.name) := by
  simp only [bind, guard_eq_ok_iff, any_name_iff, Usable, Reference.slotName,
    Reference.variableName, toBinding]
  cases hfound : slots.find? (·.name = escape r.slot) with
  | none =>
      have hmissing : escape r.slot ∉ slots.map (·.name) := by
        simpa [List.find?_eq_none] using hfound
      simp [hmissing]
  | some slot =>
      have hdeclared : escape r.slot ∈ slots.map (·.name) :=
        List.mem_map.mpr ⟨slot, List.mem_of_find?_eq_some hfound, by
          simpa using List.find?_some hfound⟩
      have hslot : Outline.slotNamed slots (escape r.slot) = slot := by
        simp [Outline.slotNamed, hfound]
      cases Identifier.problem? (escape r.name) with
      | some problem => simp
      | none =>
          simp only [hdeclared, hslot, Except.ok.injEq, true_and]
          constructor
          · rintro ⟨hbefore, rfl⟩
            exact ⟨rfl, hbefore⟩
          · rintro ⟨rfl, hbefore⟩
            exact ⟨hbefore, rfl⟩

/-- A phrase is bound when it meets its rules, each reference by itself. -/
theorem bindings_eq_ok_iff {phrase : String} {bound : List Binding} :
    bindings slots phrase = .ok bound ↔
      Outline.PhraseRules (slots.map (·.name)) phrase ∧
        bound = (references phrase).map (toBinding slots) := by
  unfold bindings
  rw [collect_eq_ok_iff (bindAll slots) (fun _ => rfl) (fun _ _ _ => rfl)
    (fun _ _ _ => bind_reference_eq_ok_iff)]
  simp only [forall₂_map_iff]
  constructor
  · rintro ⟨_, ⟨hfit, rfl⟩, hdistinct, _, rfl⟩
    refine ⟨⟨?_, fun r hr => (hfit r hr).2, fun r hr => (hfit r hr).1⟩, by simp⟩
    simpa [Function.comp_def, toBinding] using hdistinct
  · rintro ⟨hrules, rfl⟩
    refine ⟨_, ⟨fun r hr => ⟨hrules.slots_declared r hr, hrules.variables_usable r hr⟩, rfl⟩,
      ?_, by simp, by simp⟩
    simpa [Function.comp_def, toBinding] using hrules.variables_distinct

/-- No variable is bound to two slots. -/
def OneSlot (bound : List Binding) : Prop :=
  ∀ b ∈ bound, ∀ c ∈ bound, b.name = c.name → b.slot.name = c.slot.name

/-- A binding that repeats another adds nothing to a set with one slot for each variable. -/
theorem oneSlot_insert_iff {before after : List Binding} {b first : Binding}
    (hfirst : first ∈ before) (hname : first.name = b.name)
    (hslot : first.slot.name = b.slot.name) :
    OneSlot (before ++ b :: after) ↔ OneSlot (before ++ after) := by
  have hmem (c : Binding) : c ∈ before ++ b :: after ↔ c = b ∨ c ∈ before ++ after := by
    simp [or_left_comm]
  have hold : first ∈ before ++ after := List.mem_append_left _ hfirst
  constructor
  · intro h c hc d hd
    exact h c ((hmem c).mpr (.inr hc)) d ((hmem d).mpr (.inr hd))
  · intro h c hc d hd heq
    rcases (hmem c).mp hc with hcb | hc' <;> rcases (hmem d).mp hd with hdb | hd'
    · rw [hcb, hdb]
    · rw [hcb, ← hslot]
      exact h first hold d hd' (by rw [hname, ← hcb, heq])
    · rw [hdb, ← hslot]
      exact h c hc' first hold (by rw [hname, ← hdb, heq])
    · exact h c hc' d hd' heq

theorem oneSlot_append_fresh {known : List Binding} {b : Binding} (hknown : OneSlot known)
    (hfresh : b.name ∉ known.map (·.name)) : OneSlot (known ++ [b]) := by
  have hne (c : Binding) (hc : c ∈ known) : c.name ≠ b.name := by
    intro heq
    exact hfresh (List.mem_map.mpr ⟨c, hc, heq⟩)
  intro c hc d hd heq
  simp only [List.mem_append, List.mem_singleton] at hc hd
  rcases hc with hc | rfl <;> rcases hd with hd | rfl
  · exact hknown c hc d hd heq
  · exact absurd heq (hne c hc)
  · exact absurd heq.symm (hne d hd)
  · rfl

/-- A binding of a new name is the first for it, so later ones of the name are left out. -/
theorem firstsBy_cons_new {known rest : List Binding} {b : Binding}
    (hnew : b.name ∉ known.map (·.name)) :
    (firstsBy (·.name) (b :: rest)).filter (fun c => c.name ∉ known.map (·.name)) =
      b :: (firstsBy (·.name) rest).filter fun c => c.name ∉ (known ++ [b]).map (·.name) := by
  rw [firstsBy, List.filter_cons_of_pos (by simpa using hnew), List.filter_filter]
  simp [not_or]

/-- A binding of a known name changes nothing. -/
theorem firstsBy_cons_known {known rest : List Binding} {b : Binding}
    (hold : b.name ∈ known.map (·.name)) :
    (firstsBy (·.name) (b :: rest)).filter (fun c => c.name ∉ known.map (·.name)) =
      (firstsBy (·.name) rest).filter fun c => c.name ∉ known.map (·.name) := by
  rw [firstsBy, List.filter_cons_of_neg (by simpa using hold), List.filter_filter]
  apply List.filter_congr
  intro c _
  by_cases hc : c.name = b.name
  · simp [hc, hold]
  · simp [hc]

/-- The bindings of an intent are the first for each variable, if no two disagree on a slot. -/
theorem mergeAll_eq_ok_iff {known bound united : List Binding} (hknown : OneSlot known) :
    mergeAll known bound = .ok united ↔
      OneSlot (known ++ bound) ∧
        united = known ++ (firstsBy (·.name) bound).filter fun b =>
          b.name ∉ known.map (·.name) := by
  -- The bindings known so far grow, and have one slot for each variable all along.
  induction bound generalizing known with
  | nil => simp [mergeAll, firstsBy, hknown, eq_comm]
  | cons b rest ih =>
      rw [mergeAll, Stepwise.bind_eq_ok_iff]
      unfold merge
      cases hfound : known.find? (·.name = b.name) with
      | none =>
          have hnew : b.name ∉ known.map (·.name) := by
            simpa [List.find?_eq_none] using hfound
          have hnext := ih (oneSlot_append_fresh hknown hnew)
          simp only [List.append_assoc, List.singleton_append] at hnext
          simp only [Except.ok.injEq, exists_eq_left', firstsBy_cons_new hnew]
          exact hnext
      | some first =>
          have hfirst : first ∈ known := List.mem_of_find?_eq_some hfound
          have hname : first.name = b.name := by simpa using List.find?_some hfound
          have hold : b.name ∈ known.map (·.name) := List.mem_map.mpr ⟨first, hfirst, hname⟩
          by_cases hslot : first.slot.name = b.slot.name
          · simp only [if_pos hslot, Except.ok.injEq, exists_eq_left', firstsBy_cons_known hold,
              oneSlot_insert_iff hfirst hname hslot]
            exact ih hknown
          · simp only [if_neg hslot, reduceCtorEq, false_and, exists_false, false_iff, not_and]
            intro h
            exact absurd (h first (by simp [hfirst]) b (by simp) hname) hslot

theorem mergeAll_append (known first second : List Binding) :
    mergeAll known (first ++ second) =
      mergeAll known first >>= fun united => mergeAll united second := by
  induction first generalizing known with
  | nil => rfl
  | cons b rest ih =>
      simp only [List.cons_append, mergeAll, bind_assoc]
      congr
      funext united
      exact ih united

/-- Phrase by phrase or all at once, the bindings are the same. -/
theorem unite_eq_ok_iff {locationOf : String → Location} {known united : List Binding}
    {pairs : List (String × List Binding)} :
    unite locationOf known pairs = .ok united ↔
      mergeAll known (pairs.flatMap (·.2)) = .ok united := by
  induction pairs generalizing known with
  | nil => simp [unite, mergeAll, pure_eq_ok_iff]
  | cons pair rest ih =>
      rw [unite, List.flatMap_cons, mergeAll_append, Stepwise.bind_eq_ok_iff,
        Stepwise.bind_eq_ok_iff]
      simp only [locate_eq_ok_iff, ih]

/-- The bindings of some phrases, as they are before they are united. -/
def bindingsOf (slots : List Slot) (phrase : String) : List Binding :=
  (references phrase).map (toBinding slots)

theorem flatMap_bindingsOf (phrases : List String) :
    phrases.flatMap (bindingsOf slots) = (phrases.flatMap references).map (toBinding slots) := by
  rw [List.map_flatMap]
  rfl

theorem oneSlot_bindingsOf_iff {phrases : List String} :
    OneSlot (phrases.flatMap (bindingsOf slots)) ↔
      ∀ p ∈ phrases, ∀ q ∈ phrases, ∀ r ∈ references p, ∀ s ∈ references q,
        r.variableName = s.variableName → r.slotName = s.slotName := by
  rw [flatMap_bindingsOf]
  constructor
  · intro h p hp q hq r hr s hs heq
    have hr' : r ∈ phrases.flatMap references := List.mem_flatMap.mpr ⟨p, hp, hr⟩
    have hs' : s ∈ phrases.flatMap references := List.mem_flatMap.mpr ⟨q, hq, hs⟩
    simpa [toBinding] using
      h _ (List.mem_map_of_mem hr') _ (List.mem_map_of_mem hs') (by simpa [toBinding] using heq)
  · intro h b hb c hc heq
    obtain ⟨r, hr, rfl⟩ := List.mem_map.mp hb
    obtain ⟨s, hs, rfl⟩ := List.mem_map.mp hc
    obtain ⟨p, hp, hr⟩ := List.mem_flatMap.mp hr
    obtain ⟨q, hq, hs⟩ := List.mem_flatMap.mp hs
    simpa [toBinding] using h p hp q hq r hr s hs (by simpa [toBinding] using heq)

theorem unite_bindingsOf_eq_ok_iff {locationOf : String → Location} {phrases : List String}
    {united : List Binding} :
    unite locationOf [] (phrases.zip (phrases.map (bindingsOf slots))) = .ok united ↔
      OneSlot (phrases.flatMap (bindingsOf slots)) ∧
        united = (firstsBy Reference.variableName (phrases.flatMap references)).map
          (toBinding slots) := by
  have hpairs : (phrases.zip (phrases.map (bindingsOf slots))).flatMap (·.2) =
      phrases.flatMap (bindingsOf slots) := by
    rw [List.flatMap_def, List.map_snd_zip (by simp), List.flatMap_def]
  have hfirsts : firstsBy (·.name) (phrases.flatMap (bindingsOf slots)) =
      (firstsBy Reference.variableName (phrases.flatMap references)).map (toBinding slots) := by
    rw [flatMap_bindingsOf, firstsBy_map]
    rfl
  rw [unite_eq_ok_iff, hpairs, mergeAll_eq_ok_iff (by simp [OneSlot]), hfirsts]
  simp

theorem inAll_bindingsOf (phrases : List String) (name : String) :
    inAll (phrases.map (bindingsOf slots)) name = Outline.boundByAll phrases name := by
  simp only [inAll, Outline.boundByAll, bindingsOf, List.all_map, List.any_map,
    Function.comp_def]
  rfl

/-- The variables of united bindings are those of the references that bind them first. -/
theorem map_united (phrases : List String) (firsts : List Reference) :
    ((firsts.map (toBinding slots)).map fun b =>
      ({ name := b.name, rawName := b.rawName, slot := b.slot,
         required := inAll (phrases.map (bindingsOf slots)) b.name } : Variable)) =
      firsts.map (Outline.toVariable slots phrases) := by
  simp only [List.map_map, inAll_bindingsOf]
  rfl

/-- An intent is read when it meets its rules, and it is then the one of its outline. -/
theorem readIntent_eq_ok_iff {source : Option String} {key : Scalar} {entry : Value}
    {i : Intent} :
    readIntent source slots key entry = .ok i ↔
      ∃ named, (ReadsEntry (key, entry) named ∧
        Outline.IntentRules (slots.map (·.name)) named) ∧ i = Outline.toIntent slots named := by
  have hbound (name : String) (phrases : List String) (bound : List (List Binding)) :
      phrases.mapM (fun phrase =>
          locate (inPhrase source name phrase) (bindings slots phrase)) = .ok bound ↔
        (∀ p ∈ phrases, Outline.PhraseRules (slots.map (·.name)) p) ∧
          bound = phrases.map (bindingsOf slots) := by
    simp only [mapM_eq_ok_iff, locate_eq_ok_iff, bindings_eq_ok_iff]
    exact forall₂_map_iff
  unfold readIntent
  simp only [Stepwise.bind_eq_ok_iff, printed_eq_ok_iff]
  constructor
  · rintro ⟨name, hname, h⟩
    cases hproblem : Identifier.problem? name with
    | some problem => simp [hproblem, throw_eq_error] at h
    | none =>
        simp only [hproblem, throw_eq_error, error_bind, guard_eq_ok_iff,
          Stepwise.bind_eq_ok_iff, plainTexts_eq_ok_iff, hbound] at h
        obtain ⟨phrases, htexts, hsome, _, ⟨hphrases, rfl⟩, united, hunited, hi⟩ := h
        obtain ⟨hone, rfl⟩ := unite_bindingsOf_eq_ok_iff.mp hunited
        obtain rfl := pure_eq_ok_iff.mp hi
        refine ⟨(name, phrases), ⟨⟨hname, htexts⟩, ?_⟩, ?_⟩
        · exact ⟨hproblem, by simpa using hsome, hphrases, oneSlot_bindingsOf_iff.mp hone⟩
        · rw [map_united]
          rfl
  · rintro ⟨⟨name, phrases⟩, ⟨⟨hname, htexts⟩, hrules⟩, rfl⟩
    have hproblem : Identifier.problem? name = none := hrules.name_usable
    refine ⟨name, hname, ?_⟩
    simp only [hproblem, throw_eq_error, error_bind, guard_eq_ok_iff,
      Stepwise.bind_eq_ok_iff, plainTexts_eq_ok_iff, hbound]
    refine ⟨phrases, htexts, by simpa using hrules.has_phrases, _, ⟨hrules.phrases, rfl⟩, _,
      unite_bindingsOf_eq_ok_iff.mpr ⟨oneSlot_bindingsOf_iff.mpr hrules.one_slot, rfl⟩, ?_⟩
    rw [map_united]
    rfl

end Phrases

section Document

theorem contextEntries_eq_ok_iff {document : Value} {context : List (Scalar × Value)} :
    contextEntries document = .ok context ↔
      ∃ root, document = .map root ∧
        (lookup root "context" = some (.map context) ∨
          lookup root "context" = some (.scalar .null) ∧ context = []) := by
  constructor
  · intro h
    unfold contextEntries at h
    split at h
    next root =>
        refine ⟨root, rfl, ?_⟩
        split at h
        next => cases h
        next entries hfound =>
            cases h
            exact .inl hfound
        next hfound =>
            cases h
            exact .inr ⟨hfound, rfl⟩
        next => cases h
    next => cases h
  · rintro ⟨root, rfl, hfound | ⟨hfound, rfl⟩⟩ <;> simp [contextEntries, hfound]

theorem expressionEntries_eq_ok_iff {entry : Option Value} {entries : List (Scalar × Value)} :
    expressionEntries entry = .ok entries ↔ entry = some (.map entries) ∧ entries ≠ [] := by
  constructor
  · intro h
    unfold expressionEntries at h
    split at h
    next => cases h
    next v =>
        obtain ⟨hsome, h⟩ := guard_eq_ok_iff.mp h
        split at h
        next =>
            cases h
            exact ⟨rfl, by simpa [Value.isEmpty] using hsome⟩
        next => cases h
  · rintro ⟨rfl, hsome⟩
    simp [expressionEntries, Value.isEmpty, hsome]

theorem checkSlotName_eq_ok_iff {location : Location} {slot : Slot} :
    checkSlotName location slot = .ok () ↔ slot.name ∉ Identifier.moduleNames := by
  unfold checkSlotName
  rw [throw_eq_error, guard_eq_ok_iff, List.contains_iff_mem]
  exact and_iff_left rfl

theorem checkIntentName_eq_ok_iff {source : Option String} {slots : List Slot} {i : Intent} :
    checkIntentName source slots i = .ok () ↔
      i.name ∉ Identifier.moduleNames ∧ i.name ∉ slots.map (·.name) := by
  simp only [checkIntentName, throw_eq_error, guard_eq_ok_iff, List.contains_iff_mem,
    any_name_iff]
  exact and_congr_right fun _ => and_iff_left rfl

theorem map_toSlot_name (entries : List (String × List String)) :
    (entries.map Outline.toSlot).map (·.name) = entries.map fun entry => escape entry.1 := by
  rw [List.map_map]
  rfl

/-- The checks on the names of a grammar are the rules that its outline has for all names. -/
theorem names_checked_iff (source : Option String) (location : Location) (o : Outline) :
    ((o.slots.map Outline.toSlot).forM (checkSlotName location) = .ok () ∧
        (o.intents.map (Outline.toIntent (o.slots.map Outline.toSlot))).forM
          (checkIntentName source (o.slots.map Outline.toSlot)) = .ok ()) ↔
      (∀ name ∈ o.slotNames, name ∉ Identifier.moduleNames) ∧
        (∀ name ∈ o.intentNames, name ∉ Identifier.moduleNames) ∧
        ∀ name ∈ o.intentNames, name ∉ o.slotNames := by
  simp only [forM_eq_ok_iff, checkSlotName_eq_ok_iff, checkIntentName_eq_ok_iff,
    map_toSlot_name, Outline.slotNames, Outline.intentNames, List.forall_mem_map]
  constructor
  · rintro ⟨hslots, hintents⟩
    exact ⟨hslots, fun i hi => (hintents i hi).1, fun i hi => (hintents i hi).2⟩
  · rintro ⟨hslots, hfree, hapart⟩
    exact ⟨hslots, fun i hi => ⟨hfree i hi, hapart i hi⟩⟩

/-- A grammar is built from exactly the documents that have a well-declared outline, and it is
the grammar of the outline. -/
theorem ofValue_eq_ok_iff {source : Option String} {document : Value} {g : Grammar} :
    ofValue source document = .ok g ↔
      ∃ o, Reads document o ∧ o.WellDeclared ∧ g = o.grammar source := by
  unfold ofValue
  simp only [Stepwise.bind_eq_ok_iff, locate_eq_ok_iff, contextEntries_eq_ok_iff,
    slotsOf_eq_ok_iff, expressionEntries_eq_ok_iff, mapM_eq_ok_iff, readIntent_eq_ok_iff,
    forall₂_exists_iff]
  constructor
  · rintro ⟨context, ⟨root, rfl, hroot⟩, _, ⟨slots, hslots, hrules, hdistinct, rfl⟩, entries,
      ⟨hentries, hsome⟩, _, ⟨intents, hintents, hintentRules, rfl⟩, _, hfree, _, hapart, hg⟩
    obtain rfl := pure_eq_ok_iff.mp hg
    have hcontext : lookup root "context" = some (.map context) := by
      rcases hroot with h | ⟨_, rfl⟩
      · exact h
      · cases hentries
    obtain ⟨hslotsFree, hintentsFree, hintentsApart⟩ :=
      (names_checked_iff source (inSource source) ⟨slots, intents⟩).mp ⟨hfree, hapart⟩
    simp only [map_toSlot_name] at hintentRules
    refine ⟨⟨slots, intents⟩, ⟨root, context, entries, rfl, hcontext, hslots, hentries,
      hintents⟩, ?_, rfl⟩
    refine ⟨hdistinct, hrules, ?_, hintentRules, hslotsFree, hintentsFree, hintentsApart⟩
    rintro rfl
    exact hsome (List.forall₂_nil_right_iff.mp hintents)
  · rintro ⟨o, ⟨root, context, entries, rfl, hcontext, hslots, hentries, hintents⟩, hrules, rfl⟩
    obtain ⟨hfree, hapart⟩ := (names_checked_iff source (inSource source) o).mpr
      ⟨hrules.slots_free, hrules.intents_free, hrules.intents_apart⟩
    have hintentRules : ∀ entry ∈ o.intents,
        Outline.IntentRules ((o.slots.map Outline.toSlot).map (·.name)) entry := by
      simp only [map_toSlot_name]
      exact hrules.intents
    have hsome : entries ≠ [] := by
      rintro rfl
      exact hrules.has_intents (List.forall₂_nil_left_iff.mp hintents)
    exact ⟨context, ⟨root, rfl, .inl hcontext⟩, _,
      ⟨o.slots, hslots, hrules.slots, hrules.slots_distinct, rfl⟩, entries, ⟨hentries, hsome⟩, _,
      ⟨o.intents, hintents, hintentRules, rfl⟩, (), hfree, (), hapart, rfl⟩

end Document

end VoiceIntents.Grammar
