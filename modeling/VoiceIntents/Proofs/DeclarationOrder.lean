import Mathlib.Logic.Equiv.Basic
import VoiceIntents.Proofs.Acceptance
import VoiceIntents.Proofs.SpokenPhrase

/-!
# The order of declarations

The builder goes through a context from front to back and stops at the first fault, but what it
accepts has no order: a context whose slots, intents, words and phrases are put in another order
is accepted as well, and its grammar means the same. A new order is a permutation of places, and
the slots and intents of the grammar are moved by the same permutation as their entries.
-/

namespace VoiceIntents

open Identifier (escape)

/-- At each place `ys` has what `xs` has at the place that `σ` gives, up to `R`. -/
def Arranged {α β : Type} (σ : Equiv.Perm ℕ) (R : α → β → Prop) (xs : List α) (ys : List β) :
    Prop :=
  ∀ n, Option.Rel R xs[σ n]? ys[n]?

namespace Arranged
variable {α β γ δ : Type} {σ : Equiv.Perm ℕ} {R : α → β → Prop} {xs : List α} {ys : List β}

theorem exists_left (h : Arranged σ R xs ys) {y : β} (hy : y ∈ ys) : ∃ x ∈ xs, R x y := by
  obtain ⟨n, hn⟩ := List.mem_iff_getElem?.mp hy
  have hrel := h n
  rw [hn] at hrel
  generalize hx : xs[σ n]? = found at hrel
  cases hrel with
  | some hR => exact ⟨_, List.mem_of_getElem? hx, hR⟩

theorem symm {S : β → α → Prop} (h : Arranged σ R xs ys) (hsymm : ∀ x y, R x y → S y x) :
    Arranged σ.symm S ys xs := by
  intro n
  have hrel := h (σ.symm n)
  rw [Equiv.apply_symm_apply] at hrel
  generalize xs[n]? = left at hrel
  generalize ys[σ.symm n]? = right at hrel
  cases hrel with
  | some hR => exact .some (hsymm _ _ hR)
  | none => exact .none

theorem exists_right (h : Arranged σ R xs ys) {x : α} (hx : x ∈ xs) : ∃ y ∈ ys, R x y :=
  (h.symm (S := fun y x => R x y) fun _ _ hR => hR).exists_left hx

/-- What is made of related items is in the same order. -/
theorem map {S : γ → δ → Prop} {f : α → γ} {g : β → δ} (h : Arranged σ R xs ys)
    (hmap : ∀ x ∈ xs, ∀ y ∈ ys, R x y → S (f x) (g y)) :
    Arranged σ S (xs.map f) (ys.map g) := by
  intro n
  have hrel := h n
  rw [List.getElem?_map, List.getElem?_map]
  generalize hx : xs[σ n]? = left at hrel
  generalize hy : ys[n]? = right at hrel
  cases hrel with
  | some hR => exact .some (hmap _ (List.mem_of_getElem? hx) _ (List.mem_of_getElem? hy) hR)
  | none => exact .none

theorem ne_nil (h : Arranged σ R xs ys) (hxs : xs ≠ []) : ys ≠ [] := by
  obtain ⟨x, hx⟩ := List.exists_mem_of_ne_nil xs hxs
  obtain ⟨y, hy, _⟩ := h.exists_right hx
  exact List.ne_nil_of_mem hy

section Same
variable {zs : List α}

theorem getElem?_eq (h : Arranged σ Eq xs zs) (n : ℕ) : zs[n]? = xs[σ n]? := by
  have hrel := h n
  generalize xs[σ n]? = left at hrel
  generalize zs[n]? = right at hrel
  cases hrel with
  | some heq => rw [heq]
  | none => rfl

theorem mem_iff (h : Arranged σ Eq xs zs) {a : α} : a ∈ xs ↔ a ∈ zs := by
  constructor
  · intro ha
    obtain ⟨b, hb, rfl⟩ := h.exists_right ha
    exact hb
  · intro ha
    obtain ⟨b, hb, rfl⟩ := h.exists_left ha
    exact hb

/-- Two places with one item would be two places with one item before. -/
theorem nodup (h : Arranged σ Eq xs zs) (hn : xs.Nodup) : zs.Nodup := by
  rw [List.nodup_iff_getElem?_ne_getElem?]
  intro i j hlt hj heq
  have hsame : xs[σ j]? = xs[σ i]? := by rw [← h.getElem?_eq, ← h.getElem?_eq, heq]
  have hinside : σ j < xs.length := by
    have hfound : xs[σ j]? = some zs[j] := by rw [← h.getElem?_eq, List.getElem?_eq_getElem hj]
    exact (List.getElem?_eq_some_iff.mp hfound).1
  have hplaces : σ j = σ i := (List.getElem?_inj hinside hn).mp hsame
  exact Nat.ne_of_gt hlt (σ.injective hplaces)

end Same

end Arranged

/-- The same name, and the same texts in any order. -/
def SameTexts (n n' : String × List String) : Prop := n.1 = n'.1 ∧ n.2.Perm n'.2

namespace Outline
variable {o o' : Outline} {σ τ : Equiv.Perm ℕ} {n n' : String × List String}
  {names names' : List String} {slots slots' : List Slot}

/-- The same slots and intents in another order. -/
structure Reordered (σ τ : Equiv.Perm ℕ) (o o' : Outline) : Prop where
  slots : Arranged σ SameTexts o.slots o'.slots
  intents : Arranged τ SameTexts o.intents o'.intents

theorem Reordered.slotNames (h : Reordered σ τ o o') : Arranged σ Eq o.slotNames o'.slotNames :=
  h.slots.map fun _ _ _ _ hsame => congrArg escape hsame.1

theorem Reordered.intentNames (h : Reordered σ τ o o') :
    Arranged τ Eq o.intentNames o'.intentNames :=
  h.intents.map fun _ _ _ _ hsame => hsame.1

theorem SlotRules.of_sameTexts (h : SlotRules n) (hsame : SameTexts n n') : SlotRules n' where
  name_usable := hsame.1 ▸ h.name_usable
  words_usable := fun word hword => h.words_usable word (hsame.2.mem_iff.mpr hword)
  words_allowed := fun word hword => h.words_allowed word (hsame.2.mem_iff.mpr hword)
  words_distinct := (hsame.2.map escape).nodup_iff.mp h.words_distinct

theorem PhraseRules.mono {phrase : String} (h : PhraseRules names phrase)
    (hnames : ∀ name ∈ names, name ∈ names') : PhraseRules names' phrase where
  variables_distinct := h.variables_distinct
  variables_usable := h.variables_usable
  slots_declared := fun r hr => hnames _ (h.slots_declared r hr)

theorem IntentRules.of_sameTexts (h : IntentRules names n) (hsame : SameTexts n n')
    (hnames : ∀ name ∈ names, name ∈ names') : IntentRules names' n' where
  name_usable := hsame.1 ▸ h.name_usable
  has_phrases := by
    intro hempty
    exact h.has_phrases (hempty ▸ hsame.2).eq_nil
  phrases := fun phrase hphrase => (h.phrases phrase (hsame.2.mem_iff.mpr hphrase)).mono hnames
  one_slot := fun p hp q hq => h.one_slot p (hsame.2.mem_iff.mpr hp) q (hsame.2.mem_iff.mpr hq)

/-- The rules do not look at the order. -/
theorem WellDeclared.of_reordered (h : o.WellDeclared) (hr : Reordered σ τ o o') :
    o'.WellDeclared where
  slots_distinct := hr.slotNames.nodup h.slots_distinct
  slots := by
    intro n' hn'
    obtain ⟨n, hn, hsame⟩ := hr.slots.exists_left hn'
    exact (h.slots n hn).of_sameTexts hsame
  has_intents := hr.intents.ne_nil h.has_intents
  intents := by
    intro n' hn'
    obtain ⟨n, hn, hsame⟩ := hr.intents.exists_left hn'
    exact (h.intents n hn).of_sameTexts hsame fun name => hr.slotNames.mem_iff.mp
  slots_free := fun name hname => h.slots_free name (hr.slotNames.mem_iff.mpr hname)
  intents_free := fun name hname => h.intents_free name (hr.intentNames.mem_iff.mpr hname)
  intents_apart := by
    intro name hname hslot
    exact h.intents_apart name (hr.intentNames.mem_iff.mpr hname) (hr.slotNames.mem_iff.mpr hslot)

end Outline

/-- The same name, and the same elements in any order. -/
def Slot.SameElements (s s' : Slot) : Prop := s.name = s'.name ∧ s.elements.Perm s'.elements

namespace Intent

/-- The names of the variables, with the names of their slots and whether they are required. -/
def bindings (i : Intent) : List (String × String × Bool) :=
  i.vars.map fun v => (v.name, v.slot.name, v.required)

/-- The same name, and the same phrases and variables in any order. The spelling of a variable may
differ, for it is that of the first phrase. -/
structure SameMeaning (i i' : Intent) : Prop where
  name_eq : i.name = i'.name
  phrases_perm : i.phrases.Perm i'.phrases
  bindings_perm : i.bindings.Perm i'.bindings

end Intent

namespace Grammar

/-- The same slots and intents in another order. -/
structure SameMeaning (σ τ : Equiv.Perm ℕ) (g g' : Grammar) : Prop where
  slots : Arranged σ Slot.SameElements g.slots g'.slots
  intents : Arranged τ Intent.SameMeaning g.intents g'.intents

end Grammar

namespace Outline
variable {o o' : Outline} {σ τ : Equiv.Perm ℕ} {n n' : String × List String}
  {names names' : List String} {slots slots' : List Slot}

theorem sameElements_toSlot (h : SameTexts n n') : Slot.SameElements (toSlot n) (toSlot n') :=
  ⟨congrArg escape h.1, h.2.map _⟩

/-- The bindings of an intent are read off any of the references to a variable. -/
theorem mem_bindings_iff (h : IntentRules names n) {name slot : String} {required : Bool} :
    (name, slot, required) ∈ (toIntent slots n).bindings ↔
      ∃ phrase ∈ n.2, ∃ r ∈ references phrase,
        r.variableName = name ∧ r.slotName = slot ∧ boundByAll n.2 name = required := by
  have hb := h.bindsPhrases slots
  constructor
  · intro hmem
    obtain ⟨v, hv, heq⟩ := List.mem_map.mp hmem
    obtain ⟨phrase, hphrase, r, hr, rfl⟩ := exists_reference_of_mem_vars hv
    obtain ⟨rfl, rfl, rfl⟩ : _ = name ∧ _ = slot ∧ _ = required := by simpa using heq
    exact ⟨phrase, hphrase, r, hr, rfl, (Grammar.slotNamed_name slots _).symm, rfl⟩
  · rintro ⟨phrase, hphrase, r, hr, rfl, rfl, rfl⟩
    obtain ⟨v, hv, hname, hslot⟩ := hb.bound phrase hphrase r hr
    apply List.mem_map.mpr
    refine ⟨v, hv, ?_⟩
    rw [hb.required v hv, hname, hslot]
    rfl

theorem bindings_nodup (slots : List Slot) (n : String × List String) :
    (toIntent slots n).bindings.Nodup := by
  apply List.Nodup.of_map (·.1)
  simp only [Intent.bindings, toIntent, List.map_map]
  exact firstsBy_keys_nodup Reference.variableName _

theorem sameMeaning_toIntent (h : IntentRules names n) (h' : IntentRules names' n')
    (hsame : SameTexts n n') : (toIntent slots n).SameMeaning (toIntent slots' n') where
  name_eq := hsame.1
  phrases_perm := hsame.2
  bindings_perm := by
    rw [List.perm_ext_iff_of_nodup (bindings_nodup slots n) (bindings_nodup slots' n')]
    rintro ⟨name, slot, required⟩
    rw [mem_bindings_iff h, mem_bindings_iff h']
    have hbound : boundByAll n.2 name = boundByAll n'.2 name := hsame.2.all_eq
    simp only [hbound, hsame.2.mem_iff]

theorem WellDeclared.sameMeaning (h : o.WellDeclared) (hr : Reordered σ τ o o')
    (source : Option String) : (o.grammar source).SameMeaning σ τ (o'.grammar source) where
  slots := hr.slots.map fun _ _ _ _ hsame => sameElements_toSlot hsame
  intents := by
    have h' := h.of_reordered hr
    exact hr.intents.map fun n hn n' hn' hsame =>
      sameMeaning_toIntent (h.intents n hn) (h'.intents n' hn') hsame

end Outline

/-- A list with its items in another order, or the same value. -/
inductive ItemsReordered : Value → Value → Prop
  | list {items items' : List Value} (h : items.Perm items') :
      ItemsReordered (.list items) (.list items')
  | same (v : Value) : ItemsReordered v v

/-- The same key, and the same value up to the order of its items. -/
def SameEntry (entry entry' : Scalar × Value) : Prop :=
  entry.1 = entry'.1 ∧ ItemsReordered entry.2 entry'.2

/-- A map with its entries in another order, each up to the order of its items. What is no map has
no entries and stays as it is. -/
inductive EntriesReordered (σ : Equiv.Perm ℕ) : Option Value → Option Value → Prop
  | map {entries entries' : List (Scalar × Value)} (h : Arranged σ SameEntry entries entries') :
      EntriesReordered σ (some (.map entries)) (some (.map entries'))
  | same {v : Option Value} (h : ∀ entries, v ≠ some (.map entries)) : EntriesReordered σ v v

/-- A document with the slots of its context in another order, and its intents. A document
without a context stays as it is. -/
inductive Reordered (σ τ : Equiv.Perm ℕ) : Value → Value → Prop
  | context {root root' context context' : List (Scalar × Value)}
      (hcontext : lookup root "context" = some (.map context))
      (hcontext' : lookup root' "context" = some (.map context'))
      (hslots : EntriesReordered σ (lookup context "slots") (lookup context' "slots"))
      (hintents : EntriesReordered τ (lookup context "expressions")
        (lookup context' "expressions")) : Reordered σ τ (.map root) (.map root')
  | same {document : Value}
      (h : ∀ root context, document = .map root → lookup root "context" ≠ some (.map context)) :
      Reordered σ τ document document

section Symmetry
variable {σ τ : Equiv.Perm ℕ}

theorem SameEntry.symm {entry entry' : Scalar × Value} (h : SameEntry entry entry') :
    SameEntry entry' entry := by
  refine ⟨h.1.symm, ?_⟩
  have hitems := h.2
  generalize entry.2 = v at hitems
  generalize entry'.2 = v' at hitems
  cases hitems with
  | list hperm => exact .list hperm.symm
  | same => exact .same v

theorem EntriesReordered.symm {v v' : Option Value} (h : EntriesReordered σ v v') :
    EntriesReordered σ.symm v' v := by
  cases h with
  | map h => exact .map (h.symm fun _ _ hsame => hsame.symm)
  | same h => exact .same h

theorem Reordered.symm {document document' : Value} (h : Reordered σ τ document document') :
    Reordered σ.symm τ.symm document' document := by
  cases h with
  | context hcontext hcontext' hslots hintents =>
      exact .context hcontext' hcontext hslots.symm hintents.symm
  | same h => exact .same h

end Symmetry

section Reading
variable {σ τ : Equiv.Perm ℕ} {entry entry' : Scalar × Value} {v v' : Option Value}

theorem eq_word_of_display {value : Value} {text : String} (h : value.display = .ok text) :
    text = value.word := by
  rw [Value.word, h]
  rfl

theorem hasTexts_list_iff {items : List Value} {texts : List String} :
    HasTexts (.list items) texts ↔
      (∀ item ∈ items, HasText item item.word) ∧ texts = items.map Value.word := by
  have hitem (item : Value) (text : String) :
      HasText item text ↔ HasText item item.word ∧ text = item.word := by
    constructor
    · intro h
      have htext := eq_word_of_display h.2
      exact ⟨htext ▸ h, htext⟩
    · rintro ⟨h, rfl⟩
      exact h
  rw [← Stepwise.forall₂_map_iff_of_mem fun item _ => hitem item]
  constructor
  · intro h
    cases h with
    | list h => exact h
  · exact .list

theorem HasTexts.eq_words {value : Value} {texts : List String} (h : HasTexts value texts) :
    texts = value.words := by
  cases h with
  | null => rfl
  | list hitems => exact (hasTexts_list_iff.mp (.list hitems)).2

/-- Entries are read as their texts and as nothing else. -/
theorem forall₂_readsEntry_iff {entries : List (Scalar × Value)}
    {named : List (String × List String)} :
    List.Forall₂ ReadsEntry entries named ↔
      (∀ entry ∈ entries, ReadsEntry entry (entryTexts entry)) ∧
        named = entries.map entryTexts := by
  apply Stepwise.forall₂_map_iff_of_mem
  intro entry _ n
  constructor
  · intro h
    have hname : n.1 = (Value.scalar entry.1).word := eq_word_of_display h.1
    have hn : n = entryTexts entry := Prod.ext hname h.2.eq_words
    exact ⟨hn ▸ h, hn⟩
  · rintro ⟨h, rfl⟩
    exact h

/-- The order of the items is the order of their texts. -/
theorem ReadsEntry.of_sameEntry (h : ReadsEntry entry (entryTexts entry))
    (hsame : SameEntry entry entry') :
    ReadsEntry entry' (entryTexts entry') ∧ SameTexts (entryTexts entry) (entryTexts entry') := by
  obtain ⟨key, value⟩ := entry
  obtain ⟨key', value'⟩ := entry'
  obtain ⟨rfl, hitems⟩ : key = key' ∧ ItemsReordered value value' := hsame
  cases hitems with
  | same => exact ⟨h, rfl, .refl _⟩
  | list hperm =>
      have hread := (hasTexts_list_iff.mp h.2).1
      refine ⟨⟨h.1, hasTexts_list_iff.mpr ⟨?_, rfl⟩⟩, rfl, hperm.map Value.word⟩
      intro item hitem
      exact hread item (hperm.mem_iff.mpr hitem)

theorem reads_of_arranged {entries entries' : List (Scalar × Value)}
    {named : List (String × List String)} (hentries : Arranged σ SameEntry entries entries')
    (h : List.Forall₂ ReadsEntry entries named) :
    ∃ named', List.Forall₂ ReadsEntry entries' named' ∧ Arranged σ SameTexts named named' := by
  obtain ⟨hread, rfl⟩ := forall₂_readsEntry_iff.mp h
  refine ⟨entries'.map entryTexts, forall₂_readsEntry_iff.mpr ⟨?_, rfl⟩,
    hentries.map fun e he e' _ hsame => ((hread e he).of_sameEntry hsame).2⟩
  intro e' he'
  obtain ⟨e, he, hsame⟩ := hentries.exists_left he'
  exact ((hread e he).of_sameEntry hsame).1

theorem readsSlots_of_reordered {named : List (String × List String)}
    (hentries : EntriesReordered σ v v') (h : ReadsSlots v named) :
    ∃ named', ReadsSlots v' named' ∧ Arranged σ SameTexts named named' := by
  have hnothing : Arranged σ SameTexts [] [] := fun _ => .none
  cases hentries with
  | map hentries =>
      cases h with
      | map h =>
          obtain ⟨named', hread, harranged⟩ := reads_of_arranged hentries h
          exact ⟨named', .map hread, harranged⟩
  | same hno =>
      cases h with
      | absent => exact ⟨[], .absent, hnothing⟩
      | null => exact ⟨[], .null, hnothing⟩
      | map _ => exact absurd rfl (hno _)

/-- A document in another order is read as its outline in that order. -/
theorem reads_of_reordered {document document' : Value} {o : Outline}
    (hdocument : Reordered σ τ document document') (h : Reads document o) :
    ∃ o', Reads document' o' ∧ o.Reordered σ τ o' := by
  obtain ⟨root, context, entries, rfl, hcontext, hslots, hentries, hintents⟩ := h
  cases hdocument with
  | same hno => exact absurd hcontext (hno root context rfl)
  | @context _ root' context₁ context' hcontext₁ hcontext' hslots' hintents' =>
      obtain rfl : context = context₁ := by
        rw [hcontext] at hcontext₁
        exact Value.map.inj (Option.some.inj hcontext₁)
      obtain ⟨slots, hslots, hslotsArranged⟩ := readsSlots_of_reordered hslots' hslots
      rw [hentries] at hintents'
      generalize hentries' : lookup context' "expressions" = found at hintents'
      cases hintents' with
      | same hno => exact absurd rfl (hno _)
      | map harranged =>
          obtain ⟨intents, hread, hintentsArranged⟩ := reads_of_arranged harranged hintents
          exact ⟨⟨slots, intents⟩,
            ⟨root', context', _, rfl, hcontext', hslots, hentries', hread⟩,
            hslotsArranged, hintentsArranged⟩

end Reading

theorem built_of_reordered {σ τ : Equiv.Perm ℕ} {source : Option String}
    {document document' : Value} {g : Grammar} (hdocument : Reordered σ τ document document')
    (h : Grammar.ofValue source document = .ok g) :
    ∃ g', Grammar.ofValue source document' = .ok g' ∧ g.SameMeaning σ τ g' := by
  obtain ⟨o, hread, hrules, rfl⟩ := Grammar.ofValue_eq_ok_iff.mp h
  obtain ⟨o', hread', hreordered⟩ := reads_of_reordered hdocument hread
  exact ⟨o'.grammar source,
    Grammar.ofValue_eq_ok_iff.mpr ⟨o', hread', hrules.of_reordered hreordered, rfl⟩,
    hrules.sameMeaning hreordered source⟩

/-- A document with its slots, intents, words and phrases in another order is accepted if the
document is, and the two grammars mean the same: slots and intents are moved as their entries
are, slots keep their elements, and intents their variables. -/
theorem order_irrelevant (σ τ : Equiv.Perm ℕ) (source : Option String) (document document' : Value)
    (hdocument : Reordered σ τ document document') :
    ((∃ g, Grammar.ofValue source document = .ok g) ↔
      ∃ g', Grammar.ofValue source document' = .ok g') ∧
    ∀ g g', Grammar.ofValue source document = .ok g → Grammar.ofValue source document' = .ok g' →
      g.SameMeaning σ τ g' := by
  refine ⟨⟨?_, ?_⟩, ?_⟩
  · rintro ⟨g, hg⟩
    obtain ⟨g', hg', _⟩ := built_of_reordered hdocument hg
    exact ⟨g', hg'⟩
  · rintro ⟨g', hg'⟩
    obtain ⟨g, hg, _⟩ := built_of_reordered hdocument.symm hg'
    exact ⟨g, hg⟩
  · intro g g' hg hg'
    obtain ⟨built, hbuilt, hsame⟩ := built_of_reordered hdocument hg
    obtain rfl : built = g' := Except.ok.inj (hbuilt.symm.trans hg')
    exact hsame

/-- A context with the given slots and intents. -/
def contextWith (slots intents : List (Scalar × Value)) : Value :=
  .map [(.text "context", .map [(.text "slots", .map slots), (.text "expressions", .map intents)])]

/-- Two slots, and an intent whose first phrase decides how a variable is spelled. -/
def gateContext : Value :=
  contextWith [(.text "State", .list [.text "up", .text "down"]), (.text "Side", .null)]
    [(.text "Move", .list [.text "move $State:class", .text "$State:Class on $Side:side"])]

/-- The slots change places, and so do the words of the first and the phrases. -/
def turnedGateContext : Value :=
  contextWith [(.text "Side", .null), (.text "State", .list [.text "down", .text "up"])]
    [(.text "Move", .list [.text "$State:Class on $Side:side", .text "move $State:class"])]

theorem gateContext_reordered :
    Reordered (Equiv.swap 0 1) (Equiv.refl ℕ) gateContext turnedGateContext := by
  refine .context rfl rfl (.map ?_) (.map ?_)
  · intro n
    match n with
    | 0 => exact .some ⟨rfl, .same _⟩
    | 1 => exact .some ⟨rfl, .list (.swap _ _ _)⟩
    | n + 2 =>
        rw [Equiv.swap_apply_of_ne_of_ne (by omega) (by omega)]
        exact .none
  · intro n
    match n with
    | 0 => exact .some ⟨rfl, .list (.swap _ _ _)⟩
    | n + 1 => exact .none

/-- Both contexts are accepted, and their grammars mean the same. -/
theorem gateContext_order :
    ∃ g g', Grammar.ofValue none gateContext = .ok g ∧
      Grammar.ofValue none turnedGateContext = .ok g' ∧
      g.SameMeaning (Equiv.swap 0 1) (Equiv.refl ℕ) g' := by
  have hbuilt : ((Grammar.ofValue none gateContext).toOption).isSome = true := by decide +kernel
  obtain ⟨g, hg⟩ := Option.isSome_iff_exists.mp hbuilt
  rw [Stepwise.toOption_eq_some_iff] at hg
  obtain ⟨haccepted, hmeaning⟩ := order_irrelevant (Equiv.swap 0 1) (Equiv.refl ℕ) none gateContext
    turnedGateContext gateContext_reordered
  obtain ⟨g', hg'⟩ := haccepted.mp ⟨g, hg⟩
  exact ⟨g, g', hg, hg', hmeaning g g' hg hg'⟩

end VoiceIntents
