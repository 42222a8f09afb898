import Mathlib.Data.List.Forall2
import VoiceIntents.Grammar.Build

/-!
# Outlines of contexts

An outline is what a context document says in plain texts: the slots with their words and the
intents with their phrases, all as written. The rules on names and references are stated on
outlines, and an outline that meets them determines a grammar. Nothing here goes through the
builder, which stops at the first fault; every rule is stated for the outline as a whole.
-/

namespace VoiceIntents

open Identifier (escape)

/-- A name that has no problem as an identifier. -/
def Identifier.Usable (name : String) : Prop := Identifier.problem? name = none

instance (name : String) : Decidable (Identifier.Usable name) :=
  inferInstanceAs (Decidable (Identifier.problem? name = none))

/-- The identifier of the variable that a reference binds. -/
def Reference.variableName (r : Reference) : String := escape r.name

/-- The identifier of the slot that a reference names. -/
def Reference.slotName (r : Reference) : String := escape r.slot

section Firsts
variable {α β : Type} {key : α → String}

/-- Of the items with one key only the first stays. -/
def firstsBy (key : α → String) : List α → List α
  | [] => []
  | a :: rest => a :: (firstsBy key rest).filter fun b => key b ≠ key a

theorem firstsBy_map (key : β → String) (f : α → β) (items : List α) :
    firstsBy key (items.map f) = (firstsBy (key ∘ f) items).map f := by
  induction items with
  | nil => rfl
  | cons a rest ih =>
      simp only [List.map_cons, firstsBy, ih, List.filter_map]
      rfl

theorem mem_of_mem_firstsBy {items : List α} {a : α} (h : a ∈ firstsBy key items) :
    a ∈ items := by
  induction items with
  | nil => exact h
  | cons b rest ih =>
      rcases List.mem_cons.mp h with rfl | h
      · exact List.mem_cons_self
      · exact List.mem_cons_of_mem _ (ih (List.mem_of_mem_filter h))

theorem firstsBy_keys_nodup (key : α → String) (items : List α) :
    ((firstsBy key items).map key).Nodup := by
  induction items with
  | nil => exact List.nodup_nil
  | cons a rest ih =>
      rw [firstsBy, List.map_cons, List.nodup_cons]
      constructor
      · intro h
        obtain ⟨b, hb, hk⟩ := List.mem_map.mp h
        simpa [hk] using (List.mem_filter.mp hb).2
      · exact ih.sublist (List.filter_sublist.map key)

/-- The item that stays for a key is the one that a search for the key finds. -/
theorem mem_firstsBy_iff {items : List α} {a : α} :
    a ∈ firstsBy key items ↔ items.find? (fun b => key b = key a) = some a := by
  induction items with
  | nil => simp [firstsBy]
  | cons b rest ih =>
      rw [firstsBy, List.mem_cons, List.mem_filter, ih]
      by_cases hk : key b = key a
      · simp [hk, eq_comm]
      · have hne : a ≠ b := by
          rintro rfl
          exact hk rfl
        simp [hk, hne, Ne.symm hk]

theorem exists_mem_firstsBy (key : α → String) {items : List α} {a : α} (h : a ∈ items) :
    ∃ b ∈ firstsBy key items, key b = key a := by
  have hfound : (items.find? fun b => key b = key a).isSome = true :=
    List.find?_isSome.mpr ⟨a, h, by simp⟩
  obtain ⟨b, hb⟩ := Option.isSome_iff_exists.mp hfound
  have hk : key b = key a := by simpa using List.find?_some hb
  exact ⟨b, mem_firstsBy_iff.mpr (by rw [hk]; exact hb), hk⟩

end Firsts

/-- The names and texts of a context: its slots with their words and its intents with their
phrases. -/
structure Outline where
  slots : List (String × List String)
  intents : List (String × List String)
  deriving DecidableEq, Repr

namespace Outline

/-- The identifiers of the slots. -/
def slotNames (o : Outline) : List String := o.slots.map fun entry => escape entry.1

/-- The names of the intents, which are not escaped. -/
def intentNames (o : Outline) : List String := o.intents.map (·.1)

/-- The rules on a slot and its words. -/
structure SlotRules (entry : String × List String) : Prop where
  name_usable : Identifier.Usable (escape entry.1)
  words_usable : ∀ word ∈ entry.2, Identifier.Usable (escape word)
  words_allowed : ∀ word ∈ entry.2, escape word ≠ "mro"
  words_distinct : (entry.2.map escape).Nodup

/-- The rules on one phrase, for the slots that there are. -/
structure PhraseRules (slotNames : List String) (phrase : String) : Prop where
  variables_distinct : ((references phrase).map Reference.variableName).Nodup
  variables_usable : ∀ r ∈ references phrase, Identifier.Usable r.variableName
  slots_declared : ∀ r ∈ references phrase, r.slotName ∈ slotNames

/-- The rules on an intent and its phrases. A variable has one slot in all of them. -/
structure IntentRules (slotNames : List String) (entry : String × List String) : Prop where
  name_usable : Identifier.Usable entry.1
  has_phrases : entry.2 ≠ []
  phrases : ∀ phrase ∈ entry.2, PhraseRules slotNames phrase
  one_slot : ∀ p ∈ entry.2, ∀ q ∈ entry.2, ∀ r ∈ references p, ∀ s ∈ references q,
    r.variableName = s.variableName → r.slotName = s.slotName

/-- All the rules on the names and references of a context. Slots and intents share one set
of names with the generated module. -/
structure WellDeclared (o : Outline) : Prop where
  slots_distinct : o.slotNames.Nodup
  slots : ∀ entry ∈ o.slots, SlotRules entry
  has_intents : o.intents ≠ []
  intents : ∀ entry ∈ o.intents, IntentRules o.slotNames entry
  slots_free : ∀ name ∈ o.slotNames, name ∉ Identifier.moduleNames
  intents_free : ∀ name ∈ o.intentNames, name ∉ Identifier.moduleNames
  intents_apart : ∀ name ∈ o.intentNames, name ∉ o.slotNames

/-- A slot with its words as elements. -/
def toSlot (entry : String × List String) : Slot :=
  ⟨escape entry.1, entry.2.map fun word => ⟨escape word, word⟩⟩

/-- The slot of a name. A name that is not declared stands for an empty slot. -/
def slotNamed (slots : List Slot) (name : String) : Slot :=
  (slots.find? (·.name = name)).getD ⟨name, []⟩

/-- Every phrase has a reference to the variable. -/
def boundByAll (phrases : List String) (name : String) : Bool :=
  phrases.all fun phrase => (references phrase).any (·.variableName = name)

/-- The variable of the reference that binds it first. -/
def toVariable (slots : List Slot) (phrases : List String) (r : Reference) : Variable :=
  { name := r.variableName
    rawName := r.name
    slot := slotNamed slots r.slotName
    required := boundByAll phrases r.variableName }

/-- An intent, whose variables are those that its phrases bind, each where it is first. -/
def toIntent (slots : List Slot) (entry : String × List String) : Intent :=
  { name := entry.1
    vars := (firstsBy Reference.variableName (entry.2.flatMap references)).map
      (toVariable slots entry.2)
    phrases := entry.2 }

/-- The grammar that an outline declares. -/
def grammar (o : Outline) (source : Option String) : Grammar :=
  { intents := o.intents.map (toIntent (o.slots.map toSlot))
    slots := o.slots.map toSlot
    source }

end Outline

/-- A plain value and its text. -/
def HasText (item : Value) (text : String) : Prop :=
  Grammar.isPlain item = true ∧ item.display = .ok text

/-- A list of plain values and their texts; null stands for an empty list. -/
inductive HasTexts : Value → List String → Prop
  | null : HasTexts (.scalar .null) []
  | list {items texts} (h : List.Forall₂ HasText items texts) : HasTexts (.list items) texts

/-- An entry of a map, read as a name and the texts under it. -/
def ReadsEntry (entry : Scalar × Value) (named : String × List String) : Prop :=
  entry.1.display = .ok named.1 ∧ HasTexts entry.2 named.2

/-- The slots of a context, which may be absent or null. -/
inductive ReadsSlots : Option Value → List (String × List String) → Prop
  | absent : ReadsSlots none []
  | null : ReadsSlots (some (.scalar .null)) []
  | map {entries slots} (h : List.Forall₂ ReadsEntry entries slots) :
      ReadsSlots (some (.map entries)) slots

/-- A document has the form of a context, with the given outline. -/
def Reads (document : Value) (o : Outline) : Prop :=
  ∃ root context entries, document = .map root ∧
    lookup root "context" = some (.map context) ∧
    ReadsSlots (lookup context "slots") o.slots ∧
    lookup context "expressions" = some (.map entries) ∧
    List.Forall₂ ReadsEntry entries o.intents

end VoiceIntents
