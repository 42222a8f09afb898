import VoiceIntents.Proofs.Build

/-!
# Exact acceptance of plain data

A document of plain data is built into a grammar exactly when it has the form of a context
and the names and references in it keep the rules of outlines. Form and rules are stated on
the values of the document themselves.
-/

namespace VoiceIntents

open Stepwise

/-- Plain data: null, truth values, numbers, texts, lists, and maps with texts as keys. An
integer has no more than the digits that it can be shown with. -/
inductive IsData : Value → Prop
  | null : IsData (.scalar .null)
  | bool (b : Bool) : IsData (.scalar (.bool b))
  | int {n : Int} (h : (Nat.toDigits 10 n.natAbs).length ≤ 4300) : IsData (.scalar (.int n))
  | float (x : Binary64) : IsData (.scalar (.float x))
  | text (s : String) : IsData (.scalar (.text s))
  | list {items : List Value} (h : ∀ v ∈ items, IsData v) : IsData (.list items)
  | map {entries : List (Scalar × Value)} (hkeys : ∀ e ∈ entries, ∃ key, e.1 = .text key)
      (h : ∀ e ∈ entries, IsData e.2) : IsData (.map entries)

/-- The text of a value, empty where it has none. -/
def Value.word (v : Value) : String := v.display.toOption.getD ""

/-- The texts of the items of a list. -/
def Value.words : Value → List String
  | .list items => items.map Value.word
  | _ => []

/-- The name of an entry and the texts under it. -/
def entryTexts (entry : Scalar × Value) : String × List String :=
  ((Value.scalar entry.1).word, entry.2.words)

/-- A list without nulls, lists and maps. -/
def IsPlainList (v : Value) : Prop :=
  ∃ items, v = .list items ∧ ∀ item ∈ items, Grammar.isPlain item = true

/-- The entries of the slots, which may be absent or null. -/
inductive HasSlotEntries : Option Value → List (Scalar × Value) → Prop
  | absent : HasSlotEntries none []
  | null : HasSlotEntries (some (.scalar .null)) []
  | map (entries : List (Scalar × Value)) : HasSlotEntries (some (.map entries)) entries

/-- A document that is a context with the given entries for slots and intents. -/
def HasForm (document : Value) (slots intents : List (Scalar × Value)) : Prop :=
  ∃ root context, document = .map root ∧
    lookup root "context" = some (.map context) ∧
    HasSlotEntries (lookup context "slots") slots ∧
    lookup context "expressions" = some (.map intents)

/-- A document that has the form of a context and keeps the rules. -/
def Acceptable (document : Value) : Prop :=
  ∃ slots intents, HasForm document slots intents ∧
    (∀ entry ∈ slots, entry.2 = .scalar .null ∨ IsPlainList entry.2) ∧
    (∀ entry ∈ intents, IsPlainList entry.2) ∧
    (Outline.mk (slots.map entryTexts) (intents.map entryTexts)).WellDeclared

section Data

attribute [simp] IsData.null IsData.bool IsData.float IsData.text

@[simp] theorem isData_int_iff {n : Int} :
    IsData (.scalar (.int n)) ↔ (Nat.toDigits 10 n.natAbs).length ≤ 4300 := by
  constructor
  · intro h
    cases h
    assumption
  · exact .int

@[simp] theorem isData_list_iff {items : List Value} :
    IsData (.list items) ↔ ∀ v ∈ items, IsData v := by
  constructor
  · intro h
    cases h
    assumption
  · exact .list

@[simp] theorem isData_map_iff {entries : List (Scalar × Value)} :
    IsData (.map entries) ↔ ∀ e ∈ entries, (∃ key, e.1 = .text key) ∧ IsData e.2 := by
  constructor
  · intro h e he
    cases h with
    | map hkeys h => exact ⟨hkeys e he, h e he⟩
  · intro h
    exact .map (fun e he => (h e he).1) fun e he => (h e he).2

theorem IsData.lookup {entries : List (Scalar × Value)} {key : String} {v : Value}
    (hdata : IsData (.map entries)) (hfound : lookup entries key = some v) : IsData v := by
  cases hdata with
  | map _ h =>
      obtain ⟨entry, hentry, rfl⟩ := Option.map_eq_some_iff.mp hfound
      exact h entry (List.mem_of_find?_eq_some hentry)

/-- Plain data has a text unless it is null, a list or a map. -/
theorem IsData.display_eq {v : Value} (hdata : IsData v) (hplain : Grammar.isPlain v = true) :
    v.display = .ok v.word := by
  cases hdata with
  | null => cases hplain
  | bool b => rfl
  | int h =>
      have hshown : (Nat.toDigits 10 _).length ≤ Numeral.digitLimit := h
      simp [Value.word, Value.display, Scalar.display, Scalar.inspect, displayInt, hshown,
        Except.toOption]
  | float x => rfl
  | text s => rfl
  | list h => cases hplain
  | map hkeys h => cases hplain

theorem IsData.hasText_iff {v : Value} (hdata : IsData v) {text : String} :
    HasText v text ↔ Grammar.isPlain v = true ∧ text = v.word := by
  unfold HasText
  constructor
  · rintro ⟨hplain, htext⟩
    rw [hdata.display_eq hplain] at htext
    exact ⟨hplain, (Except.ok.inj htext).symm⟩
  · rintro ⟨hplain, rfl⟩
    exact ⟨hplain, hdata.display_eq hplain⟩

theorem IsData.hasTexts_iff {v : Value} (hdata : IsData v) {texts : List String} :
    HasTexts v texts ↔ (v = .scalar .null ∨ IsPlainList v) ∧ texts = v.words := by
  constructor
  · intro h
    cases h with
    | null => exact ⟨.inl rfl, rfl⟩
    | @list items _ h =>
        cases hdata with
        | list hitems =>
            obtain ⟨hplain, rfl⟩ :=
              (forall₂_map_iff_of_mem fun v hv _ => (hitems v hv).hasText_iff).mp h
            exact ⟨.inr ⟨items, rfl, hplain⟩, rfl⟩
  · rintro ⟨rfl | ⟨items, rfl, hplain⟩, rfl⟩
    · exact .null
    · cases hdata with
      | list hitems =>
          exact .list ((forall₂_map_iff_of_mem fun v hv _ => (hitems v hv).hasText_iff).mpr
            ⟨hplain, rfl⟩)

/-- The entries of a map of plain data, read as names with texts. -/
theorem IsData.reads_iff {entries : List (Scalar × Value)} (hdata : IsData (.map entries))
    {named : List (String × List String)} :
    List.Forall₂ ReadsEntry entries named ↔
      (∀ entry ∈ entries, entry.2 = .scalar .null ∨ IsPlainList entry.2) ∧
        named = entries.map entryTexts := by
  cases hdata with
  | map hkeys h =>
      apply forall₂_map_iff_of_mem
      intro entry hentry n
      obtain ⟨key, hkey⟩ := hkeys entry hentry
      have hname : entry.1.display = .ok (Value.scalar entry.1).word := by
        rw [hkey]
        rfl
      rw [ReadsEntry, (h entry hentry).hasTexts_iff, hname, Except.ok.injEq, entryTexts,
        Prod.ext_iff, eq_comm]
      exact and_left_comm

theorem IsData.readsSlots_iff {entry : Option Value} {named : List (String × List String)}
    (hdata : ∀ v, entry = some v → IsData v) :
    ReadsSlots entry named ↔
      ∃ entries, HasSlotEntries entry entries ∧
        (∀ e ∈ entries, e.2 = .scalar .null ∨ IsPlainList e.2) ∧
        named = entries.map entryTexts := by
  constructor
  · intro h
    cases h with
    | absent => exact ⟨[], .absent, by simp, rfl⟩
    | null => exact ⟨[], .null, by simp, rfl⟩
    | map h => exact ⟨_, .map _, (hdata _ rfl).reads_iff.mp h⟩
  · rintro ⟨entries, hentries, h⟩
    cases hentries with
    | absent =>
        obtain ⟨_, rfl⟩ := h
        exact .absent
    | null =>
        obtain ⟨_, rfl⟩ := h
        exact .null
    | map => exact .map ((hdata _ rfl).reads_iff.mpr h)

/-- The outline of plain data is made of the texts of its entries. -/
theorem IsData.reads_document_iff {document : Value} (hdata : IsData document) {o : Outline} :
    Reads document o ↔
      ∃ slots intents, HasForm document slots intents ∧
        (∀ entry ∈ slots, entry.2 = .scalar .null ∨ IsPlainList entry.2) ∧
        (∀ entry ∈ intents, entry.2 = .scalar .null ∨ IsPlainList entry.2) ∧
        o = ⟨slots.map entryTexts, intents.map entryTexts⟩ := by
  constructor
  · rintro ⟨root, context, intents, rfl, hcontext, hslots, hintents, hnamed⟩
    have hinner := hdata.lookup hcontext
    obtain ⟨slots, hentries, hslotLists, hslotTexts⟩ :=
      (IsData.readsSlots_iff fun _ => hinner.lookup).mp hslots
    obtain ⟨hlists, htexts⟩ := (hinner.lookup hintents).reads_iff.mp hnamed
    refine ⟨slots, intents, ⟨root, context, rfl, hcontext, hentries, hintents⟩, hslotLists,
      hlists, ?_⟩
    rw [← hslotTexts, ← htexts]
  · rintro ⟨slots, intents, ⟨root, context, rfl, hcontext, hentries, hintents⟩, hslotLists,
      hlists, rfl⟩
    have hinner := hdata.lookup hcontext
    exact ⟨root, context, intents, rfl, hcontext,
      (IsData.readsSlots_iff fun _ => hinner.lookup).mpr ⟨slots, hentries, hslotLists, rfl⟩,
      hintents, (hinner.lookup hintents).reads_iff.mpr ⟨hlists, rfl⟩⟩

end Data

/-- A document of plain data is built into a grammar exactly when it is acceptable. -/
theorem ofValue_accepts_iff (source : Option String) (document : Value)
    (hdata : IsData document) :
    (∃ g, Grammar.ofValue source document = .ok g) ↔ Acceptable document := by
  simp only [Grammar.ofValue_eq_ok_iff, hdata.reads_document_iff]
  constructor
  · rintro ⟨_, _, ⟨slots, intents, hform, hslots, hintents, rfl⟩, hrules, rfl⟩
    refine ⟨slots, intents, hform, hslots, ?_, hrules⟩
    intro entry hentry
    refine (hintents entry hentry).resolve_left ?_
    -- Null is read as an empty list, which no intent may have.
    intro hnull
    have hphrases := (hrules.intents _ (List.mem_map_of_mem hentry)).has_phrases
    simp [entryTexts, hnull, Value.words] at hphrases
  · rintro ⟨slots, intents, hform, hslots, hintents, hrules⟩
    exact ⟨_, _, ⟨slots, intents, hform, hslots, fun e he => .inr (hintents e he), rfl⟩,
      hrules, rfl⟩

/-- A context with keywords for names, an optional variable and a number for a phrase. -/
def loopContext : Value :=
  .map [(.text "context", .map
    [(.text "slots", .map
        [(.text "for", .list [.text "if", .text "while"]), (.text "Unused", .null)]),
      (.text "expressions", .map
        [(.text "Loop", .list [.text "loop $for:class now", .int 7]),
          (.text "Stop", .list [.text "stop"])])])]

theorem loopContext_isData : IsData loopContext := by
  have hseven : (Nat.toDigits 10 7).length ≤ 4300 := by decide
  simp [loopContext, Value.text, Value.null, Value.int, hseven]

/-- The context of loops is plain data, is built, and so is acceptable. -/
theorem loopContext_acceptable : IsData loopContext ∧ Acceptable loopContext :=
  ⟨loopContext_isData, (ofValue_accepts_iff none loopContext loopContext_isData).mp ⟨_, rfl⟩⟩

end VoiceIntents
