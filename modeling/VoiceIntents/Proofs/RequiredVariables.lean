import VoiceIntents.Proofs.Acceptance
import VoiceIntents.Proofs.SpokenPhrase

/-!
# Required and optional variables

What the variables of an intent are, read off its phrases: each stands where its name is first
met, has the spelling of that place, the slot of all its places, and is required if every phrase
has a place for it. The phrases are the texts of the entry that declares the intent.
-/

namespace VoiceIntents

section Firsts
variable {α : Type} {key : α → String}

theorem firstsBy_filter_key (p : String → Bool) (items : List α) :
    firstsBy key (items.filter fun a => p (key a)) =
      (firstsBy key items).filter fun a => p (key a) := by
  induction items with
  | nil => rfl
  | cons a rest ih =>
      by_cases ha : p (key a) = true
      · rw [List.filter_cons_of_pos (p := fun a => p (key a)) ha, firstsBy, firstsBy,
          List.filter_cons_of_pos (p := fun a => p (key a)) ha, ih, List.filter_comm]
      · rw [List.filter_cons_of_neg (p := fun a => p (key a)) ha, firstsBy,
          List.filter_cons_of_neg (p := fun a => p (key a)) ha, ih, List.filter_filter]
        -- What shares the key of `a` does not pass either.
        apply List.filter_congr
        intro b _
        by_cases hb : key b = key a
        · simp [hb, ha]
        · simp [hb]

/-- The keys of the first items are the keys without repetition, in the order of first coming. -/
theorem map_firstsBy (key : α → String) (items : List α) :
    (firstsBy key items).map key = (items.map key).eraseDups := by
  induction hn : items.length using Nat.strongRecOn generalizing items with
  | ind n ih =>
      subst hn
      cases items with
      | nil => rfl
      | cons a rest =>
          have hshorter : (rest.filter fun b => key b ≠ key a).length < (a :: rest).length :=
            Nat.lt_succ_of_le (List.length_filter_le _ rest)
          calc (firstsBy key (a :: rest)).map key
              = key a :: (firstsBy key (rest.filter fun b => key b ≠ key a)).map key := by
                rw [firstsBy, List.map_cons, firstsBy_filter_key fun name => name ≠ key a]
            _ = key a :: ((rest.filter fun b => key b ≠ key a).map key).eraseDups := by
                rw [ih _ hshorter _ rfl]
            _ = ((a :: rest).map key).eraseDups := by
                rw [List.map_cons, List.eraseDups_cons, List.filter_map]
                simp [Function.comp_def, beq_eq_decide]

end Firsts

namespace Intent

/-- An entry declares an intent: its key has the name for a text, and its value is a list of plain
values that have the phrases for texts. -/
def DeclaredBy (i : Intent) (entry : Scalar × Value) : Prop :=
  entry.1.display = .ok i.name ∧ i.phrases ≠ [] ∧
    ∃ items, entry.2 = .list items ∧ List.Forall₂ HasText items i.phrases

/-- Every phrase has a reference to the variable. -/
def BoundInAll (i : Intent) (name : String) : Prop :=
  ∀ phrase ∈ i.phrases, ∃ r ∈ references phrase, r.variableName = name

/-- The variables of an intent are those that its phrases make. -/
structure Inferred (g : Grammar) (i : Intent) : Prop where
  names_first : i.vars.map (·.name) =
    ((i.phrases.flatMap references).map Reference.variableName).eraseDups
  spelled_first : ∀ v ∈ i.vars, i.spelling? v.name = some v.rawName
  slot_everywhere : ∀ v ∈ i.vars, ∀ phrase ∈ i.phrases, ∀ r ∈ references phrase,
    r.variableName = v.name → g.getSlot? r.slotName = some v.slot
  required_iff : ∀ v ∈ i.vars, (v.required = true ↔ i.BoundInAll v.name)
  mem_required_iff : ∀ v, v ∈ i.required ↔ v ∈ i.vars ∧ i.BoundInAll v.name
  mem_optional_iff : ∀ v, v ∈ i.optional ↔ v ∈ i.vars ∧ ¬i.BoundInAll v.name
  parted : (i.required ++ i.optional).Perm i.vars
  required_order : i.required.Sublist i.vars
  optional_order : i.optional.Sublist i.vars

end Intent

theorem boundByAll_iff {i : Intent} {name : String} :
    Outline.boundByAll i.phrases name = true ↔ i.BoundInAll name := by
  simp [Outline.boundByAll, Intent.BoundInAll]

theorem names_toIntent (slots : List Slot) (entry : String × List String) :
    (Outline.toIntent slots entry).vars.map (·.name) =
      ((entry.2.flatMap references).map Reference.variableName).eraseDups := by
  rw [← map_firstsBy, Outline.toIntent, List.map_map]
  rfl

/-- A variable that is bound to a slot by one phrase is bound to it by all. -/
theorem getSlot?_of_binds {g : Grammar} {i : Intent} {v : Variable} {phrase : String}
    {r : Reference} (hg : g.WellFormed) (hi : i ∈ g.intents) (hb : i.BindsPhrases) (hv : v ∈ i.vars)
    (hphrase : phrase ∈ i.phrases) (hr : r ∈ references phrase) (hname : r.variableName = v.name) :
    g.getSlot? r.slotName = some v.slot := by
  obtain ⟨w, hw, hwname, hwslot⟩ := hb.bound phrase hphrase r hr
  obtain rfl : w = v :=
    List.inj_on_of_nodup_map (hg.vars_distinct i hi) hw hv (hwname.trans hname)
  exact (find?_key_eq_some_iff hg.slots_distinct).mpr ⟨hg.vars_slot i hi w hv, hwslot⟩

theorem inferred_of_ofValue {source : Option String} {document : Value} {g : Grammar}
    (h : Grammar.ofValue source document = .ok g) {i : Intent} (hi : i ∈ g.intents) :
    i.Inferred g := by
  have hg := Grammar.wellFormed_of_ofValue h
  obtain ⟨o, _, hrules, rfl⟩ := Grammar.ofValue_eq_ok_iff.mp h
  obtain ⟨entry, hentry, rfl⟩ := List.mem_map.mp hi
  have hb := (hrules.intents entry hentry).bindsPhrases (o.slots.map Outline.toSlot)
  generalize hintent : Outline.toIntent (o.slots.map Outline.toSlot) entry = i at hi hb
  have hrequired (v : Variable) (hv : v ∈ i.vars) : v.required = true ↔ i.BoundInAll v.name := by
    rw [hb.required v hv, boundByAll_iff]
  exact {
    names_first := by
      rw [← hintent]
      exact names_toIntent _ entry
    spelled_first := hb.spelled
    slot_everywhere := fun v hv phrase hphrase r hr =>
      getSlot?_of_binds hg hi hb hv hphrase hr
    required_iff := hrequired
    mem_required_iff := by
      intro v
      rw [Intent.required, List.mem_filter]
      exact and_congr_right (hrequired v)
    mem_optional_iff := by
      intro v
      rw [Intent.optional, List.mem_filter]
      apply and_congr_right
      intro hv
      rw [← hrequired v hv]
      simp
    parted := List.filter_append_perm _ i.vars
    required_order := List.filter_sublist
    optional_order := List.filter_sublist }

theorem ReadsSlots.hasSlotEntries {entry : Option Value} {named : List (String × List String)}
    (h : ReadsSlots entry named) : ∃ entries, HasSlotEntries entry entries := by
  cases h with
  | absent => exact ⟨[], .absent⟩
  | null => exact ⟨[], .null⟩
  | map => exact ⟨_, .map _⟩

theorem HasTexts.exists_list {value : Value} {texts : List String} (h : HasTexts value texts)
    (hsome : texts ≠ []) :
    ∃ items, value = .list items ∧ List.Forall₂ HasText items texts := by
  cases h with
  | null => exact absurd rfl hsome
  | list hitems => exact ⟨_, rfl, hitems⟩

theorem declaredBy_of_reads {slots : List Slot} {entries : List (Scalar × Value)}
    {named : List (String × List String)} (h : List.Forall₂ ReadsEntry entries named)
    (hphrases : ∀ n ∈ named, n.2 ≠ []) :
    List.Forall₂ (fun entry i => Intent.DeclaredBy i entry) entries
      (named.map (Outline.toIntent slots)) := by
  induction h with
  | nil => exact .nil
  | cons hread _ ih =>
      obtain ⟨hsome, hrest⟩ := List.forall_mem_cons.mp hphrases
      exact .cons ⟨hread.1, hsome, hread.2.exists_list hsome⟩ (ih hrest)

/-- The intents of a grammar are those that the entries of its document declare, one for each in
order, and the variables of each are those that its phrases make. -/
theorem variables_inferred (source : Option String) (document : Value) (g : Grammar)
    (h : Grammar.ofValue source document = .ok g) :
    ∃ slots intents, HasForm document slots intents ∧
      List.Forall₂ (fun entry i => Intent.DeclaredBy i entry) intents g.intents ∧
      ∀ i ∈ g.intents, i.Inferred g := by
  obtain ⟨o, ⟨root, context, intents, rfl, hcontext, hslots, hintents, hread⟩, hrules, rfl⟩ :=
    Grammar.ofValue_eq_ok_iff.mp h
  obtain ⟨slots, hentries⟩ := hslots.hasSlotEntries
  refine ⟨slots, intents, ⟨root, context, rfl, hcontext, hentries, hintents⟩, ?_, ?_⟩
  · exact declaredBy_of_reads hread fun n hn => (hrules.intents n hn).has_phrases
  · intro i hi
    exact inferred_of_ofValue h hi

/-- A context with one intent. Both phrases bind the class, which is a keyword in the first, and
the day; only the second binds the room. -/
def bookingContext : Value :=
  .map [(.text "context", .map
    [(.text "slots", .map
        [(.text "for", .list [.text "one", .text "two"]), (.text "Day", .list [.text "today"]),
          (.text "Room", .null)]),
      (.text "expressions", .map
        [(.text "Book", .list
          [.text "book $for:class on $Day:day", .text "$Day:day$for:Class in $Room:room"])])])]

def book : Intent :=
  { name := "Book"
    vars :=
      [⟨"Class", "class", ⟨"For", [⟨"one", "one"⟩, ⟨"two", "two"⟩]⟩, true⟩,
        ⟨"day", "day", ⟨"Day", [⟨"today", "today"⟩]⟩, true⟩, ⟨"room", "room", ⟨"Room", []⟩, false⟩]
    phrases := ["book $for:class on $Day:day", "$Day:day$for:Class in $Room:room"] }

def bookingGrammar : Grammar := ⟨[book], book.vars.map (·.slot), none⟩

theorem bookingContext_built : Grammar.ofValue none bookingContext = .ok bookingGrammar :=
  Stepwise.toOption_eq_some_iff.mp (by decide +kernel)

/-- The class and the day are bound by both phrases, and the room is not. -/
theorem book_inferred :
    book.Inferred bookingGrammar ∧ book.BoundInAll "Class" ∧ ¬book.BoundInAll "room" := by
  obtain ⟨_, _, _, _, hall⟩ :=
    variables_inferred none bookingContext bookingGrammar bookingContext_built
  have hbook := hall book (List.mem_singleton_self book)
  have hclass := (hbook.mem_required_iff ⟨"Class", "class", _, true⟩).mp List.mem_cons_self
  have hroom := (hbook.mem_optional_iff ⟨"room", "room", _, false⟩).mp List.mem_cons_self
  exact ⟨hbook, hclass.2, hroom.2⟩

end VoiceIntents
