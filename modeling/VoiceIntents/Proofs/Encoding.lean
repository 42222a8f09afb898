import VoiceIntents.Proofs.Decoder

/-!
# Encoding typed intents

A value of a variant is written as slots by putting the word of each field that is set under
one of the two names of its variable. Decoding gives the value back, whichever names are
chosen and whatever else the slots hold, because no two variables share a name.
-/

namespace VoiceIntents

namespace Variable

/-- The values that the field of a variable may have. -/
inductive Admits [Host] (v : Variable) : Option EnumValue → Prop
  | absent (hoptional : v.required = false) : Admits v none
  | member {e : Element} (he : e ∈ v.slot.elements) :
      Admits v (some ⟨v.slot.name, Host.fold e.name, e.raw⟩)

end Variable

namespace Intent

/-- A value of the variant of an intent. -/
def WellTyped [Host] (i : Intent) (t : TypedIntent) : Prop :=
  t.variant = Host.fold i.name ∧
    List.Forall₂ (fun v field => field.1 = v.name ∧ v.Admits field.2) i.vars t.fields

/-- The slots of a value, where each variable has chosen a name. -/
def written (i : Intent) (choice : Variable → String) (t : TypedIntent) :
    List (Scalar × Value) :=
  (i.vars.zip t.fields).filterMap fun p =>
    p.2.2.map fun x => (.text (choice p.1), .text x.value)

/-- Slots that are written for a value under some choice of names. They may hold more, but not
under a name of a variable. -/
def Encodes (i : Intent) (t : TypedIntent) (slots : List (Scalar × Value)) : Prop :=
  ∃ choice : Variable → String, (∀ v ∈ i.vars, choice v ∈ v.names) ∧
    ∀ v ∈ i.vars, ∀ name ∈ v.names, lookup slots name = lookup (i.written choice t) name

end Intent

section Written
variable {g : Grammar} {i : Intent} {t : TypedIntent} {choice : Variable → String}

theorem mem_written_iff {name : String} {y : Value} :
    (.text name, y) ∈ i.written choice t ↔
      ∃ p ∈ i.vars.zip t.fields, ∃ x, p.2.2 = some x ∧ choice p.1 = name ∧
        y = .text x.value := by
  unfold Intent.written
  rw [List.mem_filterMap]
  constructor
  · rintro ⟨p, hp, h⟩
    obtain ⟨x, hx, hentry⟩ := Option.map_eq_some_iff.mp h
    cases hentry
    exact ⟨p, hp, x, hx, rfl, rfl⟩
  · rintro ⟨p, hp, x, hx, rfl, rfl⟩
    exact ⟨p, hp, by rw [hx]; rfl⟩

/-- A name holds the word of the field whose variable has chosen it, and nothing otherwise. -/
theorem lookup_written (hg : g.WellFormed) (hi : i ∈ g.intents)
    (hlength : i.vars.length = t.fields.length) (hchoice : ∀ v ∈ i.vars, choice v ∈ v.names)
    {v : Variable} {field : String × Option EnumValue} (hp : (v, field) ∈ i.vars.zip t.fields)
    {name : String} (hname : name ∈ v.names) :
    lookup (i.written choice t) name =
      if choice v = name then field.2.map fun x => .text x.value else none := by
  have hdistinct : ((i.vars.zip t.fields).map (·.1)).Nodup := by
    rw [List.map_fst_zip (Nat.le_of_eq hlength)]
    exact (hg.vars_distinct i hi).of_map
  -- Whatever stands under the name was written for this variable.
  have hown (y : Value) (hy : (.text name, y) ∈ i.written choice t) :
      choice v = name ∧ ∃ x, field.2 = some x ∧ y = .text x.value := by
    obtain ⟨⟨w, field'⟩, hq, x, hx, hchosen, rfl⟩ := mem_written_iff.mp hy
    have hw : w ∈ i.vars := (List.of_mem_zip hq).1
    have hvw : v = w := eq_of_mem_names hg hi (List.of_mem_zip hp).1 hw hname
      (hchosen ▸ hchoice w hw)
    have hpair := List.inj_on_of_nodup_map hdistinct hp hq hvw
    cases hpair
    exact ⟨hchosen, x, hx, rfl⟩
  by_cases hchosen : choice v = name
  · rw [if_pos hchosen]
    cases hfield : field.2 with
    | none =>
        apply lookup_eq_none
        intro y hy
        obtain ⟨_, x, hx, _⟩ := hown y hy
        simp [hfield] at hx
    | some x =>
        apply lookup_of_mem_unique
        · exact mem_written_iff.mpr ⟨(v, field), hp, x, hfield, hchosen, rfl⟩
        · intro y hy
          obtain ⟨_, x', hx', rfl⟩ := hown y hy
          rw [Option.some.inj (hfield.symm.trans hx')]
  · rw [if_neg hchosen]
    apply lookup_eq_none
    intro y hy
    exact hchosen (hown y hy).1

end Written

section Decoding
variable [Host] {g : Grammar} {i : Intent} {t : TypedIntent} {slots : List (Scalar × Value)}

/-- Slots that encode a value fill its fields with what they are. -/
theorem fills_of_encodes (hg : g.WellFormed) (hi : i ∈ g.intents) (ht : i.WellTyped t)
    (hslots : i.Encodes t slots) :
    List.Forall₂ (fun v field => field.1 = v.name ∧ v.Fills slots field.2) i.vars t.fields := by
  obtain ⟨choice, hchoice, hagree⟩ := hslots
  obtain ⟨hlength, hadmits⟩ := List.forall₂_iff_zip.mp ht.2
  apply List.forall₂_iff_zip.mpr
  refine ⟨hlength, ?_⟩
  rintro v ⟨name, x⟩ hp
  have hv : v ∈ i.vars := (List.of_mem_zip hp).1
  obtain ⟨hname, hadmitted⟩ := hadmits hp
  have hlookup (key : String) (hkey : key ∈ v.names) : lookup slots key =
      if choice v = key then x.map fun x => .text x.value else none := by
    rw [hagree v hv key hkey]
    exact lookup_written hg hi hlength hchoice hp hkey
  refine ⟨hname, ?_⟩
  cases hadmitted with
  | absent hoptional =>
      refine .absent (given_eq_none ?_) hoptional
      intro key hkey
      rw [hlookup key hkey]
      split <;> rfl
  | member he =>
      refine .member he (given_eq_text (hchoice v hv) ?_ ?_)
      · rw [hlookup _ (hchoice v hv), if_pos rfl]
        rfl
      · intro other hother hne
        rw [hlookup other hother, if_neg hne]

/-- A well-typed value is what the decoder makes of its encodings. -/
theorem decode_encoding {project : Option String} (hg : g.WellFormed) (hl : g.Loadable project)
    (hn : (g.intents.map (·.name)).Nodup) (hi : i ∈ g.intents) (ht : i.WellTyped t)
    (hslots : i.Encodes t slots) :
    (g.toModule project).decode (.bool true) (.text i.name) (.map slots) = .ok t := by
  rw [decode_eq_iff hg hl hn, decodes_intent_ok_iff hn hi rfl]
  refine ⟨t.fields, fills_of_encodes hg hi ht hslots, ?_⟩
  rw [← ht.1]

/-- Slots fill the fields of an intent in one way. -/
theorem fields_unique {vars : List Variable} (hwords : ∀ v ∈ vars, v.slot.words.Nodup)
    {fields fields' : List (String × Option EnumValue)}
    (h : List.Forall₂ (fun v field => field.1 = v.name ∧ v.Fills slots field.2) vars fields)
    (h' : List.Forall₂ (fun v field => field.1 = v.name ∧ v.Fills slots field.2) vars fields') :
    fields = fields' := by
  induction h generalizing fields' with
  | nil =>
      cases h'
      rfl
  | cons hfield _ ih =>
      cases h' with
      | cons hfield' hrest' =>
          obtain ⟨hv, hvars⟩ := List.forall_mem_cons.mp hwords
          rw [ih hvars hrest', Prod.ext (hfield.1.trans hfield'.1.symm)
            (hfield.2.unique hv hfield'.2)]

/-- No slots encode two values of one intent. -/
theorem eq_of_encodes {t' : TypedIntent} (hg : g.WellFormed) (hi : i ∈ g.intents)
    (ht : i.WellTyped t) (hslots : i.Encodes t slots) (ht' : i.WellTyped t')
    (hslots' : i.Encodes t' slots) : t' = t := by
  have hwords : ∀ v ∈ i.vars, v.slot.words.Nodup :=
    fun v hv => hg.words_distinct v.slot (hg.vars_slot i hi v hv)
  have hfields := fields_unique hwords (fills_of_encodes hg hi ht' hslots')
    (fills_of_encodes hg hi ht hslots)
  cases t
  cases t'
  exact congr (congrArg TypedIntent.mk (ht'.1.trans ht.1.symm)) hfields

end Decoding

/-- Encoding and decoding give every well-typed value back, exactly when the grammar is
loadable; and no slots encode two values of one intent. -/
theorem encoding_decoded_iff [Host] (source project : Option String) (document : Value)
    (g : Grammar) (hbuilt : Grammar.ofValue source document = .ok g)
    (hn : (g.intents.map (·.name)).Nodup) (i : Intent) (hi : i ∈ g.intents) (t : TypedIntent)
    (ht : i.WellTyped t) (slots : List (Scalar × Value)) (hslots : i.Encodes t slots) :
    (((g.toModule project).loads = true ∧
        (g.toModule project).decode (.bool true) (.text i.name) (.map slots) = .ok t) ↔
      g.Loadable project) ∧
    ∀ j ∈ g.intents, ∀ t', j.name = i.name → j.WellTyped t' → j.Encodes t' slots → t' = t := by
  have hg := Grammar.wellFormed_of_ofValue hbuilt
  constructor
  · rw [loads_iff hg]
    exact and_iff_left_of_imp fun hl => decode_encoding hg hl hn hi ht hslots
  · intro j hj t' hname ht' hslots'
    obtain rfl := List.inj_on_of_nodup_map hn hj hi hname
    exact eq_of_encodes hg hj ht hslots ht' hslots'

def turnOn : TypedIntent :=
  ⟨"Turn", [("to", some ⟨"State", "on", "on"⟩), ("Class", some ⟨"Room", "With", "with"⟩)]⟩

/-- Slots for turning on, in another order and with an entry of no variable. -/
def turnOnSlots : List (Scalar × Value) :=
  [(.text "Class", .text "with"), (.text "hum", .int 3), (.text "to", .text "on")]

theorem turnOn_wellTyped [Host] : turn.WellTyped turnOn := by
  have hfold : ∀ name ∈ ["Turn", "on", "With"], Host.fold name = name := by
    have hascii : ∀ name ∈ ["Turn", "on", "With"], Text.IsAscii name := by decide
    exact fun name hname => Host.fold_ascii name (hascii name hname)
  have hon : (⟨"on", "on"⟩ : Element) ∈ stateSlot.elements := by decide
  have hwith : (⟨"With", "with"⟩ : Element) ∈ roomSlot.elements := by decide
  have hstate := Variable.Admits.member (v := ⟨"to", "to", stateSlot, true⟩) hon
  have hroom := Variable.Admits.member (v := ⟨"Class", "class", roomSlot, false⟩) hwith
  rw [hfold "on" (by decide)] at hstate
  rw [hfold "With" (by decide)] at hroom
  exact ⟨(hfold "Turn" (by decide)).symm, .cons ⟨rfl, hstate⟩ (.cons ⟨rfl, hroom⟩ .nil)⟩

theorem turnOn_encodes : turn.Encodes turnOn turnOnSlots := by
  refine ⟨Variable.name, by simp [Variable.names], ?_⟩
  intro v hv name hname
  simp only [turn, List.mem_cons, List.not_mem_nil, or_false] at hv
  simp only [Variable.names, List.mem_cons, List.not_mem_nil, or_false] at hname
  rcases hv with rfl | rfl
  · rcases hname with rfl | rfl <;> rfl
  · rcases hname with rfl | rfl <;> rfl

section Runs
attribute [local instance] Host.plain

/-- Turning on is written with escaped names here, and no other value is. -/
theorem turnOn_decoded : turn.WellTyped turnOn ∧ turn.Encodes turnOn turnOnSlots ∧
    (lampGrammar.toModule none).loads = true ∧
    (lampGrammar.toModule none).decode (.bool true) (.text "Turn") (.map turnOnSlots) = .ok turnOn ∧
    ∀ t, turn.WellTyped t → turn.Encodes t turnOnSlots → t = turnOn := by
  have hturn : turn ∈ lampGrammar.intents := List.mem_singleton_self turn
  have h := encoding_decoded_iff none none lampContext lampGrammar rfl (by decide) turn hturn
    turnOn turnOn_wellTyped turnOnSlots turnOn_encodes
  obtain ⟨hloads, hdecode⟩ := h.1.mpr lampGrammar_loadable
  exact ⟨turnOn_wellTyped, turnOn_encodes, hloads, hdecode, fun t => h.2 turn hturn t rfl⟩

end Runs

end VoiceIntents
