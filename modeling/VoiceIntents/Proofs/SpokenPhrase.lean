import VoiceIntents.Proofs.Decoder

/-!
# Spoken phrases

When a phrase is spoken, each of its variables is reported under the name that the phrase
writes. A decoder looks under the first spelling of a variable in the intent and under the
escaped name, and under nothing else. So a phrase is decoded to what it says exactly when its
spellings are among these.
-/

namespace VoiceIntents

open Identifier (escape)

/-- The slots of a spoken phrase: a word for each reference, under the name as written. -/
def spoken (phrase : String) (pick : Reference → Element) : List (Scalar × Value) :=
  (references phrase).map fun r => (.text r.name, .text (pick r).raw)

/-- The words picked for the references of a phrase are of the slots that these name. -/
def Grammar.Offers (g : Grammar) (phrase : String) (pick : Reference → Element) : Prop :=
  ∀ r ∈ references phrase, ∃ s ∈ g.slots, s.name = r.slotName ∧ pick r ∈ s.elements

namespace Intent

/-- What a phrase says: the members picked for its variables, and none for the others. -/
def said [Host] (i : Intent) (phrase : String) (pick : Reference → Element) : TypedIntent :=
  { variant := Host.fold i.name
    fields := i.vars.map fun v =>
      (v.name, ((references phrase).find? (·.variableName = v.name)).map fun r =>
        ⟨r.slotName, Host.fold (pick r).name, (pick r).raw⟩) }

/-- The name of a variable as the first reference to it is written. -/
def spelling? (i : Intent) (name : String) : Option String :=
  ((i.phrases.flatMap references).find? (·.variableName = name)).map (·.name)

/-- A reference is spelled with the escaped name of its variable or like the first one. -/
def Recognises (i : Intent) (r : Reference) : Prop :=
  r.name = r.variableName ∨ i.spelling? r.variableName = some r.name

/-- How the variables of an intent stand to the references of its phrases. -/
structure BindsPhrases (i : Intent) : Prop where
  distinct : ∀ phrase ∈ i.phrases, ((references phrase).map Reference.variableName).Nodup
  bound : ∀ phrase ∈ i.phrases, ∀ r ∈ references phrase,
    ∃ v ∈ i.vars, v.name = r.variableName ∧ v.slot.name = r.slotName
  spelled : ∀ v ∈ i.vars, i.spelling? v.name = some v.rawName
  required : ∀ v ∈ i.vars, v.required = Outline.boundByAll i.phrases v.name

end Intent

/-- An intent that meets the rules has the variables that its phrases bind. -/
theorem Outline.IntentRules.bindsPhrases {names : List String} {entry : String × List String}
    (h : Outline.IntentRules names entry) (slots : List Slot) :
    (Outline.toIntent slots entry).BindsPhrases where
  distinct := fun phrase hphrase => (h.phrases phrase hphrase).variables_distinct
  bound := by
    intro phrase hphrase r hr
    obtain ⟨first, hfirst, hname⟩ := exists_mem_firstsBy Reference.variableName
      (List.mem_flatMap_of_mem hphrase hr)
    obtain ⟨other, hother, hmem⟩ := List.mem_flatMap.mp (mem_of_mem_firstsBy hfirst)
    refine ⟨_, List.mem_map_of_mem hfirst, hname, ?_⟩
    rw [Outline.toVariable, Grammar.slotNamed_name]
    exact h.one_slot other hother phrase hphrase first hmem r hr hname
  spelled := by
    intro v hv
    obtain ⟨first, hfirst, rfl⟩ := List.mem_map.mp hv
    exact congrArg (Option.map (·.name)) (mem_firstsBy_iff.mp hfirst)
  required := by
    intro v hv
    obtain ⟨first, _, rfl⟩ := List.mem_map.mp hv
    rfl

/-- A phrase that is spoken: it is declared by an intent of a well-formed grammar, and its words
are picked from the slots of the grammar. -/
structure Utterance (g : Grammar) (i : Intent) (phrase : String) (pick : Reference → Element) :
    Prop where
  wellFormed : g.WellFormed
  intent : i ∈ g.intents
  binds : i.BindsPhrases
  declared : phrase ∈ i.phrases
  offers : g.Offers phrase pick

theorem Utterance.of_ofValue {source : Option String} {document : Value} {g : Grammar}
    (hbuilt : Grammar.ofValue source document = .ok g) {i : Intent} (hi : i ∈ g.intents)
    {phrase : String} (hphrase : phrase ∈ i.phrases) {pick : Reference → Element}
    (hoffers : g.Offers phrase pick) : Utterance g i phrase pick := by
  have hg := Grammar.wellFormed_of_ofValue hbuilt
  obtain ⟨o, _, hrules, rfl⟩ := Grammar.ofValue_eq_ok_iff.mp hbuilt
  obtain ⟨entry, hentry, rfl⟩ := List.mem_map.mp hi
  exact ⟨hg, hi, (hrules.intents entry hentry).bindsPhrases _, hphrase, hoffers⟩

/-- The decoder looks under the name of a reference when the intent recognises it. -/
theorem recognises_iff {i : Intent} {v : Variable} {r : Reference} (hb : i.BindsPhrases)
    (hv : v ∈ i.vars) (hname : v.name = r.variableName) : i.Recognises r ↔ r.name ∈ v.names := by
  unfold Intent.Recognises
  rw [← hname, hb.spelled v hv]
  simp only [Variable.names, List.mem_cons, List.not_mem_nil, or_false, Option.some.injEq]
  rw [or_comm, eq_comm (a := v.rawName)]

theorem lookup_spoken_eq_none {phrase name : String} {pick : Reference → Element}
    (h : ∀ r ∈ references phrase, r.name ≠ name) : lookup (spoken phrase pick) name = none := by
  apply lookup_eq_none
  intro y hy
  obtain ⟨s, hs, hentry⟩ := List.mem_map.mp hy
  injection hentry with hkey
  exact h s hs (Scalar.text.inj hkey)

namespace Utterance
variable {g : Grammar} {i : Intent} {phrase : String} {pick : Reference → Element}
  {r s : Reference} {v : Variable}

/-- A phrase has no two references to one variable. -/
theorem eq_of_variableName (u : Utterance g i phrase pick) (hr : r ∈ references phrase)
    (hs : s ∈ references phrase) (h : s.variableName = r.variableName) : s = r :=
  List.inj_on_of_nodup_map (u.binds.distinct phrase u.declared) hs hr h

theorem variableName_of_mem_names (u : Utterance g i phrase pick) (hv : v ∈ i.vars)
    (hname : r.name ∈ v.names) : r.variableName = v.name :=
  escape_of_mem_names u.wellFormed u.intent hv hname

theorem lookup_spoken (u : Utterance g i phrase pick) (hr : r ∈ references phrase) :
    lookup (spoken phrase pick) r.name = some (.text (pick r).raw) := by
  apply lookup_of_mem_unique
  · exact List.mem_map_of_mem hr
  · intro y hy
    obtain ⟨s, hs, hentry⟩ := List.mem_map.mp hy
    injection hentry with hkey hword
    have hsame : s.variableName = r.variableName := congrArg escape (Scalar.text.inj hkey)
    rw [← hword, u.eq_of_variableName hr hs hsame]

/-- A reference whose name is one of a variable gives the variable its word. -/
theorem given_spoken (u : Utterance g i phrase pick) (hv : v ∈ i.vars)
    (hr : r ∈ references phrase) (hname : r.name ∈ v.names) :
    v.given (spoken phrase pick) = some (.text (pick r).raw) := by
  apply given_eq_text hname (u.lookup_spoken hr)
  intro other hother hne
  apply lookup_spoken_eq_none
  rintro s hs rfl
  have hsame : s.variableName = r.variableName :=
    (u.variableName_of_mem_names hv hother).trans (u.variableName_of_mem_names hv hname).symm
  exact hne (by rw [u.eq_of_variableName hr hs hsame])

end Utterance

theorem given_spoken_eq_none {phrase : String} {pick : Reference → Element} {v : Variable}
    (h : ∀ r ∈ references phrase, r.name ∉ v.names) : v.given (spoken phrase pick) = none := by
  apply given_eq_none
  intro name hname
  apply lookup_spoken_eq_none
  rintro r hr rfl
  exact h r hr hname

namespace Utterance
variable {g : Grammar} {i : Intent} {phrase : String} {pick : Reference → Element}
  {r : Reference} {v : Variable}

/-- The word picked for a reference is one of the slot of its variable. -/
theorem pick_mem_elements (u : Utterance g i phrase pick) (hv : v ∈ i.vars)
    (hr : r ∈ references phrase) (hname : v.name = r.variableName) :
    v.slot.name = r.slotName ∧ pick r ∈ v.slot.elements := by
  obtain ⟨w, hw, hwname, hwslot⟩ := u.binds.bound phrase u.declared r hr
  obtain rfl := List.inj_on_of_nodup_map (u.wellFormed.vars_distinct i u.intent) hv hw
    (hname.trans hwname.symm)
  obtain ⟨s, hs, hsname, hpick⟩ := u.offers r hr
  have hslot : s = v.slot := List.inj_on_of_nodup_map u.wellFormed.slots_distinct hs
    (u.wellFormed.vars_slot i u.intent v hv) (hsname.trans hwslot.symm)
  exact ⟨hwslot, hslot ▸ hpick⟩

/-- A spoken phrase never gives a variable a word that is not of its slot. -/
theorem exists_element_of_given (u : Utterance g i phrase pick) (hv : v ∈ i.vars) {x : Value}
    (h : v.given (spoken phrase pick) = some x) : ∃ e ∈ v.slot.elements, x = .text e.raw := by
  obtain ⟨r, hr, hname⟩ : ∃ r ∈ references phrase, r.name ∈ v.names := by
    by_contra hno
    push Not at hno
    rw [given_spoken_eq_none hno] at h
    cases h
  rw [u.given_spoken hv hr hname] at h
  have hvar := (u.variableName_of_mem_names hv hname).symm
  exact ⟨pick r, (u.pick_mem_elements hv hr hvar).2, (Option.some.inj h).symm⟩

/-- A reference that is not recognised leaves its variable without a value. -/
theorem given_eq_none_of_not_recognises (u : Utterance g i phrase pick) (hv : v ∈ i.vars)
    (hr : r ∈ references phrase) (hname : v.name = r.variableName) (hno : ¬ i.Recognises r) :
    v.given (spoken phrase pick) = none := by
  apply given_spoken_eq_none
  intro s hs hmem
  have hsame : s.variableName = r.variableName :=
    (u.variableName_of_mem_names hv hmem).trans hname
  obtain rfl := u.eq_of_variableName hr hs hsame
  exact hno ((recognises_iff u.binds hv hname).mpr hmem)

/-- A variable without a reference in the phrase is optional. -/
theorem required_eq_false (u : Utterance g i phrase pick) (hv : v ∈ i.vars)
    (hno : ∀ r ∈ references phrase, r.variableName ≠ v.name) : v.required = false := by
  rw [u.binds.required v hv, Outline.boundByAll, List.all_eq_false]
  refine ⟨phrase, u.declared, ?_⟩
  simpa using hno

variable [Host]

/-- The phrase fills a variable with what it says of it, when it is recognised. -/
theorem fills_said (u : Utterance g i phrase pick)
    (hrec : ∀ r ∈ references phrase, i.Recognises r) (hv : v ∈ i.vars) :
    v.Fills (spoken phrase pick)
      (((references phrase).find? (·.variableName = v.name)).map fun r =>
        ⟨r.slotName, Host.fold (pick r).name, (pick r).raw⟩) := by
  cases hfound : (references phrase).find? (·.variableName = v.name) with
  | none =>
      have hno : ∀ r ∈ references phrase, r.variableName ≠ v.name := by
        simpa using List.find?_eq_none.mp hfound
      refine .absent (given_spoken_eq_none ?_) (u.required_eq_false hv hno)
      intro r hr hname
      exact hno r hr (u.variableName_of_mem_names hv hname)
  | some r =>
      have hr := List.mem_of_find?_eq_some hfound
      have hname : v.name = r.variableName := by
        simpa [eq_comm] using List.find?_some hfound
      obtain ⟨hslot, hpick⟩ := u.pick_mem_elements hv hr hname
      have hgiven := u.given_spoken hv hr ((recognises_iff u.binds hv hname).mp (hrec r hr))
      rw [Option.map_some, ← hslot]
      exact .member hpick hgiven

/-- A phrase is decoded to what it says exactly when all its references are recognised. -/
theorem decodes_said_iff (u : Utterance g i phrase pick)
    (hn : (g.intents.map (·.name)).Nodup) :
    g.Decodes (.bool true) (.text i.name) (spoken phrase pick) (.ok (i.said phrase pick)) ↔
      ∀ r ∈ references phrase, i.Recognises r := by
  rw [decodes_intent_ok_iff hn u.intent rfl]
  constructor
  · rintro ⟨fields, hfields, hsaid⟩ r hr
    by_contra hno
    obtain ⟨v, hv, hname, _⟩ := u.binds.bound phrase u.declared r hr
    obtain rfl : (i.said phrase pick).fields = fields := congrArg TypedIntent.fields hsaid
    obtain ⟨_, hfill⟩ := List.forall₂_same.mp (List.forall₂_map_right_iff.mp hfields) v hv
    have hfound : (references phrase).find? (·.variableName = v.name) = some r :=
      (find?_key_eq_some_iff (u.binds.distinct phrase u.declared)).mpr ⟨hr, hname.symm⟩
    rw [hfound] at hfill
    -- The field is set, so the variable was given a word.
    have hgiven := hfill.given_eq
    rw [u.given_eq_none_of_not_recognises hv hr hname hno] at hgiven
    cases hgiven
  · intro hrec
    refine ⟨_, ?_, rfl⟩
    rw [List.forall₂_map_right_iff, List.forall₂_same]
    intro v hv
    exact ⟨rfl, u.fills_said hrec hv⟩

/-- A variable fails a spoken phrase only for lack of a value. -/
theorem missing_of_fails (u : Utterance g i phrase pick) (hv : v ∈ i.vars) {intent : Value}
    {fault e : DecodeError} (hfails : v.Fails intent (spoken phrase pick) fault)
    (he : fault.Raised e) :
    v.given (spoken phrase pick) = none ∧ v.required = true ∧
      e = .missingSlot intent v.rawName := by
  cases hfails with
  | missing hgiven hrequired =>
      cases he with
      | itself _ => exact ⟨hgiven, hrequired, rfl⟩
      | unprintable hreason => cases hreason
  | invalid hword hother =>
      obtain ⟨element, helement, rfl⟩ := u.exists_element_of_given hv hword
      exact absurd rfl (hother element helement)
  | memberless hword hempty =>
      obtain ⟨element, helement, _⟩ := u.exists_element_of_given hv hword
      simp [hempty] at helement

/-- A phrase lacks a slot exactly when every phrase binds some variable and this one writes it
with a name that is not recognised. -/
theorem decodes_missing_iff {project : Option String} (u : Utterance g i phrase pick)
    (hl : g.Loadable project) (hn : (g.intents.map (·.name)).Nodup) :
    (∃ name, g.Decodes (.bool true) (.text i.name) (spoken phrase pick)
        (.error (.missingSlot (.text i.name) name))) ↔
      ∃ r ∈ references phrase, ¬ i.Recognises r ∧
        Outline.boundByAll i.phrases r.variableName = true := by
  constructor
  · rintro ⟨name, h⟩
    obtain ⟨before, v, after, fault, hvars, _, hfails, he⟩ :=
      (decodes_intent_error_iff hn u.intent rfl).mp h
    have hv : v ∈ i.vars := by simp [hvars]
    obtain ⟨hgiven, hrequired, _⟩ := u.missing_of_fails hv hfails he
    rw [u.binds.required v hv] at hrequired
    obtain ⟨r, hr, hname⟩ : ∃ r ∈ references phrase, r.variableName = v.name := by
      simpa using List.all_eq_true.mp hrequired phrase u.declared
    refine ⟨r, hr, ?_, hname ▸ hrequired⟩
    intro hrec
    rw [u.given_spoken hv hr ((recognises_iff u.binds hv hname.symm).mp hrec)] at hgiven
    cases hgiven
  · rintro ⟨r, hr, hno, hall⟩
    obtain ⟨v, hv, hname, _⟩ := u.binds.bound phrase u.declared r hr
    have hgiven := u.given_eq_none_of_not_recognises hv hr hname hno
    have hrequired : v.required = true := by rw [u.binds.required v hv, hname, hall]
    obtain ⟨answer, h⟩ :=
      exists_decodes u.wellFormed hl hn (.bool true) (.text i.name) (spoken phrase pick)
    cases answer with
    | ok t =>
        obtain ⟨fields, hfields, _⟩ := (decodes_intent_ok_iff hn u.intent rfl).mp h
        obtain ⟨field, _, _, hfill⟩ := Stepwise.exists_of_forall₂ hfields hv
        have hoptional := hfill.required_eq_false hgiven
        simp [hrequired] at hoptional
    | error e =>
        obtain ⟨before, w, after, fault, hvars, _, hfails, he⟩ :=
          (decodes_intent_error_iff hn u.intent rfl).mp h
        have hw : w ∈ i.vars := by simp [hvars]
        obtain ⟨_, _, rfl⟩ := u.missing_of_fails hw hfails he
        exact ⟨w.rawName, h⟩

end Utterance

/-- A spoken phrase is decoded to what it says exactly when the grammar is loadable and the
intent recognises the spelling of every variable in it. It is reported to lack a slot when a
variable whose spelling is not recognised is bound by every phrase. -/
theorem spoken_decoded_iff [Host] (source project : Option String) (document : Value) (g : Grammar)
    (hbuilt : Grammar.ofValue source document = .ok g)
    (hn : (g.intents.map (·.name)).Nodup) (i : Intent) (hi : i ∈ g.intents) (phrase : String)
    (hphrase : phrase ∈ i.phrases) (pick : Reference → Element)
    (hoffers : g.Offers phrase pick) :
    (((g.toModule project).loads = true ∧
        (g.toModule project).decode (.bool true) (.text i.name) (.map (spoken phrase pick)) =
          .ok (i.said phrase pick)) ↔
      g.Loadable project ∧ ∀ r ∈ references phrase, i.Recognises r) ∧
    (((g.toModule project).loads = true ∧ ∃ name,
        (g.toModule project).decode (.bool true) (.text i.name) (.map (spoken phrase pick)) =
          .error (.missingSlot (.text i.name) name)) ↔
      g.Loadable project ∧ ∃ r ∈ references phrase, ¬ i.Recognises r ∧
        Outline.boundByAll i.phrases r.variableName = true) := by
  have u := Utterance.of_ofValue hbuilt hi hphrase hoffers
  rw [loads_iff u.wellFormed]
  constructor
  · refine and_congr_right fun hl => ?_
    rw [decode_eq_iff u.wellFormed hl hn]
    exact u.decodes_said_iff hn
  · refine and_congr_right fun hl => ?_
    simp only [decode_eq_iff u.wellFormed hl hn]
    exact u.decodes_missing_iff hl hn

/-- A context in which a variable is spelled with its escaped name before the other one. -/
def gearContext : Value :=
  .map [(.text "context", .map
    [(.text "slots", .map [(.text "State", .list [.text "on", .text "off"])]),
      (.text "expressions", .map
        [(.text "Go", .list [.text "go $State:Class", .text "now $State:class"])])])]

def go : Intent :=
  { name := "Go"
    vars := [⟨"Class", "Class", stateSlot, true⟩]
    phrases := ["go $State:Class", "now $State:class"] }

def gearGrammar : Grammar := ⟨[go], [stateSlot], none⟩

def pickOff : Reference → Element := fun _ => ⟨"off", "off"⟩

theorem gearGrammar_offers (phrase : String) (hphrase : phrase ∈ go.phrases) :
    gearGrammar.Offers phrase pickOff := by
  have hall : ∀ phrase ∈ go.phrases, ∀ r ∈ references phrase, stateSlot.name = r.slotName := by
    decide
  intro r hr
  have hoff : (⟨"off", "off"⟩ : Element) ∈ stateSlot.elements := by decide
  exact ⟨stateSlot, List.mem_singleton_self stateSlot, hall phrase hphrase r hr, hoff⟩

theorem gearGrammar_loadable [Host] : gearGrammar.Loadable none := by
  have hbuilt : Grammar.ofValue none gearContext = .ok gearGrammar := rfl
  have hascii : ∀ name ∈ gearGrammar.names, Text.IsAscii name := by decide
  exact (Grammar.wellFormed_of_ofValue hbuilt).loadable_of_isAscii (by decide) hascii (by decide)
    (by simp [gearGrammar]) (by simp)

section Runs
attribute [local instance] Host.plain

/-- The first phrase is decoded to what it says. The second is not recognised, and lacks a slot when
it is spoken. -/
theorem go_spellings :
    (gearGrammar.toModule none).loads = true ∧
    (gearGrammar.toModule none).decode (.bool true) (.text "Go")
        (.map (spoken "go $State:Class" pickOff)) = .ok (go.said "go $State:Class" pickOff) ∧
    ∃ name, (gearGrammar.toModule none).decode (.bool true) (.text "Go")
      (.map (spoken "now $State:class" pickOff)) = .error (.missingSlot (.text "Go") name) := by
  have hgo : go ∈ gearGrammar.intents := List.mem_singleton_self go
  have h (phrase : String) (hphrase : phrase ∈ go.phrases) :=
    spoken_decoded_iff none none gearContext gearGrammar rfl (by decide) go hgo phrase hphrase
      pickOff (gearGrammar_offers phrase hphrase)
  have hfirst : ∀ r ∈ references "go $State:Class", go.Recognises r := by
    unfold Intent.Recognises
    decide
  have hsecond : ∃ r ∈ references "now $State:class", ¬go.Recognises r ∧
      Outline.boundByAll go.phrases r.variableName = true := by
    unfold Intent.Recognises
    decide
  obtain ⟨hloads, hdecode⟩ := (h _ (by decide)).1.mpr ⟨gearGrammar_loadable, hfirst⟩
  exact ⟨hloads, hdecode, ((h _ (by decide)).2.mpr ⟨gearGrammar_loadable, hsecond⟩).2⟩

end Runs

end VoiceIntents
