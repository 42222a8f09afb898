import VoiceIntents.Proofs.DeclarationOrder
import VoiceIntents.Proofs.Textless

/-!
# Faults of documents

What each fault says is stated on the document itself, with the place that it is found at:
a slot that is declared twice is two entries in the map of the slots, an unknown slot is a
reference in a phrase of an intent, and so on. Nothing here goes through the builder or depends on
the order in which it looks.

A fault that the builder reports is there, at the place that is reported, however many others the
document has; and a document with any of these faults is not built.
-/

namespace VoiceIntents

open Identifier (escape)

/-- The map under `context`; null stands for an empty one. -/
def ContextOf (document : Value) (context : List (Scalar × Value)) : Prop :=
  ∃ root, document = .map root ∧
    (lookup root "context" = some (.map context) ∨
      lookup root "context" = some (.scalar .null) ∧ context = [])

/-- The entries of the map under a key of the context. -/
def SectionOf (document : Value) (key : String) (entries : List (Scalar × Value)) : Prop :=
  ∃ context, ContextOf document context ∧ lookup context key = some (.map entries)

/-- A section of the context declares a name, with an entry. -/
def Declares (document : Value) (part name : String) (entry : Value) : Prop :=
  ∃ entries key, SectionOf document part entries ∧ (key, entry) ∈ entries ∧
    key.display = .ok name

abbrev DeclaresSlot (document : Value) : String → Value → Prop := Declares document "slots"

abbrev DeclaresIntent (document : Value) : String → Value → Prop :=
  Declares document "expressions"

/-- A phrase of an intent that the document declares. -/
def HasPhrase (document : Value) (intent phrase : String) : Prop :=
  ∃ entry phrases, DeclaresIntent document intent entry ∧ HasTexts entry phrases ∧
    phrase ∈ phrases

/-- The entry of a declaration and the place where its faults are found. -/
inductive Owns (source : Option String) (document : Value) : Owner → Location → Value → Prop
  | slot {name : String} {entry : Value} (h : DeclaresSlot document name entry) :
      Owns source document (.slot (escape name)) (Grammar.inSource source) entry
  | intent {name : String} {entry : Value} (h : DeclaresIntent document name entry) :
      Owns source document (.intent name) (Grammar.inIntent source name) entry

/-- The faults of a document and their places. -/
inductive Faulty (source : Option String) (document : Value) : Fault → Location → Prop
  | noRoot (h : ∀ root, document = .map root → lookup root "context" = none) :
      Faulty source document .noRoot (Grammar.inSource source)
  | contextNotMap {root : List (Scalar × Value)} {v : Value} (hroot : document = .map root)
      (hv : lookup root "context" = some v) (hnull : v ≠ .scalar .null)
      (hmap : ∀ context, v ≠ .map context) :
      Faulty source document .contextNotMap (Grammar.inSource source)
  | slotsNotMap {context : List (Scalar × Value)} {v : Value} (h : ContextOf document context)
      (hv : lookup context "slots" = some v) (hnull : v ≠ .scalar .null)
      (hmap : ∀ entries, v ≠ .map entries) :
      Faulty source document .slotsNotMap (Grammar.inSource source)
  | notList {owner : Owner} {location : Location} {entry : Value}
      (h : Owns source document owner location entry) (hnull : entry ≠ .scalar .null)
      (hlist : ∀ items, entry ≠ .list items) :
      Faulty source document (.notList owner) location
  | notPlain {owner : Owner} {location : Location} {items : List Value} {item : Value}
      {shown : String} (h : Owns source document owner location (.list items))
      (hitem : item ∈ items) (hplain : Grammar.isPlain item = false)
      (hshown : item.inspect = .ok shown) :
      Faulty source document (.notPlain owner shown) location
  | badSlot {name : String} {entry : Value} {problem : Identifier.Problem}
      (h : DeclaresSlot document name entry)
      (hproblem : Identifier.problem? (escape name) = some problem) :
      Faulty source document (.badSlot (escape name) problem) (Grammar.inSource source)
  | repeatedSlot {entries : List (Scalar × Value)} {earlier later : Scalar × Value}
      {name again : String} (h : SectionOf document "slots" entries)
      (htwo : [earlier, later].Sublist entries) (hearlier : earlier.1.display = .ok name)
      (hlater : later.1.display = .ok again) (hsame : escape name = escape again) :
      Faulty source document (.repeatedSlot (escape again)) (Grammar.inSource source)
  | badElement {name word : String} {entry : Value} {words : List String}
      {problem : Identifier.Problem} (h : DeclaresSlot document name entry)
      (hwords : HasTexts entry words) (hword : word ∈ words)
      (hproblem : Identifier.problem? (escape word) = some problem) :
      Faulty source document (.badElement (escape name) (escape word) problem)
        (Grammar.inSource source)
  | refusedElement {name word : String} {entry : Value} {words : List String}
      (h : DeclaresSlot document name entry) (hwords : HasTexts entry words)
      (hword : word ∈ words) (hrefused : escape word = "mro") :
      Faulty source document (.refusedElement (escape name) (escape word))
        (Grammar.inSource source)
  | repeatedElement {name word again : String} {entry : Value} {words : List String}
      (h : DeclaresSlot document name entry) (hwords : HasTexts entry words)
      (htwo : [word, again].Sublist words) (hsame : escape word = escape again) :
      Faulty source document (.repeatedElement (escape name) (escape again))
        (Grammar.inSource source)
  | noExpressions {context : List (Scalar × Value)} (h : ContextOf document context)
      (hempty : ∀ v, lookup context "expressions" = some v → v.isEmpty = true) :
      Faulty source document .noExpressions (Grammar.inSource source)
  | expressionsNotMap {context : List (Scalar × Value)} {v : Value}
      (h : ContextOf document context) (hv : lookup context "expressions" = some v)
      (hsome : v.isEmpty = false) (hmap : ∀ entries, v ≠ .map entries) :
      Faulty source document .expressionsNotMap (Grammar.inSource source)
  | badIntent {name : String} {entry : Value} {problem : Identifier.Problem}
      (h : DeclaresIntent document name entry)
      (hproblem : Identifier.problem? name = some problem) :
      Faulty source document (.badIntent name problem) (Grammar.inIntent source name)
  | noPhrases {name : String} {entry : Value} (h : DeclaresIntent document name entry)
      (hempty : entry = .scalar .null ∨ entry = .list []) :
      Faulty source document (.noPhrases name) (Grammar.inIntent source name)
  | repeatedVariable {name phrase : String} {r again : Reference}
      (h : HasPhrase document name phrase) (htwo : [r, again].Sublist (references phrase))
      (hsame : r.variableName = again.variableName) :
      Faulty source document (.repeatedVariable again.name)
        (Grammar.inPhrase source name phrase)
  | unknownSlot {name phrase : String} {r : Reference} (h : HasPhrase document name phrase)
      (hr : r ∈ references phrase)
      (hunknown : ∀ slot entry, DeclaresSlot document slot entry → escape slot ≠ r.slotName) :
      Faulty source document (.unknownSlot r.name r.slot) (Grammar.inPhrase source name phrase)
  | badVariable {name phrase : String} {r : Reference} {problem : Identifier.Problem}
      (h : HasPhrase document name phrase) (hr : r ∈ references phrase)
      (hproblem : Identifier.problem? r.variableName = some problem) :
      Faulty source document (.badVariable r.variableName problem)
        (Grammar.inPhrase source name phrase)
  | slotMismatch {name earlier phrase : String} {entry : Value} {phrases : List String}
      {before r : Reference} (h : DeclaresIntent document name entry)
      (hphrases : HasTexts entry phrases) (htwo : [earlier, phrase].Sublist phrases)
      (hbefore : before ∈ references earlier) (hr : r ∈ references phrase)
      (hname : before.variableName = r.variableName) (hslot : before.slotName ≠ r.slotName) :
      Faulty source document (.slotMismatch r.variableName r.slotName before.slotName)
        (Grammar.inPhrase source name phrase)
  | slotShadowsModule {name : String} {entry : Value} (h : DeclaresSlot document name entry)
      (hmodule : escape name ∈ Identifier.moduleNames) :
      Faulty source document (.slotShadowsModule (escape name)) (Grammar.inSource source)
  | intentShadowsModule {name : String} {entry : Value}
      (h : DeclaresIntent document name entry) (hmodule : name ∈ Identifier.moduleNames) :
      Faulty source document (.intentShadowsModule name) (Grammar.inIntent source name)
  | intentIsSlot {name slot : String} {entry entry' : Value}
      (h : DeclaresIntent document name entry) (hslot : DeclaresSlot document slot entry')
      (hsame : escape slot = name) :
      Faulty source document (.intentIsSlot name) (Grammar.inIntent source name)

/-- An error that the document has a reason for: a fault at its place, or an integer that is too
long or a collection that is too deep to be shown. -/
inductive Genuine (source : Option String) (document : Value) : BuildError → Prop
  | fault {fault : Fault} {location : Location} (h : Faulty source document fault location) :
      Genuine source document (.invalid fault location)
  | textless {cause : DisplayFault} (h : document.Textless cause) :
      Genuine source document (.unprintable cause)

section Places
variable {document : Value} {part : String}

theorem ContextOf.unique {context context' : List (Scalar × Value)}
    (h : ContextOf document context) (h' : ContextOf document context') : context = context' := by
  obtain ⟨root, rfl, hroot⟩ := h
  obtain ⟨root', heq, hroot'⟩ := h'
  obtain rfl := Value.map.inj heq
  rcases hroot with hroot | ⟨hroot, rfl⟩ <;> rcases hroot' with hroot' | ⟨hroot', rfl⟩ <;>
    simp_all

theorem holds_lookup {entries : List (Scalar × Value)} {v : Value} {inner : Value.Part}
    (h : lookup entries part = some v) (hv : Value.Holds inner v) :
    Value.Holds inner (.map entries) := by
  obtain ⟨⟨key, _⟩, hfound, rfl⟩ := Option.map_eq_some_iff.mp h
  exact .entry (List.mem_of_find?_eq_some hfound) hv

/-- What stands in a section stands in the document. -/
theorem SectionOf.holds {entries : List (Scalar × Value)} (h : SectionOf document part entries)
    {inner : Value.Part} (hinner : Value.Holds inner (.map entries)) :
    Value.Holds inner document := by
  obtain ⟨context, ⟨root, rfl, hroot⟩, hpart⟩ := h
  rcases hroot with hroot | ⟨_, rfl⟩
  · exact holds_lookup hroot (holds_lookup hpart hinner)
  · cases hpart

theorem SectionOf.textless_key {entries : List (Scalar × Value)}
    (h : SectionOf document part entries) {key : Scalar} {entry : Value}
    (hentry : (key, entry) ∈ entries) {cause : DisplayFault}
    (hkey : key.display = .error cause) : document.Textless cause :=
  ⟨_, Scalar.display_eq_error hkey, h.holds (.key hentry)⟩

theorem Declares.textless {name : String} {entry : Value} {cause : DisplayFault}
    (h : Declares document part name entry) (hentry : entry.Textless cause) :
    document.Textless cause := by
  obtain ⟨entries, key, hpart, hmem, _⟩ := h
  obtain ⟨inner, hinner, hin⟩ := hentry
  exact ⟨inner, hinner, hpart.holds (.entry hmem hin)⟩

theorem Owns.textless {source : Option String} {owner : Owner} {location : Location}
    {entry : Value} {cause : DisplayFault} (h : Owns source document owner location entry)
    (hentry : entry.Textless cause) : document.Textless cause := by
  cases h with
  | slot h => exact h.textless hentry
  | intent h => exact h.textless hentry

/-- The slots that are read are those that the document declares. -/
theorem ReadsSlots.mem_names_iff {context : List (Scalar × Value)}
    {named : List (String × List String)} (hread : ReadsSlots (lookup context "slots") named)
    (hcontext : ContextOf document context) (name : String) :
    (name ∈ named.map fun n => escape n.1) ↔
      ∃ slot entry, DeclaresSlot document slot entry ∧ escape slot = name := by
  rw [List.mem_map]
  constructor
  · rintro ⟨n, hn, rfl⟩
    generalize hfound : lookup context "slots" = found at hread
    cases hread with
    | absent => cases hn
    | null => cases hn
    | map hentries =>
        obtain ⟨⟨key, entry⟩, hmem, hkey, _⟩ := Stepwise.exists_of_forall₂ hentries.flip hn
        exact ⟨n.1, entry, ⟨_, key, ⟨context, hcontext, hfound⟩, hmem, hkey⟩, rfl⟩
  · rintro ⟨slot, entry, ⟨entries, key, ⟨context', hcontext', hfound⟩, hmem, hkey⟩, rfl⟩
    obtain rfl := hcontext.unique hcontext'
    rw [hfound] at hread
    cases hread with
    | map hentries =>
        obtain ⟨n, hn, hread⟩ := Stepwise.exists_of_forall₂ hentries hmem
        exact ⟨n, hn, by rw [Except.ok.inj (hread.1.symm.trans hkey)]⟩

end Places

namespace Grammar

open Stepwise

variable {source : Option String} {document : Value}

theorem exists_of_locate_eq_error {α : Type} {location : Location} {x : Except Fault α}
    {e : BuildError} (h : locate location x = .error e) :
    ∃ fault, x = .error fault ∧ e = .invalid fault location := by
  cases x with
  | ok a => cases h
  | error fault => exact ⟨fault, rfl, (Except.error.inj h).symm⟩

theorem exists_of_printed_eq_error {α : Type} {x : Except DisplayFault α} {e : BuildError}
    (h : printed x = .error e) : ∃ cause, x = .error cause ∧ e = .unprintable cause := by
  cases x with
  | ok a => cases h
  | error cause => exact ⟨cause, rfl, (Except.error.inj h).symm⟩

section Texts
variable {owner : Owner} {location : Location} {e : BuildError}

/-- A text that is not read is one of a list, and it is not plain or holds what is not shown. -/
theorem plainText_genuine {items : List Value} {item : Value}
    (howns : Owns source document owner location (.list items)) (hitem : item ∈ items)
    (h : plainText location owner item = .error e) : Genuine source document e := by
  unfold plainText at h
  by_cases hplain : isPlain item = true
  · rw [if_pos hplain] at h
    obtain ⟨cause, hcause, rfl⟩ := exists_of_printed_eq_error h
    obtain ⟨part, hpart, hin⟩ := Value.display_eq_error hcause
    exact .textless (howns.textless ⟨part, hpart, .item hitem hin⟩)
  · rw [if_neg hplain] at h
    rcases bind_eq_error_iff.mp h with h | ⟨shown, hshown, h⟩
    · obtain ⟨cause, hcause, rfl⟩ := exists_of_printed_eq_error h
      obtain ⟨part, hpart, hin⟩ := Value.inspect_eq_error item hcause
      exact .textless (howns.textless ⟨part, hpart, .item hitem hin⟩)
    · obtain rfl := Except.error.inj h
      exact .fault (.notPlain howns hitem (Bool.eq_false_iff.mpr hplain)
        (printed_eq_ok_iff.mp hshown))

theorem plainTexts_genuine {entry : Value} (howns : Owns source document owner location entry)
    (h : plainTexts location owner entry = .error e) : Genuine source document e := by
  unfold plainTexts at h
  split at h
  · cases h
  · next items =>
      obtain ⟨item, hitem, h⟩ := exists_of_mapM_eq_error h
      exact plainText_genuine howns hitem h
  · next hnull hlist =>
      obtain rfl := Except.error.inj h
      exact .fault (.notList howns hnull hlist)

end Texts

section Slots

/-- Two items in order, where the first of them is among those before the second. -/
theorem pair_sublist_of_mem {α : Type} {first after : List α} {a b : α} (h : a ∈ first) :
    [a, b].Sublist (first ++ b :: after) :=
  (List.singleton_sublist.mpr h).append (List.singleton_sublist.mpr List.mem_cons_self)

theorem readElements_faulty {name : String} {entry : Value} {words : List String} {fault : Fault}
    (hslot : DeclaresSlot document name entry) (hwords : HasTexts entry words)
    (h : readElements (escape name) [] words = .error fault) :
    Faulty source document fault (inSource source) := by
  obtain ⟨first, word, after, before, rfl, hbefore, hword⟩ :=
    loop_eq_error (readElements (escape name))
      (fun before raw => (readElement (escape name) before raw).map (before ++ [·]))
      (fun _ => rfl)
      (fun before raw rest => by
        rw [readElements]
        cases readElement (escape name) before raw <;> rfl) h
  obtain ⟨_, _, rfl⟩ := readElements_eq_ok_iff.mp hbefore
  have hmem : word ∈ first ++ word :: after := by simp
  replace hword := map_eq_error_iff.mp hword
  unfold readElement at hword
  dsimp only at hword
  split at hword
  · next problem hproblem =>
      obtain rfl := Except.error.inj hword
      exact .badElement hslot hwords hmem hproblem
  · split_ifs at hword with hrefused hrepeated
    · obtain rfl := Except.error.inj hword
      refine .refusedElement hslot hwords hmem ?_
      simpa [Identifier.refusedMembers, Identifier.classNames] using hrefused
    · obtain rfl := Except.error.inj hword
      obtain ⟨earlier, hearlier, hsame⟩ : ∃ w ∈ first, escape w = escape word := by
        simpa using hrepeated
      exact .repeatedElement hslot hwords (pair_sublist_of_mem hearlier) hsame

theorem readSlots_genuine {entries : List (Scalar × Value)} {e : BuildError}
    (hslots : SectionOf document "slots" entries)
    (h : readSlots (inSource source) [] entries = .error e) : Genuine source document e := by
  obtain ⟨first, ⟨key, entry⟩, after, before, rfl, hbefore, hslot⟩ :=
    loop_eq_error (readSlots (inSource source))
      (fun before slot => (readSlot (inSource source) before slot.1 slot.2).map (before ++ [·]))
      (fun _ => rfl)
      (fun before slot rest => by
        obtain ⟨key, entry⟩ := slot
        rw [readSlots]
        cases readSlot (inSource source) before key entry <;> rfl) h
  obtain ⟨named, hnamed, _, _, rfl⟩ := readSlots_eq_ok_iff.mp hbefore
  have hmem : (key, entry) ∈ first ++ (key, entry) :: after := by simp
  replace hslot := map_eq_error_iff.mp hslot
  unfold readSlot at hslot
  rcases bind_eq_error_iff.mp hslot with hkey | ⟨name, hname, hslot⟩
  · obtain ⟨cause, hcause, rfl⟩ := exists_of_printed_eq_error hkey
    exact .textless (hslots.textless_key hmem hcause)
  · have hname := printed_eq_ok_iff.mp hname
    have hdeclares : DeclaresSlot document name entry := ⟨_, key, hslots, hmem, hname⟩
    dsimp only at hslot
    split at hslot
    · next problem hproblem =>
        obtain rfl := Except.error.inj hslot
        exact .fault (.badSlot hdeclares hproblem)
    · split_ifs at hslot with hrepeated
      · obtain rfl := Except.error.inj hslot
        rw [any_name_iff, map_toSlot_name] at hrepeated
        obtain ⟨n, hn, hsame⟩ := List.mem_map.mp hrepeated
        obtain ⟨earlier, hearlier, hread⟩ := exists_of_forall₂ hnamed.flip hn
        exact .fault (.repeatedSlot hslots (pair_sublist_of_mem hearlier) hread.1 hname hsame)
      · rcases bind_eq_error_iff.mp hslot with hwords | ⟨words, hwords, helements⟩
        · exact plainTexts_genuine (.slot hdeclares) hwords
        · have hwords := plainTexts_eq_ok_iff.mp hwords
          rcases bind_eq_error_iff.mp helements with helements | ⟨_, _, hdone⟩
          · obtain ⟨fault, hfault, rfl⟩ := exists_of_locate_eq_error helements
            exact .fault (readElements_faulty hdeclares hwords hfault)
          · cases hdone

theorem slotsOf_genuine {context : List (Scalar × Value)} {e : BuildError}
    (hcontext : ContextOf document context)
    (h : slotsOf (inSource source) (lookup context "slots") = .error e) :
    Genuine source document e := by
  generalize hv : lookup context "slots" = found at h
  unfold slotsOf at h
  split at h
  · cases h
  · cases h
  · next entries => exact readSlots_genuine ⟨context, hcontext, hv⟩ h
  · next v hnull hmap =>
      obtain rfl := Except.error.inj h
      exact .fault (.slotsNotMap hcontext hv (by simpa using hnull) (by simpa using hmap))

end Slots

section Intents
variable {slots : List Slot} {name : String}
variable (hslots : ∀ n, n ∈ slots.map (·.name) ↔
  ∃ slot entry, DeclaresSlot document slot entry ∧ escape slot = n)
include hslots

theorem bindings_faulty {phrase : String} {fault : Fault}
    (hphrase : HasPhrase document name phrase) (h : bindings slots phrase = .error fault) :
    Faulty source document fault (inPhrase source name phrase) := by
  obtain ⟨first, r, after, before, hrefs, hbefore, hbind⟩ :=
    loop_eq_error (bindAll slots) (fun before r => (bind slots before r).map (before ++ [·]))
      (fun _ => rfl)
      (fun before r rest => by
        rw [bindAll]
        cases bind slots before r <;> rfl) h
  have hr : r ∈ references phrase := by simp [hrefs]
  have hnames : before = first.map (toBinding slots) := by
    obtain ⟨_, hnew, _, _, rfl⟩ := (collect_eq_ok_iff (bindAll slots) (fun _ => rfl)
      (fun _ _ _ => rfl) (fun _ _ _ => bind_reference_eq_ok_iff)).mp hbefore
    exact (forall₂_map_iff.mp hnew).2
  subst hnames
  replace hbind := map_eq_error_iff.mp hbind
  unfold bind at hbind
  dsimp only at hbind
  split_ifs at hbind with hrepeated
  · obtain rfl := Except.error.inj hbind
    rw [any_name_iff, List.map_map] at hrepeated
    obtain ⟨earlier, hearlier, hsame⟩ := List.mem_map.mp hrepeated
    refine .repeatedVariable hphrase ?_ hsame
    rw [hrefs]
    exact pair_sublist_of_mem hearlier
  · split at hbind
    · next hfound =>
        obtain rfl := Except.error.inj hbind
        refine .unknownSlot hphrase hr ?_
        intro slot entry hslot hname
        obtain ⟨s, hs, heq⟩ := List.mem_map.mp ((hslots _).mpr ⟨slot, entry, hslot, hname⟩)
        simpa [heq, Reference.slotName] using List.find?_eq_none.mp hfound s hs
    · split at hbind
      · next problem hproblem =>
          obtain rfl := Except.error.inj hbind
          exact .badVariable hphrase hr hproblem
      · cases hbind

omit hslots

/-- The bindings of an intent are some of those that are united. -/
theorem mem_of_mergeAll {bound united : List Binding} (h : mergeAll [] bound = .ok united)
    {b : Binding} (hb : b ∈ united) : b ∈ bound := by
  obtain ⟨_, rfl⟩ := (mergeAll_eq_ok_iff (by simp [OneSlot])).mp h
  exact mem_of_mem_firstsBy (List.mem_of_mem_filter hb)

theorem merge_eq_error {known : List Binding} {b : Binding} {fault : Fault}
    (h : merge known b = .error fault) :
    ∃ prior ∈ known, prior.name = b.name ∧ prior.slot.name ≠ b.slot.name ∧
      fault = .slotMismatch b.name b.slot.name prior.slot.name := by
  unfold merge at h
  split at h
  · cases h
  · next prior hfound =>
      split_ifs at h with hslot
      have hname : prior.name = b.name := by simpa using List.find?_some hfound
      exact ⟨prior, List.mem_of_find?_eq_some hfound, hname, hslot, (Except.error.inj h).symm⟩

/-- Where phrases disagree on the slot of a variable, the later one is at fault. Its own bindings
are of different variables, so the other slot comes from a phrase before it. -/
theorem unite_faulty {entry : Value} {phrases : List String} {e : BuildError}
    (hintent : DeclaresIntent document name entry) (hphrases : HasTexts entry phrases)
    (hrules : ∀ phrase ∈ phrases, Outline.PhraseRules (slots.map (·.name)) phrase)
    (h : unite (inPhrase source name) [] (phrases.zip (phrases.map (bindingsOf slots))) =
      .error e) :
    ∃ fault location, e = .invalid fault location ∧ Faulty source document fault location := by
  have hzip : phrases.zip (phrases.map (bindingsOf slots)) =
      phrases.map fun phrase => (phrase, bindingsOf slots phrase) := by
    simpa using List.zip_map' (f := id) (g := bindingsOf slots) (l := phrases)
  obtain ⟨first, ⟨phrase, bound⟩, after, known, hpairs, hknown, herror⟩ :=
    loop_eq_error (unite (inPhrase source name))
      (fun known pair => locate (inPhrase source name pair.1) (mergeAll known pair.2))
      (fun _ => rfl) (fun _ _ _ => rfl) h
  obtain ⟨fault, hfault, rfl⟩ := exists_of_locate_eq_error herror
  refine ⟨fault, _, rfl, ?_⟩
  obtain ⟨before, b, rest, known', rfl, hknown', hmerge⟩ :=
    loop_eq_error mergeAll merge (fun _ => rfl) (fun _ _ _ => rfl) hfault
  obtain ⟨prior, hprior, hname, hslot, rfl⟩ := merge_eq_error hmerge
  obtain ⟨earlier, tail, rfl, hfirst, htail⟩ := List.map_eq_append_iff.mp (hzip.symm.trans hpairs)
  obtain ⟨phrase', later, rfl, hphrase, _⟩ := List.map_eq_cons_iff.mp htail
  obtain ⟨rfl, hbound⟩ := Prod.mk.inj hphrase
  have hunited : mergeAll [] (first.flatMap (·.2) ++ before) = .ok known' := by
    rw [mergeAll_append, unite_eq_ok_iff.mp hknown]
    exact hknown'
  obtain ⟨r, hr, rfl⟩ : ∃ r ∈ references phrase', toBinding slots r = b := by
    rw [← List.mem_map]
    change b ∈ bindingsOf slots phrase'
    rw [hbound]
    simp
  rcases List.mem_append.mp (mem_of_mergeAll hunited hprior) with hprior | hprior
  · obtain ⟨pair, hpair, hprior⟩ := List.mem_flatMap.mp hprior
    rw [← hfirst] at hpair
    obtain ⟨p, hp, rfl⟩ := List.mem_map.mp hpair
    obtain ⟨s, hs, rfl⟩ := List.mem_map.mp hprior
    simp only [toBinding, slotNamed_name] at hname hslot ⊢
    exact .slotMismatch hintent hphrases (pair_sublist_of_mem hp) hs hr hname hslot
  · have hdistinct := (hrules phrase' (by simp)).variables_distinct
    have hnames : (bindingsOf slots phrase').map (·.name) =
        (references phrase').map Reference.variableName := by
      rw [bindingsOf, List.map_map]
      rfl
    rw [← hnames, hbound] at hdistinct
    have htwo : [prior, toBinding slots r].Sublist (before ++ toBinding slots r :: rest) :=
      pair_sublist_of_mem hprior
    exact absurd hname (by simpa using hdistinct.sublist (htwo.map (·.name)))

include hslots

theorem readIntent_genuine {entries : List (Scalar × Value)} {key : Scalar} {entry : Value}
    {e : BuildError} (hentries : SectionOf document "expressions" entries)
    (hmem : (key, entry) ∈ entries) (h : readIntent source slots key entry = .error e) :
    Genuine source document e := by
  unfold readIntent at h
  rcases bind_eq_error_iff.mp h with hkey | ⟨name, hname, h⟩
  · obtain ⟨cause, hcause, rfl⟩ := exists_of_printed_eq_error hkey
    exact .textless (hentries.textless_key hmem hcause)
  have hname := printed_eq_ok_iff.mp hname
  have hintent : DeclaresIntent document name entry := ⟨_, key, hentries, hmem, hname⟩
  dsimp only at h
  split at h
  · next problem hproblem =>
      obtain rfl := Except.error.inj h
      exact .fault (.badIntent hintent hproblem)
  rcases bind_eq_error_iff.mp h with h | ⟨phrases, hphrases, h⟩
  · exact plainTexts_genuine (.intent hintent) h
  have hphrases := plainTexts_eq_ok_iff.mp hphrases
  split_ifs at h with hempty
  · obtain rfl := Except.error.inj h
    obtain rfl := List.isEmpty_iff.mp hempty
    refine .fault (.noPhrases hintent ?_)
    cases hphrases with
    | null => exact .inl rfl
    | list hitems => exact .inr (by rw [List.forall₂_nil_right_iff.mp hitems])
  rcases bind_eq_error_iff.mp h with h | ⟨bound, hbound, h⟩
  · obtain ⟨phrase, hphrase, h⟩ := exists_of_mapM_eq_error h
    obtain ⟨fault, hfault, rfl⟩ := exists_of_locate_eq_error h
    exact .fault (bindings_faulty hslots ⟨entry, phrases, hintent, hphrases, hphrase⟩ hfault)
  · simp only [mapM_eq_ok_iff, locate_eq_ok_iff, bindings_eq_ok_iff] at hbound
    obtain ⟨hrules, rfl⟩ := forall₂_map_iff.mp hbound
    rcases bind_eq_error_iff.mp h with h | ⟨united, _, h⟩
    · obtain ⟨fault, location, rfl, hfault⟩ := unite_faulty hintent hphrases hrules h
      exact .fault hfault
    · cases h

end Intents

section Document

theorem contextEntries_faulty {fault : Fault} (h : contextEntries document = .error fault) :
    Faulty source document fault (inSource source) := by
  unfold contextEntries at h
  split at h
  next root =>
      split at h
      next hfound =>
          obtain rfl := Except.error.inj h
          refine .noRoot ?_
          intro root' hroot
          obtain rfl := Value.map.inj hroot
          exact hfound
      next => cases h
      next => cases h
      next v hmap hnull hfound =>
          obtain rfl := Except.error.inj h
          exact .contextNotMap rfl hfound hnull hmap
  next hmap =>
      obtain rfl := Except.error.inj h
      exact .noRoot fun root hroot => absurd hroot (hmap root)

theorem expressionEntries_faulty {context : List (Scalar × Value)} {fault : Fault}
    (hcontext : ContextOf document context)
    (h : expressionEntries (lookup context "expressions") = .error fault) :
    Faulty source document fault (inSource source) := by
  generalize hfound : lookup context "expressions" = found at h
  unfold expressionEntries at h
  split at h
  · obtain rfl := Except.error.inj h
    exact .noExpressions hcontext (by simp [hfound])
  · next v =>
      split_ifs at h with hempty
      · obtain rfl := Except.error.inj h
        exact .noExpressions hcontext (by simpa [hfound] using hempty)
      · split at h
        · cases h
        · next hmap =>
            obtain rfl := Except.error.inj h
            exact .expressionsNotMap hcontext hfound (Bool.eq_false_iff.mpr hempty) hmap

theorem checkSlotName_eq_error {location : Location} {slot : Slot} {e : BuildError}
    (h : checkSlotName location slot = .error e) :
    slot.name ∈ Identifier.moduleNames ∧ e = .invalid (.slotShadowsModule slot.name) location := by
  unfold checkSlotName at h
  split_ifs at h with hmodule
  · exact ⟨List.contains_iff_mem.mp hmodule, (Except.error.inj h).symm⟩
  · cases h

theorem checkIntentName_eq_error {slots : List Slot} {i : Intent} {e : BuildError}
    (h : checkIntentName source slots i = .error e) :
    i.name ∈ Identifier.moduleNames ∧
        e = .invalid (.intentShadowsModule i.name) (inIntent source i.name) ∨
      i.name ∈ slots.map (·.name) ∧
        e = .invalid (.intentIsSlot i.name) (inIntent source i.name) := by
  unfold checkIntentName at h
  dsimp only at h
  split_ifs at h with hmodule hslot
  · exact .inl ⟨List.contains_iff_mem.mp hmodule, (Except.error.inj h).symm⟩
  · exact .inr ⟨any_name_iff.mp hslot, (Except.error.inj h).symm⟩
  · cases h

/-- An error that is reported has a reason in the document. -/
theorem genuine_of_ofValue_eq_error {e : BuildError} (h : ofValue source document = .error e) :
    Genuine source document e := by
  unfold ofValue at h
  rcases bind_eq_error_iff.mp h with h | ⟨context, hcontext, h⟩
  · obtain ⟨fault, hfault, rfl⟩ := exists_of_locate_eq_error h
    exact .fault (contextEntries_faulty hfault)
  have hcontext : ContextOf document context :=
    contextEntries_eq_ok_iff.mp (locate_eq_ok_iff.mp hcontext)
  rcases bind_eq_error_iff.mp h with h | ⟨slots, hslotsOf, h⟩
  · exact slotsOf_genuine hcontext h
  obtain ⟨named, hread, _, _, rfl⟩ := slotsOf_eq_ok_iff.mp hslotsOf
  have hslots := hread.mem_names_iff hcontext
  rw [← map_toSlot_name named] at hslots
  rcases bind_eq_error_iff.mp h with h | ⟨entries, hfound, h⟩
  · obtain ⟨fault, hfault, rfl⟩ := exists_of_locate_eq_error h
    exact .fault (expressionEntries_faulty hcontext hfault)
  have hentries : SectionOf document "expressions" entries :=
    ⟨context, hcontext, (expressionEntries_eq_ok_iff.mp (locate_eq_ok_iff.mp hfound)).1⟩
  rcases bind_eq_error_iff.mp h with h | ⟨intents, hintents, h⟩
  · obtain ⟨⟨key, entry⟩, hmem, h⟩ := exists_of_mapM_eq_error h
    exact readIntent_genuine hslots hentries hmem h
  rcases bind_eq_error_iff.mp h with h | ⟨_, _, h⟩
  · obtain ⟨slot, hslot, h⟩ := exists_of_forM_eq_error h
    obtain ⟨hmodule, rfl⟩ := checkSlotName_eq_error h
    obtain ⟨name, entry, hdeclares, hname⟩ := (hslots _).mp (List.mem_map_of_mem hslot)
    rw [← hname] at hmodule ⊢
    exact .fault (.slotShadowsModule hdeclares hmodule)
  rcases bind_eq_error_iff.mp h with h | ⟨_, _, h⟩
  · obtain ⟨i, hi, h⟩ := exists_of_forM_eq_error h
    obtain ⟨⟨key, entry⟩, hmem, hread⟩ :=
      exists_of_forall₂ (mapM_eq_ok_iff.mp hintents).flip hi
    obtain ⟨n, ⟨⟨hname, _⟩, _⟩, rfl⟩ := readIntent_eq_ok_iff.mp hread
    have hintent : DeclaresIntent document n.1 entry := ⟨_, key, hentries, hmem, hname⟩
    rcases checkIntentName_eq_error h with ⟨hmodule, rfl⟩ | ⟨hslot, rfl⟩
    · exact .fault (.intentShadowsModule hintent hmodule)
    · obtain ⟨slot, entry', hdeclares, hsame⟩ := (hslots _).mp hslot
      exact .fault (.intentIsSlot hintent hdeclares hsame)
  · cases h

end Document

end Grammar

section Accepted
variable {source : Option String} {document : Value} {o : Outline}

theorem Declares.reads {part name : String} {entry : Value} {named : List (String × List String)}
    (hpart : ∀ entries, SectionOf document part entries → List.Forall₂ ReadsEntry entries named)
    (h : Declares document part name entry) :
    ∃ texts, (name, texts) ∈ named ∧ HasTexts entry texts := by
  obtain ⟨entries, key, hsection, hmem, hkey⟩ := h
  obtain ⟨⟨name', texts⟩, hn, hname, htexts⟩ :=
    Stepwise.exists_of_forall₂ (hpart entries hsection) hmem
  obtain rfl : name' = name := Except.ok.inj (hname.symm.trans hkey)
  exact ⟨texts, hn, htexts⟩

/-- Of entries whose names are all different, no two have one name. -/
theorem names_pairwise_ne {entries : List (Scalar × Value)} {named : List (String × List String)}
    (hread : List.Forall₂ ReadsEntry entries named)
    (hdistinct : (named.map fun n => escape n.1).Nodup) :
    entries.Pairwise fun a b => ∀ name again, a.1.display = .ok name →
      b.1.display = .ok again → escape name ≠ escape again := by
  induction hread with
  | nil => exact .nil
  | cons hentry hrest ih =>
      rw [List.map_cons, List.nodup_cons] at hdistinct
      refine .cons ?_ (ih hdistinct.2)
      intro b hb name again hname hagain hsame
      obtain ⟨m, hm, hread⟩ := Stepwise.exists_of_forall₂ hrest hb
      apply hdistinct.1
      rw [Except.ok.inj (hentry.1.symm.trans hname), hsame,
        ← Except.ok.inj (hread.1.symm.trans hagain)]
      exact List.mem_map_of_mem hm

/-- No two items of a list without repeats have one value. -/
theorem ne_of_pair_sublist {α : Type} {f : α → String} {items : List α} {a b : α}
    (hdistinct : (items.map f).Nodup) (htwo : [a, b].Sublist items) : f a ≠ f b := by
  simpa using hdistinct.sublist (htwo.map f)

/-- A well-declared document has none of the faults. -/
theorem not_faulty_of_wellDeclared (hreads : Reads document o) (hrules : o.WellDeclared)
    {fault : Fault} {location : Location} : ¬ Faulty source document fault location := by
  obtain ⟨root, context, entries, rfl, hroot, hslots, hexpressions, hintents⟩ := hreads
  have hcontext : ContextOf (.map root) context := ⟨root, rfl, .inl hroot⟩
  have hslotEntries (found : List (Scalar × Value)) (h : SectionOf (.map root) "slots" found) :
      List.Forall₂ ReadsEntry found o.slots := by
    obtain ⟨context', hcontext', hfound⟩ := h
    obtain rfl := hcontext.unique hcontext'
    rw [hfound] at hslots
    cases hslots with
    | map h => exact h
  have hintentEntries (found : List (Scalar × Value))
      (h : SectionOf (.map root) "expressions" found) :
      List.Forall₂ ReadsEntry found o.intents := by
    obtain ⟨context', hcontext', hfound⟩ := h
    obtain rfl := hcontext.unique hcontext'
    obtain rfl := Value.map.inj (Option.some.inj (hexpressions.symm.trans hfound))
    exact hintents
  -- Every declaration is an entry of the outline, and its texts are those that the outline has.
  have hslot {name : String} {entry : Value} (h : DeclaresSlot (.map root) name entry) :
      Outline.SlotRules (name, entry.words) ∧ escape name ∈ o.slotNames ∧
        HasTexts entry entry.words := by
    obtain ⟨words, hmem, hwords⟩ := h.reads hslotEntries
    obtain rfl := hwords.eq_words
    exact ⟨hrules.slots _ hmem, List.mem_map_of_mem hmem, hwords⟩
  have hintent {name : String} {entry : Value} (h : DeclaresIntent (.map root) name entry) :
      Outline.IntentRules o.slotNames (name, entry.words) ∧ name ∈ o.intentNames ∧
        HasTexts entry entry.words := by
    obtain ⟨phrases, hmem, hphrases⟩ := h.reads hintentEntries
    obtain rfl := hphrases.eq_words
    exact ⟨hrules.intents _ hmem, List.mem_map_of_mem hmem, hphrases⟩
  have hphrase {name phrase : String} (h : HasPhrase (.map root) name phrase) :
      Outline.PhraseRules o.slotNames phrase := by
    obtain ⟨entry, phrases, hdeclares, hphrases, hmem⟩ := h
    obtain rfl := hphrases.eq_words
    exact (hintent hdeclares).1.phrases phrase hmem
  have howns {owner : Owner} {location : Location} {entry : Value}
      (h : Owns source (.map root) owner location entry) : HasTexts entry entry.words := by
    cases h with
    | slot h => exact (hslot h).2.2
    | intent h => exact (hintent h).2.2
  intro hfaulty
  cases hfaulty with
  | noRoot h =>
      rw [h root rfl] at hroot
      cases hroot
  | contextNotMap hdocument hv _ hmap =>
      obtain rfl := Value.map.inj hdocument
      exact hmap context (Option.some.inj (hv.symm.trans hroot))
  | slotsNotMap h hv hnull hmap =>
      obtain rfl := hcontext.unique h
      rw [hv] at hslots
      generalize o.slots = named at hslots
      cases hslots with
      | null => exact hnull rfl
      | map _ => exact hmap _ rfl
  | notList h hnull hlist =>
      cases howns h with
      | null => exact hnull rfl
      | list _ => exact hlist _ rfl
  | notPlain h hitem hplain _ =>
      cases howns h with
      | list hitems =>
          obtain ⟨_, _, htext⟩ := Stepwise.exists_of_forall₂ hitems hitem
          exact Bool.false_ne_true (hplain.symm.trans htext.1)
  | badSlot h hproblem =>
      have husable := (hslot h).1.name_usable
      simp [Identifier.Usable, hproblem] at husable
  | repeatedSlot h htwo hearlier hlater hsame =>
      have hapart := names_pairwise_ne (hslotEntries _ h) hrules.slots_distinct
      exact List.pairwise_pair.mp (hapart.sublist htwo) _ _ hearlier hlater hsame
  | badElement h hwords hword hproblem =>
      obtain rfl := hwords.eq_words
      have husable := (hslot h).1.words_usable _ hword
      simp [Identifier.Usable, hproblem] at husable
  | refusedElement h hwords hword hrefused =>
      obtain rfl := hwords.eq_words
      exact (hslot h).1.words_allowed _ hword hrefused
  | repeatedElement h hwords htwo hsame =>
      obtain rfl := hwords.eq_words
      exact ne_of_pair_sublist (hslot h).1.words_distinct htwo hsame
  | noExpressions h hempty =>
      obtain rfl := hcontext.unique h
      obtain rfl : entries = [] := by simpa [Value.isEmpty] using hempty _ hexpressions
      exact hrules.has_intents (List.forall₂_nil_left_iff.mp hintents)
  | expressionsNotMap h hv _ hmap =>
      obtain rfl := hcontext.unique h
      exact hmap entries (Option.some.inj (hv.symm.trans hexpressions))
  | badIntent h hproblem =>
      have husable := (hintent h).1.name_usable
      simp [Identifier.Usable, hproblem] at husable
  | noPhrases h hempty =>
      apply (hintent h).1.has_phrases
      rcases hempty with rfl | rfl <;> rfl
  | repeatedVariable h htwo hsame =>
      exact ne_of_pair_sublist (hphrase h).variables_distinct htwo hsame
  | unknownSlot h hr hunknown =>
      obtain ⟨slot, entry, hdeclares, hname⟩ :=
        (hslots.mem_names_iff hcontext _).mp ((hphrase h).slots_declared _ hr)
      exact hunknown slot entry hdeclares hname
  | badVariable h hr hproblem =>
      have husable := (hphrase h).variables_usable _ hr
      simp [Identifier.Usable, hproblem] at husable
  | slotMismatch h hphrases htwo hbefore hr hname hother =>
      obtain rfl := hphrases.eq_words
      exact hother ((hintent h).1.one_slot _ (htwo.subset (by simp)) _ (htwo.subset (by simp)) _
        hbefore _ hr hname)
  | slotShadowsModule h hmodule => exact hrules.slots_free _ (hslot h).2.1 hmodule
  | intentShadowsModule h hmodule => exact hrules.intents_free _ (hintent h).2.1 hmodule
  | intentIsSlot h hdeclares hsame =>
      exact hrules.intents_apart _ (hintent h).2.1 (hsame ▸ (hslot hdeclares).2.1)

end Accepted

/-- Every error of the builder has a reason in the document: the fault that it names is there, at
the intent and the phrase that it names, or an integer is too long or a collection too deep to be
shown. No document with one of the faults is built. -/
theorem faults_genuine (source : Option String) (document : Value) :
    (∀ e, Grammar.ofValue source document = .error e → Genuine source document e) ∧
    ∀ fault location, Faulty source document fault location →
      ∃ e, Grammar.ofValue source document = .error e := by
  constructor
  · intro e h
    exact Grammar.genuine_of_ofValue_eq_error h
  · intro fault location hfaulty
    cases hbuilt : Grammar.ofValue source document with
    | error e => exact ⟨e, rfl⟩
    | ok g =>
        obtain ⟨o, hreads, hrules, _⟩ := Grammar.ofValue_eq_ok_iff.mp hbuilt
        exact absurd hfaulty (not_faulty_of_wellDeclared hreads hrules)

/-- A context with two faults: the second phrase binds a variable to another slot than the first,
and the other intent has no phrases. -/
def paintContext : Value :=
  .map [(.text "context", .map
    [(.text "slots", .map
        [(.text "Room", .list [.text "hall"]), (.text "Color", .list [.text "red"])]),
      (.text "expressions", .map
        [(.text "Paint", .list [.text "paint the $Room:it", .text "paint it $Color:it"]),
          (.text "Stop", .null)])])]

/-- The first fault is reported at its phrase; the other alone would be an error, too. -/
theorem paint_faulty :
    Faulty none paintContext (.slotMismatch "it" "Color" "Room")
        (Grammar.inPhrase none "Paint" "paint it $Color:it") ∧
      ∃ e, Grammar.ofValue none paintContext = .error e := by
  obtain ⟨hgenuine, hrefused⟩ := faults_genuine none paintContext
  have hstop : Faulty none paintContext (.noPhrases "Stop") (Grammar.inIntent none "Stop") := by
    refine .noPhrases ⟨_, .text "Stop", ⟨_, ⟨_, rfl, .inl rfl⟩, rfl⟩, ?_, rfl⟩ (.inl rfl)
    exact List.mem_cons_of_mem _ List.mem_cons_self
  refine ⟨?_, hrefused _ _ hstop⟩
  cases hgenuine (.invalid (.slotMismatch "it" "Color" "Room")
    (Grammar.inPhrase none "Paint" "paint it $Color:it")) rfl with
  | fault h => exact h

end VoiceIntents
