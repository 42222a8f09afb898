import VoiceIntents.Proofs.IntentNames
import VoiceIntents.Proofs.Reporting
import VoiceIntents.Proofs.SpokenPhrase

/-!
# What a grammar is warned of

The warnings on a grammar that was built, read off its phrases: a slot is unused when no phrase
refers to it, whatever the spelling, and a phrase is repeated at each place where it has stood
before. The linter itself looks at variables and not at references. A strict validation ends well
exactly when there is nothing to warn of.
-/

namespace VoiceIntents

namespace Grammar

/-- Some phrase of some intent has a reference to the slot. -/
def Refers (g : Grammar) (slot : String) : Prop :=
  ∃ i ∈ g.intents, ∃ phrase ∈ i.phrases, ∃ r ∈ references phrase, r.slotName = slot

instance (g : Grammar) (slot : String) : Decidable (g.Refers slot) :=
  inferInstanceAs (Decidable (∃ i ∈ g.intents, ∃ phrase ∈ i.phrases, ∃ r ∈ references phrase,
    r.slotName = slot))

/-- What is said about a slot. -/
def slotRemarks (g : Grammar) (s : Slot) : List String :=
  (if g.Refers s.name then []
    else ["Slot '" ++ s.name ++ "' is not referenced by any expression"])
    ++ if s.elements = [] then ["Slot '" ++ s.name ++ "' has no elements"] else []

end Grammar

/-- The phrases of an intent that have stood before, each with its place. -/
def Intent.repetitions (i : Intent) : List (String × Nat) :=
  i.phrases.zipIdx.filter fun p => p.1 ∈ i.phrases.take p.2

/-- What is said about the phrases of an intent. -/
def Intent.remarks (i : Intent) : List String :=
  i.repetitions.map fun p => "Intent '" ++ i.name ++ "' repeats expression '" ++ p.1 ++ "'"

/-- Every slot is referred to and has elements, and no intent has a phrase twice. -/
structure Grammar.Tidy (g : Grammar) : Prop where
  slots_used : ∀ s ∈ g.slots, g.Refers s.name
  slots_filled : ∀ s ∈ g.slots, s.elements ≠ []
  phrases_distinct : ∀ i ∈ g.intents, i.phrases.Nodup

section Texts

theorem describe_unusedSlot (slot : String) : (Grammar.Warning.unusedSlot slot).describe =
    "Slot '" ++ slot ++ "' is not referenced by any expression" := by
  apply String.toList_injective
  simp [Grammar.Warning.describe, named]

theorem describe_emptySlot (slot : String) : (Grammar.Warning.emptySlot slot).describe =
    "Slot '" ++ slot ++ "' has no elements" := by
  apply String.toList_injective
  simp [Grammar.Warning.describe, named]

theorem describe_repeatedPhrase (intent phrase : String) :
    (Grammar.Warning.repeatedPhrase intent phrase).describe =
      "Intent '" ++ intent ++ "' repeats expression '" ++ phrase ++ "'" := by
  apply String.toList_injective
  simp [Grammar.Warning.describe, named]

end Texts

section Slots
variable {source : Option String} {document : Value} {g : Grammar}

/-- An intent has a variable of a slot when one of its phrases refers to the slot. Of several
variables with one name only the first stays, but all of them are of one slot. -/
theorem exists_var_iff {names : List String} {entry : String × List String} {slots : List Slot}
    (h : Outline.IntentRules names entry) (slot : String) :
    (∃ v ∈ (Outline.toIntent slots entry).vars, v.slot.name = slot) ↔
      ∃ phrase ∈ entry.2, ∃ r ∈ references phrase, r.slotName = slot := by
  constructor
  · rintro ⟨v, hv, rfl⟩
    obtain ⟨phrase, hphrase, r, hr, rfl⟩ := Outline.exists_reference_of_mem_vars hv
    exact ⟨phrase, hphrase, r, hr, (Grammar.slotNamed_name slots r.slotName).symm⟩
  · rintro ⟨phrase, hphrase, r, hr, rfl⟩
    obtain ⟨v, hv, _, hslot⟩ := (h.bindsPhrases slots).bound phrase hphrase r hr
    exact ⟨v, hv, hslot⟩

/-- A slot is used when a phrase refers to it. -/
theorem usesSlot_iff (h : Grammar.ofValue source document = .ok g) (slot : String) :
    g.usesSlot slot = true ↔ g.Refers slot := by
  obtain ⟨o, _, hrules, rfl⟩ := Grammar.ofValue_eq_ok_iff.mp h
  simp only [Grammar.usesSlot, Grammar.Refers, Outline.grammar, List.any_eq_true, List.mem_map,
    exists_exists_and_eq_and, decide_eq_true_eq]
  apply exists_congr
  intro entry
  apply and_congr_right
  intro hentry
  exact exists_var_iff (hrules.intents entry hentry) slot

theorem describe_lintSlot (h : Grammar.ofValue source document = .ok g) (s : Slot) :
    (g.lintSlot s).map Grammar.Warning.describe = g.slotRemarks s := by
  simp only [Grammar.lintSlot, Grammar.slotRemarks, usesSlot_iff h, List.isEmpty_iff,
    List.map_append]
  congr 1
  · split
    · rfl
    · rw [List.map_singleton, describe_unusedSlot]
  · split
    · rw [List.map_singleton, describe_emptySlot]
    · rfl

end Slots

section Repeats
variable (intent : String)

/-- After some phrases, the warnings on the rest are on the places whose phrase stands before. -/
theorem repeats_eq_map (before rest : List String) :
    Grammar.repeats intent before rest =
      ((rest.zipIdx before.length).filter fun p => p.1 ∈ (before ++ rest).take p.2).map
        fun p => .repeatedPhrase intent p.1 := by
  induction rest generalizing before with
  | nil => rfl
  | cons phrase rest ih =>
      have hnext := ih (before ++ [phrase])
      rw [List.length_append, List.length_singleton, List.append_assoc,
        List.singleton_append] at hnext
      rw [Grammar.repeats, hnext, List.zipIdx_cons, List.filter_cons]
      by_cases hold : phrase ∈ before
      · simp [hold]
      · simp [hold]

theorem repeats_nil_eq_map (i : Intent) :
    Grammar.repeats i.name [] i.phrases =
      i.repetitions.map fun p => .repeatedPhrase i.name p.1 :=
  repeats_eq_map i.name [] i.phrases

/-- What is warned of and what is new make up all phrases. -/
theorem length_repeats (before rest : List String) :
    (Grammar.repeats intent before rest).length +
      (rest.filter fun phrase => phrase ∉ before).eraseDups.length = rest.length := by
  induction rest generalizing before with
  | nil => rfl
  | cons phrase rest ih =>
      have hnext := ih (before ++ [phrase])
      rw [Grammar.repeats, List.length_append, List.length_cons]
      by_cases hold : phrase ∈ before
      · have hsame : (rest.filter fun p => p ∉ before ++ [phrase]) =
            rest.filter fun p => p ∉ before := by
          apply List.filter_congr
          intro p _
          by_cases hp : p = phrase
          · simp [hp, hold]
          · simp [hp]
        rw [hsame] at hnext
        simp only [List.contains_eq_mem, hold, decide_true, if_true, List.length_singleton,
          not_true_eq_false, decide_false, Bool.false_eq_true, not_false_eq_true,
          List.filter_cons_of_neg]
        omega
      · have hsame : (rest.filter fun p => p ∉ before ++ [phrase]) =
            (rest.filter fun p => p ∉ before).filter fun p => !p == phrase := by
          rw [List.filter_filter]
          apply List.filter_congr
          intro p _
          simp [and_comm, beq_eq_decide]
        rw [hsame] at hnext
        rw [List.filter_cons_of_pos (by simpa using hold), List.eraseDups_cons, List.length_cons]
        simp only [List.contains_eq_mem, hold, decide_false, Bool.false_eq_true, if_false,
          List.length_nil]
        omega

/-- There is nothing to warn of when no phrase comes twice and none has come before. -/
theorem repeats_eq_nil_iff (before rest : List String) :
    Grammar.repeats intent before rest = [] ↔ rest.Nodup ∧ rest.Disjoint before := by
  induction rest generalizing before with
  | nil => simp [Grammar.repeats]
  | cons phrase rest ih =>
      rw [Grammar.repeats, List.append_eq_nil_iff, ih, List.nodup_cons,
        List.disjoint_cons_left, List.disjoint_append_right, List.disjoint_singleton]
      by_cases hold : phrase ∈ before
      · simp [hold]
      · simp only [List.contains_eq_mem, hold, decide_false, Bool.false_eq_true, if_false,
          not_false_eq_true, true_and]
        constructor
        · rintro ⟨hrest, hbefore, hphrase⟩
          exact ⟨⟨hphrase, hrest⟩, hbefore⟩
        · rintro ⟨⟨hphrase, hrest⟩, hbefore⟩
          exact ⟨hrest, hbefore, hphrase⟩

end Repeats

section Lint
variable {source : Option String} {document : Value} {g : Grammar}

/-- The warnings in words: on the slots as they are referred to and filled, and on the places of
repeated phrases. -/
theorem describe_lint (h : Grammar.ofValue source document = .ok g) :
    g.lint.map Grammar.Warning.describe =
      g.slots.flatMap g.slotRemarks ++ g.intents.flatMap Intent.remarks := by
  have hintent (i : Intent) :
      (Grammar.repeats i.name [] i.phrases).map Grammar.Warning.describe = i.remarks := by
    rw [repeats_nil_eq_map, List.map_map]
    apply List.map_congr_left
    intro p _
    exact describe_repeatedPhrase i.name p.1
  simp only [Grammar.lint, List.map_append, List.map_flatMap, describe_lintSlot h, hintent]

theorem length_remarks (i : Intent) :
    i.remarks.length = i.phrases.length - i.phrases.eraseDups.length := by
  have hall := length_repeats i.name [] i.phrases
  rw [repeats_nil_eq_map, List.length_map] at hall
  have hnew : (i.phrases.filter fun phrase => phrase ∉ ([] : List String)) = i.phrases := by simp
  rw [hnew] at hall
  rw [Intent.remarks, List.length_map]
  omega

/-- A slot is called empty when it has no elements. -/
theorem emptySlot_mem_lint_iff {slot : String} :
    .emptySlot slot ∈ g.lint ↔ ∃ s ∈ g.slots, s.name = slot ∧ s.elements = [] := by
  have hslot (s : Slot) :
      .emptySlot slot ∈ g.lintSlot s ↔ s.name = slot ∧ s.elements = [] := by
    have hunused : .emptySlot slot ∉
        (if g.usesSlot s.name then [] else [Grammar.Warning.unusedSlot s.name]) := by
      split <;> simp
    rw [Grammar.lintSlot, List.mem_append, or_iff_right hunused]
    by_cases hempty : s.elements = []
    · simp [hempty, eq_comm]
    · simp [hempty]
  have hintent (i : Intent) : .emptySlot slot ∉ Grammar.repeats i.name [] i.phrases := by
    rw [repeats_nil_eq_map]
    simp
  simp only [Grammar.lint, List.mem_append, List.mem_flatMap, hslot, hintent, and_false,
    exists_false, or_false]

/-- There are no warnings on a tidy grammar, and only on a tidy one. -/
theorem lint_eq_nil_iff (h : Grammar.ofValue source document = .ok g) :
    g.lint = [] ↔ g.Tidy := by
  have hslot (s : Slot) : g.lintSlot s = [] ↔ g.Refers s.name ∧ s.elements ≠ [] := by
    rw [Grammar.lintSlot, List.append_eq_nil_iff, ← usesSlot_iff h]
    simp
  have hintent (i : Intent) : Grammar.repeats i.name [] i.phrases = [] ↔ i.phrases.Nodup := by
    rw [repeats_eq_nil_iff]
    simp
  simp only [Grammar.lint, List.append_eq_nil_iff, List.flatMap_eq_nil_iff, hslot, hintent]
  constructor
  · rintro ⟨hslots, hintents⟩
    exact ⟨fun s hs => (hslots s hs).1, fun s hs => (hslots s hs).2, hintents⟩
  · intro htidy
    exact ⟨fun s hs => ⟨htidy.slots_used s hs, htidy.slots_filled s hs⟩, htidy.phrases_distinct⟩

end Lint

namespace Command
variable {files : FileTree} {directory : Place} {words : List String} {verbose : Bool}
  {context : Path} {text : String} {g : Grammar}

theorem ending_showGrammar_iff [Host] (g : Grammar) (t : Transcript) :
    (showGrammar true g t).ending = .exit 0 ↔ g.lint = [] := by
  cases hlint : g.lint with
  | nil => simp [showGrammar, hlint, warn, Transcript.exit]
  | cons w rest =>
      rw [showGrammar, hlint]
      rcases warn_cases (t.lines (grammarLines g)) (w :: rest) with
        hwarn | ⟨before, v, after, hwarnings, hbefore, hhalf⟩
      · simp [hwarn, Transcript.exit]
      · rw [hwarnings, warn_of_half _ hbefore hhalf]
        simp [Transcript.escape]

/-- A strict validation of an accepted context ends well if there is nothing to warn of. -/
theorem ending_strict_iff [Host] [Listing]
    (hwords : Request.ofWords words = .validate verbose ⟨context, true⟩)
    (hread : (files.look directory context).text = .ok text)
    (hbuilt : Context.grammar (some context.toText) text = .ok g) :
    (run files directory words).1.ending = .exit 0 ↔ g.lint = [] := by
  rw [run_validate hwords, readContext_eq_ok_iff.mpr hread]
  simp only [hbuilt, ending_showGrammar_iff]

end Command

/-- A grammar that was built is warned of what its phrases and slots show and of nothing else, in
the order of declaration. There are as many repeated phrases as there are more phrases than
different ones. A strict validation of the grammar ends well exactly when it is tidy. -/
theorem warnings_exact [Host] [Listing] (source : Option String) (document : Value) (g : Grammar)
    (h : Grammar.ofValue source document = .ok g) :
    g.lint.map Grammar.Warning.describe =
      g.slots.flatMap g.slotRemarks ++ g.intents.flatMap Intent.remarks ∧
    (∀ i ∈ g.intents, i.remarks.length = i.phrases.length - i.phrases.eraseDups.length) ∧
    ∀ (files : FileTree) (directory : Place) (words : List String) (verbose : Bool)
      (context : Path) (text : String),
      Command.Request.ofWords words = .validate verbose ⟨context, true⟩ →
      (files.look directory context).text = .ok text →
      Context.grammar (some context.toText) text = .ok g →
      ((Command.run files directory words).1.ending = .exit 0 ↔ g.Tidy) := by
  refine ⟨describe_lint h, fun i _ => length_remarks i, ?_⟩
  intro files directory words verbose context text hwords hread hbuilt
  rw [Command.ending_strict_iff hwords hread hbuilt, lint_eq_nil_iff h]

/-- A context where one slot is empty, one is not referred to, and a phrase comes three times. -/
def laxContext : String :=
  "context:\n  expressions:\n    Go: [go $for:x, now, now, now]\n  slots:\n    for: []\n    Other: [a]\n"

def laxFiles : FileTree := ⟨[(["lax.yml"], .file (Text.Utf8.encode laxContext))]⟩

def laxGrammar : Grammar :=
  { intents := [⟨"Go", [⟨"x", "x", ⟨"For", []⟩, false⟩], ["go $for:x", "now", "now", "now"]⟩]
    slots := [⟨"For", []⟩, ⟨"Other", [⟨"a", "a"⟩]⟩]
    source := some "lax.yml" }

section Lax

attribute [local instance] Host.plain Listing.written

/-- The slot that is referred to by its other spelling is empty but used; the phrase is warned of
twice; and the validation does not end well. -/
theorem laxContext_warned :
    Context.grammar (some "lax.yml") laxContext = .ok laxGrammar ∧
    laxGrammar.lint.map Grammar.Warning.describe =
      ["Slot 'For' has no elements", "Slot 'Other' is not referenced by any expression",
        "Intent 'Go' repeats expression 'now'", "Intent 'Go' repeats expression 'now'"] ∧
    (Command.run laxFiles [] ["validate", "lax.yml", "--strict"]).1.ending ≠ .exit 0 := by
  have hbuilt : Context.grammar (some "lax.yml") laxContext = .ok laxGrammar :=
    Stepwise.toOption_eq_some_iff.mp (by decide +kernel)
  obtain ⟨d, _, hvalue⟩ := Context.grammar_eq_ok_iff.mp hbuilt
  obtain ⟨htexts, _, hstrict⟩ := warnings_exact _ _ laxGrammar hvalue
  refine ⟨hbuilt, ?_, ?_⟩
  · rw [htexts]
    decide +kernel
  · have hread : (laxFiles.look [] ⟨.here, ["lax.yml"]⟩).text = .ok laxContext := by
      decide +kernel
    intro hgood
    have htidy := (hstrict laxFiles [] ["validate", "lax.yml", "--strict"] false
      ⟨.here, ["lax.yml"]⟩ laxContext (by decide) hread hbuilt).mp hgood
    exact htidy.slots_filled ⟨"For", []⟩ List.mem_cons_self rfl

end Lax

end VoiceIntents
