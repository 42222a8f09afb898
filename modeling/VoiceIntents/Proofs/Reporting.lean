import VoiceIntents.Proofs.Unreported

/-!
# Failures that are reported and failures that escape

A command ends well, with a message or with warnings, or a failure escapes from it. What escapes
is listed here: contents that a reader has no report for, and places that the file system refuses.
Everything else is reported.
-/

namespace VoiceIntents

namespace Command

/-- A warning on a line of its own. -/
def Transcript.warning (t : Transcript) (w : Grammar.Warning) : Transcript :=
  t.line ("WARNING: " ++ Text.shown w.describe)

section Writing
variable (t : Transcript)

theorem currentText_eq_error_iff {found : Look} {cause : Escape} :
    currentText found = .error cause ↔
      (∃ e, cause = .file e ∧ found.isThere = .error e) ∨
      (cause = .file .isDirectory ∧ found = .ok .directory) ∨
      ∃ data fault, cause = .undecodable fault ∧ found = .ok (.file data) ∧
        Text.Utf8.decode data = .error fault := by
  unfold currentText
  cases found with
  | error e => cases hmeans : e.meansAbsent <;> simp [Look.isThere, hmeans, eq_comm]
  | ok entry =>
      cases entry with
      | directory => simp [Look.isThere, Look.text, eq_comm]
      | file data =>
          cases hdata : Text.Utf8.decode data <;>
            simp [Look.isThere, Look.text, hdata, eq_comm]

theorem escaped_of_unsaved {files : FileTree} {directory : Place} {output : Path} {text : String}
    {found : Look} {current : Option String} {e : FileError}
    (hcurrent : currentText found = .ok current) (hother : current ≠ some text)
    (hsave : (files.save directory output (Text.Utf8.encode text)).1 = .error e) :
    ((saveOutput found output text t).perform files directory).1.ending = .escaped (.file e) := by
  rw [saveOutput, hcurrent]
  simp only [hother, if_false, Plan.perform]
  generalize files.save directory output (Text.Utf8.encode text) = saved at hsave ⊢
  obtain ⟨result, after⟩ := saved
  obtain rfl : result = .error e := hsave
  rfl

/-- Warnings are written up to the first whose text has half a pair of code units. -/
theorem warn_cases (warnings : List Grammar.Warning) :
    warn t warnings = .ok (warnings.foldl Transcript.warning t) ∨
      ∃ before w after, warnings = before ++ w :: after ∧
        (∀ v ∈ before, Text.hasHalf v.describe = false) ∧ Text.hasHalf w.describe = true := by
  induction warnings generalizing t with
  | nil => exact .inl rfl
  | cons w rest ih =>
      cases hhalf : Text.hasHalf w.describe with
      | true => exact .inr ⟨[], w, rest, rfl, by simp, hhalf⟩
      | false =>
          rcases ih (t.warning w) with hok | ⟨before, v, after, rfl, hbefore, hv⟩
          · left
            rw [warn, hhalf]
            exact hok
          · exact .inr ⟨w :: before, v, after, rfl, by simpa [hhalf] using hbefore, hv⟩

theorem warn_of_half {before after : List Grammar.Warning} {w : Grammar.Warning}
    (hbefore : ∀ v ∈ before, Text.hasHalf v.describe = false)
    (hhalf : Text.hasHalf w.describe = true) :
    warn t (before ++ w :: after) =
      .error ((before.foldl Transcript.warning t).escape (.unwritable w.describe)) := by
  induction before generalizing t with
  | nil => simp [warn, hhalf]
  | cons v before ih =>
      obtain ⟨hv, hbefore⟩ := List.forall_mem_cons.mp hbefore
      simp only [List.cons_append, warn, hv, List.foldl_cons]
      exact ih (t.warning v) hbefore

end Writing

section Commands

variable [Host]

/-- An end that tells what happened: success, a message, an output that is out of date, or the
warnings of a strict validation. -/
inductive Reported : Outcome → Prop
  | done (t : Transcript) : Reported (t.exit 0)
  | failed (t : Transcript) (message : String) : Reported (t.fail message)
  | outOfDate (t : Transcript) (output context : Path) :
      Reported ((t.errorLine (output.toText ++ " is out of date with " ++ context.toText)).exit 1)
  | warned (t : Transcript) (g : Grammar) (hwarnings : g.lint ≠ []) :
      Reported ((g.lint.foldl Transcript.warning (t.lines (grammarLines g))).exit 1)

theorem Reported.ending_ne {outcome : Outcome} (h : Reported outcome) (cause : Escape) :
    outcome.ending ≠ .escaped cause := by
  cases h <;> simp [Transcript.exit, Transcript.fail]

/-- If the bad causes escape and what is not bad is reported, then only the bad causes escape. -/
theorem escaped_iff_of_reported_or {outcome : Outcome} {Bad : Escape → Prop}
    (hbad : ∀ cause, Bad cause → outcome.ending = .escaped cause)
    (hreported : Reported outcome ∨ ∃ cause, Bad cause) (cause : Escape) :
    outcome.ending = .escaped cause ↔ Bad cause := by
  refine ⟨fun h => ?_, hbad cause⟩
  rcases hreported with hreported | ⟨other, hother⟩
  · exact absurd h (hreported.ending_ne cause)
  · have heq : other = cause := Ending.escaped.inj ((hbad other hother).symm.trans h)
    exact heq ▸ hother

section Output
variable {output context : Path} {text : String} {found : Look} {current : Option String}

theorem reported_checkOutput (t : Transcript) (hcurrent : currentText found = .ok current) :
    Reported (checkOutput found output context text t) := by
  rw [checkOutput, hcurrent]
  by_cases hsame : current = some text
  · simp only [hsame, if_true]
    exact .done _
  · simp only [hsame, if_false]
    exact .outOfDate _ _ _

/-- An output whose text is known is reported, or it is to be saved and cannot be. -/
theorem reported_or_unsaved (files : FileTree) (directory : Place) (t : Transcript)
    (hcurrent : currentText found = .ok current) :
    Reported ((saveOutput found output text t).perform files directory).1 ∨
      ∃ e, current ≠ some text ∧
        (files.save directory output (Text.Utf8.encode text)).1 = .error e := by
  rw [saveOutput, hcurrent]
  by_cases hsame : current = some text
  · simp only [hsame, if_true, Plan.perform]
    exact .inl (.done _)
  · simp only [hsame, if_false, Plan.perform]
    generalize files.save directory output (Text.Utf8.encode text) = saved
    obtain ⟨result, after⟩ := saved
    cases result with
    | ok _ => exact .inl (.done _)
    | error e => exact .inr ⟨e, hsame, rfl⟩

end Output

section Failures
variable (t : Transcript)

theorem reported_manifestFailure {e : ManifestError} (h : e.report? ≠ none) :
    Reported (manifestFailure t e) := by
  cases e with
  | refused fault path => exact .failed t _
  | undecodable fault => exact absurd rfl h
  | nullCharacter => exact absurd rfl h
  | unreadable cause => exact absurd rfl h

theorem reported_contextFailure {e : ContextError} (h : e.report? ≠ none) :
    Reported (contextFailure t e) := by
  obtain ⟨message, hmessage⟩ := Option.ne_none_iff_exists'.mp h
  rw [contextFailure, hmessage]
  exact .failed t (Text.shown message)

/-- A context that is not read is reported, unless its path holds a null character. -/
theorem readContext_eq_error {context : Path} {found : Look} {outcome : Outcome}
    (h : readContext context found t = .error outcome) :
    Reported outcome ∨
      found = .error .nullCharacter ∧ outcome = t.escape (.file .nullCharacter) := by
  unfold readContext at h
  split at h
  · cases h
  · next e hread =>
      cases hreport : e.report? context with
      | some detail =>
          rw [hreport] at h
          rw [← Except.error.inj h]
          exact .inl (.failed t _)
      | none =>
          rw [hreport] at h
          refine .inr ⟨Look.text_eq_nullCharacter_iff.mp ?_, (Except.error.inj h).symm⟩
          rw [hread]
          cases e with
          | encoding fault => cases hreport
          | file e => cases e <;> first | rfl | cases hreport

theorem reported_showGrammar (strict : Bool) (g : Grammar) (t : Transcript)
    (hwarn : warn (t.lines (grammarLines g)) g.lint =
      .ok (g.lint.foldl Transcript.warning (t.lines (grammarLines g)))) :
    Reported (showGrammar strict g t) := by
  rw [showGrammar, hwarn]
  by_cases hwarned : (strict && !g.lint.isEmpty) = true
  · simp only [hwarned, if_true]
    apply Reported.warned
    intro hnone
    simp [hnone] at hwarned
  · simp only [hwarned]
    exact .done _

end Failures

variable [Listing]

section Generate
variable (files : FileTree) (directory : Place) (options : GenerateOptions)

/-- Contents of the files that a generation reads which no message is made for. -/
inductive BadContent : Escape → Prop
  | manifestBytes {path : Path} {data : List UInt8} {fault : Text.Utf8.Fault}
      (hused : manifestInUse (files.look directory) (pathOf directory) options.manifest =
        .ok (some path))
      (hlook : files.look directory path = .ok (.file data))
      (hdata : Text.Utf8.decode data = .error fault) : BadContent (.undecodable fault)
  | manifestValue {path : Path} {text : String} {cause : Toml.Unreadable}
      (hused : manifestInUse (files.look directory) (pathOf directory) options.manifest =
        .ok (some path))
      (hread : (files.look directory path).text = .ok text)
      (hlarge : Toml.Oversized Host.nestingRoom (Text.dropReturns text.toList) cause)
      (hvalue : Toml.readDocument text = .error (.unreadable cause)) : BadContent (.manifest cause)
  | contextValue {path : Option Path} {manifest : Manifest} {context : Path} {text : String}
      {e : ContextError}
      (hused : manifestInUse (files.look directory) (pathOf directory) options.manifest = .ok path)
      (hload : LoadedFrom (files.look directory) path manifest)
      (hcontext : options.context.or manifest.context = some context)
      (hread : (files.look directory context).text = .ok text)
      (hsilent : Context.SilentError (some context.toText) text e) : BadContent (.context e)
  | outputBytes {job : Job} {output : Path} {data : List UInt8} {fault : Text.Utf8.Fault}
      (hjob : job.Of (files.look directory) (pathOf directory) options)
      (houtput : job.output options = some output)
      (hlook : files.look directory output = .ok (.file data))
      (hdata : Text.Utf8.decode data = .error fault) : BadContent (.undecodable fault)

/-- Places of the files of a generation that the file system refuses and no message is made
for. -/
inductive BadPlace : Escape → Prop
  | manifestLost {e : FileError}
      (hused : manifestInUse (files.look directory) (pathOf directory) options.manifest =
        .error e) : BadPlace (.file e)
  | manifestNull {path : Path}
      (hused : manifestInUse (files.look directory) (pathOf directory) options.manifest =
        .ok (some path))
      (hlook : files.look directory path = .error .nullCharacter) : BadPlace (.file .nullCharacter)
  | contextNull {path : Option Path} {manifest : Manifest} {context : Path}
      (hused : manifestInUse (files.look directory) (pathOf directory) options.manifest = .ok path)
      (hload : LoadedFrom (files.look directory) path manifest)
      (hcontext : options.context.or manifest.context = some context)
      (hlook : files.look directory context = .error .nullCharacter) :
      BadPlace (.file .nullCharacter)
  | outputLost {job : Job} {output : Path} {e : FileError}
      (hjob : job.Of (files.look directory) (pathOf directory) options)
      (houtput : job.output options = some output)
      (hlook : (files.look directory output).isThere = .error e) : BadPlace (.file e)
  | outputDirectory {job : Job} {output : Path}
      (hjob : job.Of (files.look directory) (pathOf directory) options)
      (houtput : job.output options = some output)
      (hlook : files.look directory output = .ok .directory) : BadPlace (.file .isDirectory)
  | outputUnsaved {job : Job} {output : Path} {e : FileError}
      (hjob : job.Of (files.look directory) (pathOf directory) options)
      (houtput : job.output options = some output) (hwrites : options.check = false)
      {current : Option String}
      (hcurrent : currentText (files.look directory output) = .ok current)
      (hother : current ≠ some job.content)
      (hsave : (files.save directory output (Text.Utf8.encode job.content)).1 = .error e) :
      BadPlace (.file e)

end Generate

/-- A context to validate that no message is made for. -/
inductive BadContext (files : FileTree) (directory : Place) (options : ValidateOptions) :
    Escape → Prop
  | value {text : String} {e : ContextError}
      (hread : (files.look directory options.context).text = .ok text)
      (hsilent : Context.SilentError (some options.context.toText) text e) :
      BadContext files directory options (.context e)
  | null (hlook : files.look directory options.context = .error .nullCharacter) :
      BadContext files directory options (.file .nullCharacter)
  | warning {text intent phrase : String} {g : Grammar} {before after : List Grammar.Warning}
      (hread : (files.look directory options.context).text = .ok text)
      (hgrammar : Context.grammar (some options.context.toText) text = .ok g)
      (hlint : g.lint = before ++ .repeatedPhrase intent phrase :: after)
      (hbefore : ∀ v ∈ before, Text.hasHalf v.describe = false)
      (hhalf : Text.hasHalf phrase = true) :
      BadContext files directory options
        (.unwritable (Grammar.Warning.repeatedPhrase intent phrase).describe)

section Runs
variable {files : FileTree} {directory : Place} {words : List String} {verbose : Bool}

section Generate
variable {options : GenerateOptions} (hwords : Request.ofWords words = .generate verbose options)

include hwords in
theorem run_of_stopped {outcome : Outcome}
    (h : Stopped (files.look directory) (pathOf directory) verbose options outcome) :
    run files directory words = (outcome, files) := by
  rw [run_generate hwords, h.generate_eq]
  rfl

include hwords in
/-- An output whose text cannot be told lets the failure escape. -/
theorem escaped_of_currentText {job : Job} {output : Path} {cause : Escape}
    (hjob : job.Of (files.look directory) (pathOf directory) options)
    (houtput : job.output options = some output)
    (hcurrent : currentText (files.look directory output) = .error cause) :
    (run files directory words).1.ending = .escaped cause := by
  rw [run_generate hwords, generate_of_job hjob, houtput]
  cases options.check with
  | true =>
      change (checkOutput (files.look directory output) output job.context job.content
        (job.transcript verbose)).ending = _
      rw [checkOutput, hcurrent]
      rfl
  | false =>
      change ((saveOutput (files.look directory output) output job.content
        (job.transcript verbose)).perform files directory).1.ending = _
      rw [saveOutput, hcurrent]
      rfl

include hwords in
theorem escaped_of_badContent {cause : Escape} (h : BadContent files directory options cause) :
    (run files directory words).1.ending = .escaped cause := by
  cases h with
  | @manifestBytes path _ _ hused hlook hdata =>
      have hread := Look.text_eq_encoding_iff.mpr ⟨_, hlook, hdata⟩
      have hload := ((Manifest.load_silent_iff path).mpr (.bytes hread)).1
      rw [run_of_stopped hwords (.manifestFailed hused hload)]
      rfl
  | @manifestValue path _ _ hused hread hlarge hvalue =>
      have hload := ((Manifest.load_silent_iff path).mpr (.value hread hlarge hvalue)).1
      rw [run_of_stopped hwords (.manifestFailed hused hload)]
      rfl
  | contextValue hused hload hcontext hread hsilent =>
      obtain ⟨hcompile, hnone⟩ := Context.compile_silent_iff.mpr hsilent
      rw [run_of_stopped hwords (.contextFailed hused hload hcontext hread hcompile),
        contextFailure, hnone]
      rfl
  | outputBytes hjob houtput hlook hdata =>
      exact escaped_of_currentText hwords hjob houtput
        (currentText_eq_error_iff.mpr (.inr (.inr ⟨_, _, rfl, hlook, hdata⟩)))

include hwords in
theorem escaped_of_badPlace {cause : Escape} (h : BadPlace files directory options cause) :
    (run files directory words).1.ending = .escaped cause := by
  cases h with
  | manifestLost hused =>
      rw [run_of_stopped hwords (.manifestLost hused)]
      rfl
  | @manifestNull path hused hlook =>
      have hread := Look.text_eq_nullCharacter_iff.mpr hlook
      have hload := ((Manifest.load_silent_iff path).mpr (.null hread)).1
      rw [run_of_stopped hwords (.manifestFailed hused hload)]
      rfl
  | @contextNull path _ context hused hload hcontext hlook =>
      have hread : readContext context (files.look directory context) (.opening verbose path) =
          .error ((Transcript.opening verbose path).escape (.file .nullCharacter)) := by
        rw [readContext, Look.text_eq_nullCharacter_iff.mpr hlook]
        rfl
      rw [run_of_stopped hwords (.contextUnread hused hload hcontext hread)]
      rfl
  | outputLost hjob houtput hlook =>
      exact escaped_of_currentText hwords hjob houtput
        (currentText_eq_error_iff.mpr (.inl ⟨_, rfl, hlook⟩))
  | outputDirectory hjob houtput hlook =>
      exact escaped_of_currentText hwords hjob houtput
        (currentText_eq_error_iff.mpr (.inr (.inl ⟨rfl, hlook⟩)))
  | @outputUnsaved job output e hjob houtput hwrites current hcurrent hother hsave =>
      rw [run_generate hwords, generate_of_job hjob, houtput, hwrites]
      exact escaped_of_unsaved _ hcurrent hother hsave

/-- A command that stops reports why, or stops for a bad cause. -/
theorem reported_or_bad_of_stopped {outcome : Outcome}
    (h : Stopped (files.look directory) (pathOf directory) verbose options outcome) :
    Reported outcome ∨ ∃ cause, BadContent files directory options cause ∨
      BadPlace files directory options cause := by
  cases h with
  | manifestLost hused => exact .inr ⟨_, .inr (.manifestLost hused)⟩
  | @manifestFailed path e hused hload =>
      by_cases hreport : e.report? = none
      · right
        cases (Manifest.load_silent_iff path).mp ⟨hload, hreport⟩ with
        | bytes hread =>
            obtain ⟨data, hlook, hdata⟩ := Look.text_eq_encoding_iff.mp hread
            exact ⟨_, .inl (.manifestBytes hused hlook hdata)⟩
        | null hread =>
            exact ⟨_, .inr (.manifestNull hused (Look.text_eq_nullCharacter_iff.mp hread))⟩
        | value hread hlarge hvalue =>
            exact ⟨_, .inl (.manifestValue hused hread hlarge hvalue)⟩
      · exact .inl (reported_manifestFailure _ hreport)
  | contextMissing => exact .inl (.failed _ _)
  | contextUnread hused hload hcontext hread =>
      rcases readContext_eq_error _ hread with hreported | ⟨hlook, _⟩
      · exact .inl hreported
      · exact .inr ⟨_, .inr (.contextNull hused hload hcontext hlook)⟩
  | @contextFailed _ _ _ _ e hused hload hcontext hread hcompile =>
      by_cases hreport : e.report? = none
      · have hsilent := Context.compile_silent_iff.mp ⟨hcompile, hreport⟩
        exact .inr ⟨_, .inl (.contextValue hused hload hcontext hread hsilent)⟩
      · exact .inl (reported_contextFailure _ hreport)

theorem bad_of_currentText {job : Job} {output : Path} {cause : Escape}
    (hjob : job.Of (files.look directory) (pathOf directory) options)
    (houtput : job.output options = some output)
    (hcurrent : currentText (files.look directory output) = .error cause) :
    BadContent files directory options cause ∨ BadPlace files directory options cause := by
  rcases currentText_eq_error_iff.mp hcurrent with
    ⟨e, rfl, hlook⟩ | ⟨rfl, hlook⟩ | ⟨data, fault, rfl, hlook, hdata⟩
  · exact .inr (.outputLost hjob houtput hlook)
  · exact .inr (.outputDirectory hjob houtput hlook)
  · exact .inl (.outputBytes hjob houtput hlook hdata)

include hwords

/-- A module that is delivered is told of, or its output is bad. -/
theorem reported_or_bad_of_job {job : Job}
    (hjob : job.Of (files.look directory) (pathOf directory) options) :
    Reported (run files directory words).1 ∨ ∃ cause, BadContent files directory options cause ∨
      BadPlace files directory options cause := by
  rw [run_generate hwords, generate_of_job hjob]
  cases houtput : job.output options with
  | none =>
      cases hcheck : options.check with
      | true => exact .inl (.failed _ _)
      | false => exact .inl (.done _)
  | some output =>
      cases hcurrent : currentText (files.look directory output) with
      | error cause => exact .inr ⟨cause, bad_of_currentText hjob houtput hcurrent⟩
      | ok current =>
          cases hcheck : options.check with
          | true => exact .inl (reported_checkOutput _ hcurrent)
          | false =>
              rcases reported_or_unsaved files directory (job.transcript verbose) hcurrent with
                hreported | ⟨e, hother, hsave⟩
              · exact .inl hreported
              · exact .inr ⟨_, .inr (.outputUnsaved hjob houtput hcheck hcurrent hother hsave)⟩

theorem reported_or_bad (files : FileTree) (directory : Place) :
    Reported (run files directory words).1 ∨ ∃ cause, BadContent files directory options cause ∨
      BadPlace files directory options cause := by
  rcases job_or_stopped (files.look directory) (pathOf directory) verbose options with
    ⟨job, hjob⟩ | ⟨outcome, hstopped⟩
  · exact reported_or_bad_of_job hwords hjob
  · rw [run_of_stopped hwords hstopped]
    exact reported_or_bad_of_stopped hstopped

end Generate

section Validate
variable {options : ValidateOptions} (hwords : Request.ofWords words = .validate verbose options)

include hwords in
theorem run_validate :
    (run files directory words).1 =
      match readContext options.context (files.look directory options.context) {} with
      | .error outcome => outcome
      | .ok text =>
          let t := Transcript.log {} verbose fun _ => Record.ofContext options.context.toText text
          match Context.grammar (some options.context.toText) text with
          | .error e => contextFailure t e
          | .ok g => showGrammar options.strict g t := by
  rw [run, hwords]
  rfl

include hwords in
theorem escaped_of_badContext {cause : Escape} (h : BadContext files directory options cause) :
    (run files directory words).1.ending = .escaped cause := by
  cases h with
  | value hread hsilent =>
      obtain ⟨hgrammar, hnone⟩ := Context.grammar_silent_iff.mpr hsilent
      rw [run_validate hwords, readContext_eq_ok_iff.mpr hread]
      simp only [hgrammar, contextFailure, hnone, Transcript.escape]
  | null hlook =>
      have hread : readContext options.context (files.look directory options.context) {} =
          .error (Transcript.escape {} (.file .nullCharacter)) := by
        rw [readContext, Look.text_eq_nullCharacter_iff.mpr hlook]
        rfl
      rw [run_validate hwords, hread]
      rfl
  | @warning _ intent phrase g _ _ hread hgrammar hlint hbefore hhalf =>
      have hmem : .repeatedPhrase intent phrase ∈ g.lint := by simp [hlint]
      have hwarns := (Context.half_of_mem_lint hgrammar hmem).mpr ⟨_, _, rfl, hhalf⟩
      rw [run_validate hwords, readContext_eq_ok_iff.mpr hread]
      simp only [hgrammar, showGrammar, hlint, warn_of_half _ hbefore hwarns, Transcript.escape]

include hwords in
theorem reported_or_badContext (files : FileTree) (directory : Place) :
    Reported (run files directory words).1 ∨ ∃ cause, BadContext files directory options cause := by
  rw [run_validate hwords]
  cases hread : readContext options.context (files.look directory options.context) {} with
  | error outcome =>
      rcases readContext_eq_error _ hread with hreported | ⟨hlook, _⟩
      · exact .inl hreported
      · exact .inr ⟨_, .null hlook⟩
  | ok text =>
      rw [readContext_eq_ok_iff] at hread
      dsimp only
      cases hgrammar : Context.grammar (some options.context.toText) text with
      | ok g =>
          rcases warn_cases _ g.lint with hwarn | ⟨before, w, after, hlint, hbefore, hhalf⟩
          · exact .inl (reported_showGrammar _ g _ hwarn)
          · have hmem : w ∈ g.lint := by simp [hlint]
            obtain ⟨intent, phrase, rfl, hphrase⟩ :=
              (Context.half_of_mem_lint hgrammar hmem).mp hhalf
            exact .inr ⟨_, .warning hread hgrammar hlint hbefore hphrase⟩
      | error e =>
          by_cases hreport : e.report? = none
          · exact .inr ⟨_, .value hread (Context.grammar_silent_iff.mp ⟨hgrammar, hreport⟩)⟩
          · exact .inl (reported_contextFailure _ hreport)

end Validate

end Runs

/-- What the readers have no report for, by what they are given, and which failures escape from a
command. A manifest must be text with nothing too large in it. A context must have a value in each
of its parts and a text for each of its names, and a scalar that its tag refuses always stops it. An
old output must be text, and a repeated phrase must have no half of a pair. Places that the file
system refuses apart, every other end is reported. -/
theorem failure_escapes_iff (files : FileTree) (directory : Place) (words : List String)
    (verbose : Bool) :
    (∀ (path : Path) (data : List UInt8),
      (∃ e, Manifest.load path (.ok (.file data)) = .error e ∧ e.report? = none) ↔
        (∀ text, data ≠ Text.Utf8.encode text) ∨
        ∃ text cause, data = Text.Utf8.encode text ∧
          Toml.Oversized Host.nestingRoom (Text.dropReturns (Text.universalLines text).toList)
            cause ∧
          Toml.readDocument (Text.universalLines text) = .error (.unreadable cause)) ∧
    (∀ (source project : Option String) (text : String),
      (∀ e, Context.compile source project text = .error e ∧ e.report? = none ↔
        Context.SilentError source text e) ∧
      ∀ g root, Yaml.Graph.ofText Yaml.ImplicitRule.literal text = .ok (g, some root) →
        ∀ id own cause, g.Met root id → (g.node id).content = .scalar own →
          (g.tag id).Refuses own.toList cause →
          ∀ result, Context.compile source project text ≠ .ok result) ∧
    (∀ data : List UInt8, (∃ cause, currentText (.ok (.file data)) = .error cause) ↔
      ∀ text, data ≠ Text.Utf8.encode text) ∧
    (∀ options : GenerateOptions, Request.ofWords words = .generate verbose options →
      (Reported (run files directory words).1 ∨
        ∃ cause, (run files directory words).1.ending = .escaped cause) ∧
      ∀ cause, (run files directory words).1.ending = .escaped cause ↔
        BadContent files directory options cause ∨ BadPlace files directory options cause) ∧
    (∀ options : ValidateOptions, Request.ofWords words = .validate verbose options →
      (Reported (run files directory words).1 ∨
        ∃ cause, (run files directory words).1.ending = .escaped cause) ∧
      ∀ cause, (run files directory words).1.ending = .escaped cause ↔
        BadContext files directory options cause) := by
  refine ⟨fun path data => Manifest.load_file_silent_iff, fun source project text => ?_,
    fun data => ?_, fun options hwords => ?_, fun options hwords => ?_⟩
  · refine ⟨fun e => Context.compile_silent_iff, ?_⟩
    intro g root hgraph id own cause hmet hcontent hrefuses
    exact Context.compile_ne_ok hgraph hmet hcontent hrefuses
  · rw [← Text.Utf8.exists_fault_iff]
    simp [currentText_eq_error_iff, Look.isThere]
  · have hreported := reported_or_bad hwords files directory
    have hescaped (cause : Escape) (hbad : BadContent files directory options cause ∨
        BadPlace files directory options cause) :=
      hbad.elim (escaped_of_badContent hwords) (escaped_of_badPlace hwords)
    refine ⟨hreported.imp_right ?_, ?_⟩
    · rintro ⟨cause, hbad⟩
      exact ⟨cause, hescaped cause hbad⟩
    · exact escaped_iff_of_reported_or hescaped hreported
  · have hreported := reported_or_badContext hwords files directory
    refine ⟨hreported.imp_right ?_, ?_⟩
    · rintro ⟨cause, hbad⟩
      exact ⟨cause, escaped_of_badContext hwords hbad⟩
    · exact escaped_iff_of_reported_or (fun cause => escaped_of_badContext hwords) hreported

end Commands

/-- A context with a phrase that is half of a pair, twice. -/
def halfContext : String := "context:\n  expressions:\n    Go: [\"\\ud800\", \"\\ud800\"]\n"

def halfGrammar : Grammar :=
  ⟨[⟨"Go", [], ["\uffff\ue000", "\uffff\ue000"]⟩], [], some "half.yml"⟩

/-- A manifest that is one byte and no text, beside that context and one with a date that there is
not. -/
def strayFiles : FileTree :=
  ⟨[(["rhinogen.toml"], .file [0xff]),
    (["trip.yml"], .file (Text.Utf8.encode "context: 2001-13-01\n")),
    (["half.yml"], .file (Text.Utf8.encode halfContext))]⟩

section Stray

attribute [local instance] Host.plain Listing.written

/-- The byte escapes from a generation, the date and the half from a validation. -/
theorem strayFiles_escaped :
    (run strayFiles [] ["generate", "trip.yml"]).1.ending =
      .escaped (.undecodable ⟨0xff, 0, 1, .invalidStart⟩) ∧
    (run strayFiles [] ["validate", "trip.yml"]).1.ending =
      .escaped (.context (.unreadable .noSuchTime)) ∧
    (run strayFiles [] ["validate", "half.yml"]).1.ending =
      .escaped (.unwritable (Grammar.Warning.repeatedPhrase "Go" "\uffff\ue000").describe) := by
  obtain ⟨_, _, _, hgenerate, _⟩ :=
    failure_escapes_iff strayFiles [] ["generate", "trip.yml"] false
  obtain ⟨_, hgenerated⟩ :=
    hgenerate ⟨some ⟨.here, ["trip.yml"]⟩, none, none, false⟩ (by decide)
  obtain ⟨_, _, _, _, htrip⟩ := failure_escapes_iff strayFiles [] ["validate", "trip.yml"] false
  obtain ⟨_, htripped⟩ := htrip ⟨⟨.here, ["trip.yml"]⟩, false⟩ (by decide)
  obtain ⟨_, _, _, _, hhalf⟩ := failure_escapes_iff strayFiles [] ["validate", "half.yml"] false
  obtain ⟨_, hhalved⟩ := hhalf ⟨⟨.here, ["half.yml"]⟩, false⟩ (by decide)
  refine ⟨?_, ?_, ?_⟩
  · exact (hgenerated _).mpr (.inl (.manifestBytes rfl rfl (by decide)))
  · have hread : (strayFiles.look [] ⟨.here, ["trip.yml"]⟩).text =
        .ok "context: 2001-13-01\n" := by
      decide +kernel
    exact (htripped _).mpr (.value hread
      (Context.grammar_silent_iff.mp ⟨by decide +kernel, rfl⟩))
  · have hread : (strayFiles.look [] ⟨.here, ["half.yml"]⟩).text = .ok halfContext := by
      decide +kernel
    have hgrammar : Context.grammar (some "half.yml") halfContext = .ok halfGrammar :=
      Stepwise.toOption_eq_some_iff.mp (by decide +kernel)
    have hlint : halfGrammar.lint = [] ++ .repeatedPhrase "Go" "\uffff\ue000" :: [] := by decide
    exact (hhalved _).mpr (.warning hread hgrammar hlint (by simp) (by decide))

end Stray

end Command

end VoiceIntents
