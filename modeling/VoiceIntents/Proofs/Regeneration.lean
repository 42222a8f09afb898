import VoiceIntents.Proofs.FileTrees
import VoiceIntents.Proofs.IntentNames
import VoiceIntents.Proofs.Interface
import VoiceIntents.Proofs.SetListings

/-!
# Generating again

After a generation that wrote its output, the same job is there to do: nothing that it reads was
changed. A check then finds the output up to date, and a second generation leaves all as it is,
if and only if the text of the module is made and read back as it was written. It is read back so
if neither the path of the context nor the name of the project has a carriage return, and it is
made so if the later run reads the same interface, however it lists the members of sets.
-/

namespace VoiceIntents

theorem Grammar.source_of_ofValue {source : Option String} {document : Value} {g : Grammar}
    (h : Grammar.ofValue source document = .ok g) : g.source = source := by
  obtain ⟨o, _, _, rfl⟩ := Grammar.ofValue_eq_ok_iff.mp h
  rfl

namespace Command

section Run
variable [Host] [Listing] {files after : FileTree} {directory : Place} {words : List String}
  {verbose : Bool} {options : GenerateOptions} {job : Job} {output : Path}

/-- A command that stops has not succeeded. -/
theorem Stopped.ending_ne {look : Path → Look} {here : Path} {outcome : Outcome}
    (h : Stopped look here verbose options outcome) : outcome.ending ≠ .exit 0 := by
  cases h with
  | manifestLost => simp [Transcript.escape]
  | @manifestFailed path e =>
      cases e <;> simp [manifestFailure, Transcript.escape, Transcript.fail, Transcript.exit]
  | contextMissing => simp [Transcript.fail, Transcript.exit]
  | @contextUnread _ _ context _ _ _ _ hread =>
      unfold readContext at hread
      split at hread
      · cases hread
      · split at hread
        · cases hread
          simp [Transcript.fail, Transcript.exit]
        · cases hread
          simp [Transcript.escape]
  | @contextFailed _ _ _ _ e =>
      unfold contextFailure
      split <;> simp [Transcript.escape, Transcript.fail, Transcript.exit]

theorem exists_job_of_done (hwords : Request.ofWords words = .generate verbose options)
    (hdone : (run files directory words).1.ending = .exit 0) :
    ∃ job : Job, job.Of (files.look directory) (pathOf directory) options := by
  rcases job_or_stopped (files.look directory) (pathOf directory) verbose options with
    hjob | ⟨outcome, hstopped⟩
  · exact hjob
  · rw [run_generate hwords, hstopped.generate_eq] at hdone
    exact absurd hdone hstopped.ending_ne

/-- What a run does that has a job and no check to make. -/
theorem run_of_job (hwords : Request.ofWords words = .generate verbose options)
    (hcheck : options.check = false)
    (hjob : job.Of (files.look directory) (pathOf directory) options)
    (houtput : job.output options = some output) :
    run files directory words =
      (saveOutput (files.look directory output) output job.content
        (job.transcript verbose)).perform files directory := by
  rw [run_generate hwords, generate_of_job hjob, hcheck, houtput]
  rfl

/-- Options that ask for a check have the same job. -/
theorem Job.Of.checked {look : Path → Look} {here : Path}
    (hjob : job.Of look here options) : job.Of look here { options with check := true } :=
  ⟨hjob.manifest_used, hjob.manifest_loaded, hjob.context_given, hjob.context_read, hjob.compiled⟩

theorem run_check_of_job
    (hwords : Request.ofWords words = .generate verbose { options with check := true })
    (hjob : job.Of (files.look directory) (pathOf directory) options)
    (houtput : job.output options = some output) :
    run files directory words =
      (checkOutput (files.look directory output) output job.context job.content
        (job.transcript verbose), files) := by
  have houtput' : job.output { options with check := true } = some output := houtput
  rw [run_generate hwords, generate_of_job hjob.checked, houtput']
  rfl

/-- The output of a run that succeeded: it was there, or it is saved. -/
theorem written_of_done (hwords : Request.ofWords words = .generate verbose options)
    (hcheck : options.check = false)
    (hjob : job.Of (files.look directory) (pathOf directory) options)
    (houtput : job.output options = some output)
    (hdone : (run files directory words).1.ending = .exit 0) :
    ((files.look directory output).text = .ok job.content ∧ (run files directory words).2 = files) ∨
      files.save directory output (Text.Utf8.encode job.content) =
        (.ok (), (run files directory words).2) := by
  rw [run_of_job hwords hcheck hjob houtput] at hdone ⊢
  unfold saveOutput at hdone ⊢
  cases hcurrent : currentText (files.look directory output) with
  | error cause => simp [hcurrent, Plan.perform, Transcript.escape] at hdone
  | ok current =>
      by_cases hsame : current = some job.content
      · left
        rw [hsame] at hcurrent
        refine ⟨currentText_eq_some_iff.mp hcurrent, ?_⟩
        simp [hsame, Plan.perform]
      · right
        simp only [hcurrent, hsame, if_false, Plan.perform] at hdone ⊢
        cases hsave : files.save directory output (Text.Utf8.encode job.content) with
        | mk result saved =>
            cases result with
            | error e => simp [hsave, Transcript.escape] at hdone
            | ok done => rfl

end Run

/-- An output apart from all that a job reads: the manifest that the directory may have, the
manifest in use and the context. -/
structure Job.Apart (job : Job) (files : FileTree) (directory place : Place) : Prop where
  candidate : place ≠ directory ++ [Manifest.fileName]
  manifest : ∀ path, job.manifestPath = some path → files.locate directory path ≠ .ok place
  context : files.locate directory job.context ≠ .ok place

section Saved
variable {files after : FileTree} {directory place : Place} {data : List UInt8}
  {options : GenerateOptions} {job : Job}

/-- A save elsewhere neither brings nor takes the manifest of a directory. -/
theorem isFile_candidate (hdirectory : files.HasDirectory directory)
    (hsaved : FileTree.Saved place data files after)
    (hplace : place ≠ directory ++ [Manifest.fileName]) :
    (after.look directory (Manifest.candidate (pathOf directory))).isFile =
      (files.look directory (Manifest.candidate (pathOf directory))).isFile := by
  change (after.look directory ⟨.root, directory ++ [Manifest.fileName]⟩).isFile =
    (files.look directory ⟨.root, directory ++ [Manifest.fileName]⟩).isFile
  cases hrefusal : FileTree.refusal? ⟨.root, directory ++ [Manifest.fileName]⟩ with
  | some e =>
      have herror (t : FileTree) :
          t.locate directory ⟨.root, directory ++ [Manifest.fileName]⟩ = .error e := by
        rw [FileTree.locate, hrefusal]
      rw [FileTree.look_of_locate_error (herror after),
        FileTree.look_of_locate_error (herror files)]
  | none =>
      have hbefore := hdirectory.locate_child directory (by decide) (by decide) hrefusal
      have hafter := (hdirectory.stays hsaved.directoriesStay).locate_child directory (by decide)
        (by decide) hrefusal
      rw [FileTree.look_of_locate hafter, FileTree.look_of_locate hbefore]
      rcases hsaved.grows _ (Ne.symm hplace) with hsame | ⟨hnone, hmade⟩
      · rw [hsame]
      · rw [hnone, hmade]
        rfl

/-- What has a text is a file, and a save elsewhere leaves it. -/
theorem text_of_saved {path : Path} {text : String} (hsaved : FileTree.Saved place data files after)
    (hapart : after.locate directory path ≠ .ok place)
    (hread : (files.look directory path).text = .ok text) :
    after.look directory path = files.look directory path := by
  cases hlook : files.look directory path with
  | error e => simp [hlook, Look.text] at hread
  | ok entry => exact hsaved.look hlook hapart

/-- A manifest that is loaded has a text. -/
theorem exists_text_of_load [Host] {path : Path} {found : Look} {manifest : Manifest}
    (h : Manifest.load path found = .ok manifest) : ∃ text, found.text = .ok text := by
  unfold Manifest.load at h
  split at h
  · next text htext => exact ⟨text, htext⟩
  · cases h
  · cases h
  · cases h

/-- After a save elsewhere the same job is there to do. -/
theorem Job.Of.of_saved [Host] [Listing]
    (hjob : job.Of (files.look directory) (pathOf directory) options)
    (hdirectory : files.HasDirectory directory) (hsaved : FileTree.Saved place data files after)
    (hapart : job.Apart after directory place) :
    job.Of (after.look directory) (pathOf directory) options where
  manifest_used := by
    have hused := hjob.manifest_used
    unfold manifestInUse at hused ⊢
    cases hnamed : options.manifest with
    | some path => simpa [hnamed] using hused
    | none =>
        simp only [hnamed] at hused ⊢
        rw [isFile_candidate hdirectory hsaved hapart.candidate, hused]
  manifest_loaded := by
    have hloaded := hjob.manifest_loaded
    cases hpath : job.manifestPath with
    | none => simpa [LoadedFrom, hpath] using hloaded
    | some path =>
        simp only [LoadedFrom, hpath] at hloaded ⊢
        obtain ⟨text, htext⟩ := exists_text_of_load hloaded
        rw [text_of_saved hsaved (hapart.manifest path hpath) htext]
        exact hloaded
  context_given := hjob.context_given
  context_read := by
    rw [text_of_saved hsaved hapart.context hjob.context_read]
    exact hjob.context_read
  compiled := hjob.compiled

end Saved

/-- Neither name in the heading of the module has a carriage return. -/
def Job.Plain (job : Job) : Prop :=
  '\r' ∉ job.context.toText.toList ∧ ∀ name, job.manifest.name = some name → '\r' ∉ name.toList

/-- The text of a job is read back as it was written if its names are plain. -/
theorem Job.universalLines_content_iff [Host] [Listing] {job : Job} {look : Path → Look}
    {here : Path} {options : GenerateOptions} (hjob : job.Of look here options) :
    Text.universalLines job.content = job.content ↔ job.Plain := by
  obtain ⟨g, hgrammar, hcode⟩ := Stepwise.bind_eq_ok_iff.mp hjob.compiled
  obtain ⟨d, _, hvalue⟩ := Context.grammar_eq_ok_iff.mp hgrammar
  have hsource : g.source = some job.context.toText := Grammar.source_of_ofValue hvalue
  rw [Text.universalLines_eq_self_iff, Job.content, ← Except.ok.inj hcode,
    TypedModule.stray_mem_content_iff (by decide) (Grammar.wellFormed_of_ofValue hvalue), hsource,
    Plain]
  simp

end Command

/-- Runs that list sets in two ways read one interface of a text. -/
def Context.SameInterface [Host] (first second : Listing) (source : Option String)
    (text : String) : Prop :=
  ∃ g g', @Context.grammar _ first source text = .ok g ∧
    @Context.grammar _ second source text = .ok g' ∧
    g.slots = g'.slots ∧ g.intents.map Intent.signature = g'.intents.map Intent.signature

/-- Where sets are listed alike, so are interfaces. -/
theorem Context.SameInterface.of_alike [Host] {first second : Listing} {source : Option String}
    {text : String} {d : Yaml.Document} {g : Grammar}
    (hgrammar : @Context.grammar _ first source text = .ok g)
    (hload : Context.load source text = .ok d) (h : d.ListedAlike) :
    Context.SameInterface first second source text :=
  ⟨g, g, hgrammar, Context.grammar_alike first second hload h ▸ hgrammar, rfl, rfl⟩

/-- The interface is the same if and only if the text of the module is. -/
theorem Context.sameInterface_iff [Host] {first second : Listing} {source project : Option String}
    {text code : String} (hcompile : @Context.compile _ first source project text = .ok code) :
    Context.SameInterface first second source text ↔
      @Context.compile _ second source project text = .ok code := by
  obtain ⟨g, hgrammar, hcode⟩ := Stepwise.bind_eq_ok_iff.mp hcompile
  obtain ⟨_, _, hvalue⟩ := (@Context.grammar_eq_ok_iff _ first _ _ _).mp hgrammar
  constructor
  · rintro ⟨h, g', hfirst, hsecond, hslots, hintents⟩
    obtain rfl : g = h := Except.ok.inj (hgrammar.symm.trans hfirst)
    obtain ⟨_, _, hvalue'⟩ := (@Context.grammar_eq_ok_iff _ second _ _ _).mp hsecond
    have hsource : g.source = g'.source :=
      (Grammar.source_of_ofValue hvalue).trans (Grammar.source_of_ofValue hvalue').symm
    rw [toModule_of_interface project hsource hslots hintents] at hcode
    exact Stepwise.bind_eq_ok_iff.mpr ⟨g', hsecond, hcode⟩
  · intro hsecond
    obtain ⟨g', hgrammar', hcode'⟩ := Stepwise.bind_eq_ok_iff.mp hsecond
    obtain ⟨_, _, hvalue'⟩ := (@Context.grammar_eq_ok_iff _ second _ _ _).mp hgrammar'
    have hrender : (g.toModule project).render = (g'.toModule project).render :=
      Except.ok.inj (hcode.trans hcode'.symm)
    exact ⟨g, g', hgrammar, hgrammar', interface_of_render (Grammar.wellFormed_of_ofValue hvalue)
      (Grammar.wellFormed_of_ofValue hvalue') hrender⟩

namespace Command

/-- What is read of the output after a generation that succeeded. -/
theorem text_of_output {files after : FileTree} {directory place : Place} {output : Path}
    {text : String} (hlocate : after.locate directory output = .ok place)
    (hsaved : FileTree.Saved place (Text.Utf8.encode text) files after) :
    (after.look directory output).text = .ok (Text.universalLines text) := by
  rw [FileTree.look_of_locate hlocate, hsaved.written]
  exact Look.text_encode text

/-- A text that does not begin with a style keeps its first character. -/
theorem head?_unstyled {text : String} {c : Char} (hc : c ≠ '\x1b')
    (h : text.toList.head? = some c) : (Text.unstyled text).toList.head? = some c := by
  obtain ⟨rest, hrest⟩ := List.head?_eq_some_iff.mp h
  have hstyle : Text.styleLength? (c :: rest) = none := by
    unfold Text.styleLength?
    split
    · next heq => exact absurd (List.cons.inj heq).1 hc
    · rfl
  rw [Text.unstyled, String.toList_ofList, hrest, Text.dropStyles]
  simp [hstyle]

theorem line_unchanged_ne (t : Transcript) (a b : String) :
    t.line ("Unchanged: " ++ a) ≠ t.line ("Generated: " ++ b) := by
  intro h
  have houtput := congrArg Transcript.output h
  simp only [Transcript.line, Transcript.echo] at houtput
  have htext := congrArg (fun text => text.toList.head?) (String.append_right_inj _ |>.mp houtput)
  rw [head?_unstyled (c := 'U') (by decide), head?_unstyled (c := 'G') (by decide)] at htext
  · exact absurd htext (by decide)
  · simp only [String.toList_append, List.append_assoc]
    rfl
  · simp only [String.toList_append, List.append_assoc]
    rfl

/-- A generation over an output that reads `current` reports it unchanged if that is its text. -/
theorem perform_saveOutput_iff {files : FileTree} {directory : Place} {found : Look} {output : Path}
    {current text : String} {t : Transcript} (hread : found.text = .ok current) :
    (saveOutput found output text t).perform files directory =
        ((t.line ("Unchanged: " ++ output.toText)).exit 0, files) ↔ current = text := by
  rw [saveOutput_of_text hread]
  constructor
  · intro h
    by_contra hother
    rw [if_neg hother, Plan.perform] at h
    split at h
    · exact line_unchanged_ne t _ _ (congrArg (fun run => run.1.transcript) h).symm
    · exact absurd (congrArg (fun run => run.1.ending) h)
        (by simp [Transcript.escape, Transcript.exit])
  · intro hsame
    rw [if_pos hsame]
    rfl

section Later
variable {directory : Place} {words checkWords : List String} {verbose verboseCheck : Bool}
  {options : GenerateOptions} {job : Job} {output : Path} {after : FileTree} {current : String}

/-- A run that lists sets in another way has the same job, but for its code. -/
theorem Job.Of.relisted [Host] {first second : Listing} {look : Path → Look} {here : Path}
    {code : String} (hjob : @Job.Of _ first job look here options)
    (hcompile : @Context.compile _ second (some job.context.toText) job.manifest.name job.text =
      .ok code) : @Job.Of _ second { job with code } look here options := by
  obtain ⟨hused, hloaded, hgiven, hread, _⟩ := hjob
  exact ⟨hused, hloaded, hgiven, hread, hcompile⟩

/-- Over an output that reads `current`, a check and a generation find the text of their job. -/
theorem later_runs_iff [Host] [Listing]
    (hwords : Request.ofWords words = .generate verbose options) (hwrites : options.check = false)
    (hcheckWords : Request.ofWords checkWords =
      .generate verboseCheck { options with check := true })
    (hjob : job.Of (after.look directory) (pathOf directory) options)
    (houtput : job.output options = some output)
    (hread : (after.look directory output).text = .ok current) :
    (run after directory checkWords =
      (((job.transcript verboseCheck).line (output.toText ++ " is up to date")).exit 0, after) ↔
        current = job.content) ∧
    (run after directory words =
      (((job.transcript verbose).line ("Unchanged: " ++ output.toText)).exit 0, after) ↔
        current = job.content) := by
  rw [run_check_of_job hcheckWords hjob houtput, run_of_job hwords hwrites hjob houtput,
    perform_saveOutput_iff hread]
  refine ⟨?_, Iff.rfl⟩
  constructor
  · intro hchecked
    have hending := congrArg (fun run => run.1.ending) hchecked
    exact Except.ok.inj (hread.symm.trans (checkOutput_exit_zero_iff.mp hending))
  · intro hsame
    rw [checkOutput_of_text (hsame ▸ hread)]

/-- A run whose context is not compiled does not succeed. -/
theorem ending_ne_of_uncompiled [Host] {first second : Listing} {e : ContextError}
    (hwords : Request.ofWords words = .generate verbose options)
    (hjob : @Job.Of _ first job (after.look directory) (pathOf directory) options)
    (hcompile : @Context.compile _ second (some job.context.toText) job.manifest.name job.text =
      .error e) :
    (@run _ second after directory words).1.ending ≠ .exit 0 := by
  obtain ⟨hused, hloaded, hgiven, hread, _⟩ := hjob
  have hstopped := @Stopped.contextFailed (after.look directory) (pathOf directory) _ second verbose
    options _ _ _ _ _ hused hloaded hgiven hread hcompile
  rw [@run_generate _ second _ _ _ _ _ hwords, @Stopped.generate_eq _ _ _ second _ _ _ hstopped]
  exact @Stopped.ending_ne _ second _ _ _ _ _ hstopped

theorem bannered_injective (wanted : Bool) : Function.Injective (bannered wanted) := by
  cases wanted with
  | false => exact fun _ _ h => h
  | true => exact fun _ _ h => String.append_right_inj _ |>.mp h

/-- The text of a module is found again by a run that makes it from other code if the names are
plain and the code is the same. -/
theorem content_found_iff [Host] {first second : Listing} {code : String} {look : Path → Look}
    {here : Path} (hjob : @Job.Of _ first job look here options)
    (hother : @Job.Of _ second { job with code } look here options) :
    Text.universalLines job.content = Job.content { job with code } ↔
      job.Plain ∧ code = job.code := by
  constructor
  · intro hfound
    have hplain : job.Plain := by
      have hstays : Text.universalLines (Job.content { job with code }) =
          Job.content { job with code } := by
        rw [← hfound, Text.universalLines_eq_self_iff, Text.universalLines, String.toList_ofList]
        exact Text.return_not_mem_joinLines _
      exact (@Job.universalLines_content_iff _ second _ _ _ _ hother).mp hstays
    rw [(@Job.universalLines_content_iff _ first _ _ _ _ hjob).mpr hplain] at hfound
    exact ⟨hplain, (bannered_injective _ hfound).symm⟩
  · rintro ⟨hplain, rfl⟩
    exact (@Job.universalLines_content_iff _ first _ _ _ _ hjob).mpr hplain

end Later

/-- After a generation that succeeded, a check of its output succeeds and a second generation
reports it unchanged and leaves every file, if and only if the path of the context and the name
of the project have no carriage return and the later run reads the same interface; as long as the
output is none of the files that are read. The interface is the same wherever sets have one order:
where none of two members or more has one that is not a number. -/
theorem regenerated_iff [Host] (first second : Listing) (files : FileTree) (directory : Place)
    (words checkWords : List String) (verbose verboseCheck : Bool) (options : GenerateOptions)
    (hdirectory : files.HasDirectory directory)
    (hwords : Request.ofWords words = .generate verbose options) (hwrites : options.check = false)
    (hcheckWords : Request.ofWords checkWords =
      .generate verboseCheck { options with check := true })
    (hdone : (@run _ first files directory words).1.ending = .exit 0) :
    ∃ job : Job, @Job.Of _ first job (files.look directory) (pathOf directory) options ∧
      (∀ d, Context.load (some job.context.toText) job.text = .ok d → d.ListedAlike →
        Context.SameInterface first second (some job.context.toText) job.text) ∧
      ∀ output, job.output options = some output →
        ∃ place, (@run _ first files directory words).2.locate directory output = .ok place ∧
          (job.Apart (@run _ first files directory words).2 directory place →
            (@run _ second (@run _ first files directory words).2 directory checkWords =
                (((@Job.transcript _ second job verboseCheck).line
                    (output.toText ++ " is up to date")).exit 0,
                  (@run _ first files directory words).2) ↔
              job.Plain ∧
                Context.SameInterface first second (some job.context.toText) job.text) ∧
            (@run _ second (@run _ first files directory words).2 directory words =
                (((@Job.transcript _ second job verbose).line
                    ("Unchanged: " ++ output.toText)).exit 0,
                  (@run _ first files directory words).2) ↔
              job.Plain ∧
                Context.SameInterface first second (some job.context.toText) job.text)) := by
  obtain ⟨job, hjob⟩ := @exists_job_of_done _ first _ _ _ _ _ hwords hdone
  refine ⟨job, hjob, ?_, ?_⟩
  · intro d hload halike
    obtain ⟨g, hgrammar, _⟩ := Stepwise.bind_eq_ok_iff.mp (@Job.Of.compiled _ first _ _ _ _ hjob)
    exact .of_alike hgrammar hload halike
  intro output houtput
  have hwritten := @written_of_done _ first _ _ _ _ _ _ _ hwords hwrites hjob houtput hdone
  generalize (@run _ first files directory words).2 = after at hwritten ⊢
  -- What the next run meets: the place of the output, its text, and the same job.
  have hnext : ∃ place, after.locate directory output = .ok place ∧
      (after.look directory output).text = .ok (Text.universalLines job.content) ∧
      (job.Apart after directory place →
        @Job.Of _ first job (after.look directory) (pathOf directory) options) := by
    rcases hwritten with ⟨hread, rfl⟩ | hsave
    · cases hlook : after.look directory output with
      | error e => simp [hlook, Look.text] at hread
      | ok entry =>
          obtain ⟨place, hlocate, _⟩ := FileTree.look_eq_ok_iff.mp hlook
          refine ⟨place, hlocate, ?_, fun _ => hjob⟩
          rw [← hlook, hread, Text.universalLines_eq_self_iff.mpr (Look.return_not_mem_text hread)]
    · obtain ⟨place, hlocate, hsaved⟩ := FileTree.save_eq_ok hsave
      exact ⟨place, hlocate, text_of_output hlocate hsaved,
        fun hapart => @Job.Of.of_saved _ _ _ _ _ _ _ _ first hjob hdirectory hsaved hapart⟩
  obtain ⟨place, hlocate, hread, hagain⟩ := hnext
  refine ⟨place, hlocate, fun hapart => ?_⟩
  have hjob' := hagain hapart
  rw [Context.sameInterface_iff (@Job.Of.compiled _ first _ _ _ _ hjob')]
  cases hcompile :
      @Context.compile _ second (some job.context.toText) job.manifest.name job.text with
  | error e =>
      have hfails {words verbose options t}
          (hwords : Request.ofWords words = .generate verbose options)
          (hjob : @Job.Of _ first job (after.look directory) (pathOf directory) options) :
          @run _ second after directory words ≠ (Transcript.exit t 0, after) := fun hsucceeds =>
        ending_ne_of_uncompiled hwords hjob hcompile (congrArg (fun run => run.1.ending) hsucceeds)
      simp [hfails hwords hjob', hfails hcheckWords (@Job.Of.checked _ first _ _ _ _ hjob')]
  | ok code =>
      have hother := Job.Of.relisted hjob' hcompile
      have hruns := @later_runs_iff _ _ _ _ _ _ _ _ _ _ _ second hwords hwrites hcheckWords hother
        houtput hread
      rw [content_found_iff hjob' hother] at hruns
      rw [Except.ok.injEq]
      exact hruns

/-- A context in the working directory, and a manifest with a name for the project. -/
def projectFiles (context name : String) : FileTree :=
  ⟨[(["trip.yml"], .file (Text.Utf8.encode context)),
    (["rhinogen.toml"], .file (Text.Utf8.encode ("[project]\nname = \"" ++ name ++ "\"\n")))]⟩

/-- One phrase, without references. -/
def plainTrip : String := "context:\n  expressions:\n    Go: [go]\n"

def tripFiles (name : String) : FileTree := projectFiles plainTrip name

def tripWords : List String := ["generate", "trip.yml", "-o", "out.py"]

/-- A set of two phrases stands for one that binds both variables. -/
def setTrip : String :=
  "context:\n  slots:\n    Room: [hall]\n  expressions:\n    Go: [!!set \x7b'$Room:from', '$Room:to'\x7d]\n"

/-- Sets list their members from the last that was written to the first. -/
@[reducible] def backwards : Listing :=
  ⟨fun _ members => members.reverse, fun _ => List.reverse_perm⟩

section Trips

attribute [local instance] Host.plain Listing.written

/-- The files after the first run, which lists sets as they are written. -/
def tripAfter (context name : String) : FileTree := (run (projectFiles context name) [] tripWords).2

/-- Without sets, the order of their members does not matter. -/
theorem plainTrip_sameInterface :
    Context.SameInterface .written backwards (some "trip.yml") plainTrip := by
  have hgrammar : ∀ listing ∈ [Listing.written, backwards],
      @Context.grammar _ listing (some "trip.yml") plainTrip =
        .ok ⟨[⟨"Go", [], ["go"]⟩], [], some "trip.yml"⟩ := by
    intro listing hlisting
    rcases List.mem_pair.mp hlisting with rfl | rfl <;>
      exact Stepwise.toOption_eq_some_iff.mp (by decide +kernel)
  exact ⟨_, _, hgrammar _ (by simp), hgrammar _ (by simp), rfl, rfl⟩

/-- The variables of a phrase that is a set come in the order of its members. -/
theorem not_setTrip_sameInterface :
    ¬ Context.SameInterface .written backwards (some "trip.yml") setTrip := by
  rintro ⟨g, g', hgrammar, hgrammar', _, hintents⟩
  have hdiffer : (Context.grammar (some "trip.yml") setTrip).toOption.map
      (·.intents.map Intent.signature) ≠
      (@Context.grammar _ backwards (some "trip.yml") setTrip).toOption.map
        (·.intents.map Intent.signature) := by decide +kernel
  rw [hgrammar, hgrammar'] at hdiffer
  exact hdiffer (congrArg some hintents)

/-- Three projects; sets are listed backwards in the later runs. The first is named with a tab, and
its output stays as it is. The name of the second has a carriage return, and its output is never
found up to date. Nor is that of the third, whose context has a set of two texts. -/
theorem trips_regenerated :
    (@run _ backwards (tripAfter plainTrip "a\\tb") [] ("generate" :: "--check" :: tripWords.tail) =
      ((Transcript.line {} "out.py is up to date").exit 0, tripAfter plainTrip "a\\tb")) ∧
    (@run _ backwards (tripAfter plainTrip "a\\tb") [] tripWords =
      ((Transcript.line {} "Unchanged: out.py").exit 0, tripAfter plainTrip "a\\tb")) ∧
    (@run _ backwards (tripAfter plainTrip "a\\rb") [] ("generate" :: "--check" :: tripWords.tail) ≠
      ((Transcript.line {} "out.py is up to date").exit 0, tripAfter plainTrip "a\\rb")) ∧
    (@run _ backwards (tripAfter setTrip "ab") [] ("generate" :: "--check" :: tripWords.tail) ≠
      ((Transcript.line {} "out.py is up to date").exit 0, tripAfter setTrip "ab")) := by
  have hruns (context name project : String)
      (hread : ((projectFiles context name).look [] ⟨.here, ["trip.yml"]⟩).text = .ok context)
      (hdone : (run (projectFiles context name) [] tripWords).1.ending = .exit 0)
      (hload : Manifest.load ⟨.root, ["rhinogen.toml"]⟩
        ((projectFiles context name).look [] ⟨.root, ["rhinogen.toml"]⟩) =
          .ok { name := some project }) :
      (@run _ backwards (tripAfter context name) [] ("generate" :: "--check" :: tripWords.tail) =
        ((Transcript.line {} "out.py is up to date").exit 0, tripAfter context name) ↔
        '\r' ∉ project.toList ∧
          Context.SameInterface .written backwards (some "trip.yml") context) ∧
      (@run _ backwards (tripAfter context name) [] tripWords =
        ((Transcript.line {} "Unchanged: out.py").exit 0, tripAfter context name) ↔
        '\r' ∉ project.toList ∧
          Context.SameInterface .written backwards (some "trip.yml") context) := by
    obtain ⟨job, hjob, _, hall⟩ := regenerated_iff .written backwards (projectFiles context name) []
      tripWords ("generate" :: "--check" :: tripWords.tail) false false
      ⟨some ⟨.here, ["trip.yml"]⟩, some ⟨.here, ["out.py"]⟩, none, false⟩ ⟨rfl, rfl⟩ (by decide) rfl
      (by decide) hdone
    obtain ⟨place, hplace, hiff⟩ := hall ⟨.here, ["out.py"]⟩ rfl
    obtain rfl : ["out.py"] = place := Except.ok.inj hplace
    have hpath : job.manifestPath = some ⟨.root, ["rhinogen.toml"]⟩ :=
      (Except.ok.inj hjob.manifest_used).symm
    have hcontext : job.context = ⟨.here, ["trip.yml"]⟩ := (Option.some.inj hjob.context_given).symm
    have htext : job.text = context := by
      have hjobRead := hjob.context_read
      rw [hcontext, hread] at hjobRead
      exact (Except.ok.inj hjobRead).symm
    have hmanifest : job.manifest = { name := some project } := by
      have hloaded := hjob.manifest_loaded
      simp only [LoadedFrom, hpath] at hloaded
      exact Except.ok.inj (hloaded.symm.trans hload)
    have hplain : job.Plain ↔ '\r' ∉ project.toList := by
      have hshown : '\r' ∉ (Path.toText ⟨.here, ["trip.yml"]⟩).toList := by decide
      rw [Job.Plain, hcontext, hmanifest]
      simp [hshown]
    have hapart : job.Apart (tripAfter context name) [] ["out.py"] := by
      refine ⟨by decide, ?_, ?_⟩
      · intro path hpath'
        obtain rfl : _ = path := Option.some.inj (hpath.symm.trans hpath')
        exact fun h => absurd (Except.ok.inj h) (by decide)
      · rw [hcontext]
        exact fun h => absurd (Except.ok.inj h) (by decide)
    have htranscript : @Job.transcript _ backwards job false = {} := by
      unfold Job.transcript
      rw [hpath]
      rfl
    have hboth := hiff hapart
    rw [htranscript, hplain, hcontext, htext] at hboth
    exact hboth
  obtain ⟨htab, hkept⟩ :=
    hruns plainTrip "a\\tb" "a\tb" (by decide +kernel) (by decide +kernel) (by decide +kernel)
  obtain ⟨hreturn, _⟩ :=
    hruns plainTrip "a\\rb" "a\rb" (by decide +kernel) (by decide +kernel) (by decide +kernel)
  obtain ⟨hset, _⟩ :=
    hruns setTrip "ab" "ab" (by decide +kernel) (by decide +kernel) (by decide +kernel)
  refine ⟨htab.mpr ⟨by decide, plainTrip_sameInterface⟩,
    hkept.mpr ⟨by decide, plainTrip_sameInterface⟩, ?_, ?_⟩
  · exact hreturn.not.mpr fun h => absurd h.1 (by decide)
  · exact hset.not.mpr fun h => not_setTrip_sameInterface h.2

end Trips

end Command

end VoiceIntents
