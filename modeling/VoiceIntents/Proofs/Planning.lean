import VoiceIntents.Command.Plan
import VoiceIntents.Proofs.FileText

/-!
# What a plan works with

A generation first finds its manifest and its context and compiles it. Either there is a job to
deliver, and the plan delivers it, or the command stops, and there are five ways to stop.
-/

namespace VoiceIntents.Command

section Output
variable {found : Look} {output context : Path} {text : String} {t : Transcript}

theorem currentText_eq_some_iff : currentText found = .ok (some text) ↔ found.text = .ok text := by
  unfold currentText
  cases found with
  | error e =>
      cases hmeans : e.meansAbsent <;> simp [Look.isThere, Look.text, hmeans]
  | ok entry =>
      cases hread : Look.text (.ok entry) with
      | ok current => simp [Look.isThere]
      | error e => cases e <;> simp [Look.isThere]

/-- A check that succeeds has read the text that it wants. -/
theorem checkOutput_exit_zero_iff :
    (checkOutput found output context text t).ending = .exit 0 ↔ found.text = .ok text := by
  rw [← currentText_eq_some_iff, checkOutput]
  cases hcurrent : currentText found with
  | error cause => simp [Transcript.escape]
  | ok current =>
      by_cases hsame : current = some text
      · simp [hsame, Transcript.exit]
      · simp [hsame, Transcript.exit]

theorem checkOutput_of_text (h : found.text = .ok text) :
    checkOutput found output context text t =
      (t.line (output.toText ++ " is up to date")).exit 0 := by
  rw [checkOutput, currentText_eq_some_iff.mpr h]
  exact if_pos rfl

theorem saveOutput_of_text {current : String} (h : found.text = .ok current) :
    saveOutput found output text t =
      if current = text then .finish ((t.line ("Unchanged: " ++ output.toText)).exit 0)
      else .save output text t := by
  rw [saveOutput, currentText_eq_some_iff.mpr h]
  simp

theorem readContext_eq_ok_iff :
    readContext context found t = .ok text ↔ found.text = .ok text := by
  unfold readContext
  cases found.text with
  | ok read => simp
  | error e => cases hreport : e.report? context <;> simp [hreport]

end Output

section Look
variable (look : Path → Look) (here : Path)

/-- The manifest that is named, else the one of the directory if that is a file. -/
def manifestInUse (named : Option Path) : Except FileError (Option Path) :=
  match named with
  | some path => .ok (some path)
  | none => (look (Manifest.candidate here)).isFile.map fun isFile =>
      if isFile then some (Manifest.candidate here) else none

theorem manifestPath_eq (named : Option Path) :
    manifestPath (m := Id) (fun path => pure (look path)) here named =
      pure (manifestInUse look here named) := by
  cases named <;> rfl

/-- What a generation has when there is a module to deliver. -/
structure Job where
  manifestPath : Option Path
  manifest : Manifest
  context : Path
  text : String
  code : String

variable [Host]

/-- A manifest is the one at a path; without a path it is empty. -/
def LoadedFrom (look : Path → Look) (path : Option Path) (manifest : Manifest) : Prop :=
  match path with
  | none => manifest = {}
  | some path => Manifest.load path (look path) = .ok manifest

variable [Listing]

/-- What was told before the context is read. -/
def Transcript.opening (verbose : Bool) (manifestPath : Option Path) : Transcript :=
  match manifestPath with
  | none => {}
  | some path => Transcript.log {} verbose fun _ => [Record.usingManifest path]

namespace Job

/-- A job comes from the options and the files that it reads. -/
structure Of (job : Job) (look : Path → Look) (here : Path) (options : GenerateOptions) : Prop where
  manifest_used : manifestInUse look here options.manifest = .ok job.manifestPath
  manifest_loaded : LoadedFrom look job.manifestPath job.manifest
  context_given : options.context.or job.manifest.context = some job.context
  context_read : (look job.context).text = .ok job.text
  compiled : Context.compile (some job.context.toText) job.manifest.name job.text = .ok job.code

def output (job : Job) (options : GenerateOptions) : Option Path :=
  options.output.or job.manifest.output

/-- The text that is delivered. -/
def content (job : Job) : String := bannered job.manifest.banner job.code

def transcript (job : Job) (verbose : Bool) : Transcript :=
  (Transcript.opening verbose job.manifestPath).log verbose fun _ =>
    Record.ofCompilation job.context.toText job.text

end Job

/-- How a generation ends that has nothing to deliver. -/
inductive Stopped (verbose : Bool) (options : GenerateOptions) : Outcome → Prop
  | manifestLost {e : FileError} (hused : manifestInUse look here options.manifest = .error e) :
      Stopped verbose options (Transcript.escape {} (.file e))
  | manifestFailed {path : Path} {e : ManifestError}
      (hused : manifestInUse look here options.manifest = .ok (some path))
      (hload : Manifest.load path (look path) = .error e) :
      Stopped verbose options (manifestFailure (.opening verbose (some path)) e)
  | contextMissing {path : Option Path} {manifest : Manifest}
      (hused : manifestInUse look here options.manifest = .ok path)
      (hload : LoadedFrom look path manifest) (hnone : options.context.or manifest.context = none) :
      Stopped verbose options
        ((Transcript.opening verbose path).fail
          "No context file given and no [context].path in rhinogen.toml")
  | contextUnread {path : Option Path} {manifest : Manifest} {context : Path} {outcome : Outcome}
      (hused : manifestInUse look here options.manifest = .ok path)
      (hload : LoadedFrom look path manifest)
      (hcontext : options.context.or manifest.context = some context)
      (hread : readContext context (look context) (.opening verbose path) = .error outcome) :
      Stopped verbose options outcome
  | contextFailed {path : Option Path} {manifest : Manifest} {context : Path} {text : String}
      {e : ContextError}
      (hused : manifestInUse look here options.manifest = .ok path)
      (hload : LoadedFrom look path manifest)
      (hcontext : options.context.or manifest.context = some context)
      (hread : (look context).text = .ok text)
      (hcompile : Context.compile (some context.toText) manifest.name text = .error e) :
      Stopped verbose options
        (contextFailure ((Transcript.opening verbose path).log verbose fun _ =>
          Record.ofCompilation context.toText text) e)

variable {look here} {verbose : Bool} {options : GenerateOptions}

theorem generate_some {path : Path}
    (hused : manifestInUse look here options.manifest = .ok (some path)) :
    generate (m := Id) (fun path => pure (look path)) here verbose options =
      match Manifest.load path (look path) with
      | .error e => pure (.finish (manifestFailure (.opening verbose (some path)) e))
      | .ok manifest =>
          generateWith (m := Id) (fun path => pure (look path)) verbose options manifest
            (.opening verbose (some path)) := by
  rw [generate, manifestPath_eq, hused]
  rfl

/-- With a manifest, a generation goes on to its context. -/
theorem generate_of_loaded {path : Option Path} {manifest : Manifest}
    (hused : manifestInUse look here options.manifest = .ok path)
    (hload : LoadedFrom look path manifest) :
    generate (m := Id) (fun path => pure (look path)) here verbose options =
      generateWith (m := Id) (fun path => pure (look path)) verbose options manifest
        (.opening verbose path) := by
  cases path with
  | none =>
      obtain rfl : manifest = {} := hload
      rw [generate, manifestPath_eq, hused]
      rfl
  | some path =>
      have hload : Manifest.load path (look path) = .ok manifest := hload
      rw [generate_some hused, hload]

theorem generateWith_some {manifest : Manifest} {context : Path} {t : Transcript}
    (hcontext : options.context.or manifest.context = some context) :
    generateWith (m := Id) (fun path => pure (look path)) verbose options manifest t =
      match readContext context (look context) t with
      | .error outcome => pure (.finish outcome)
      | .ok text =>
          let t := t.log verbose fun _ => Record.ofCompilation context.toText text
          match Context.compile (some context.toText) manifest.name text with
          | .error e => pure (.finish (contextFailure t e))
          | .ok code =>
              deliver (m := Id) (fun path => pure (look path)) options.check
                (options.output.or manifest.output) context (bannered manifest.banner code) t := by
  rw [generateWith, hcontext]
  rfl

/-- A job is delivered. -/
theorem generate_of_job {job : Job} (h : job.Of look here options) :
    generate (m := Id) (fun path => pure (look path)) here verbose options =
      deliver (m := Id) (fun path => pure (look path)) options.check (job.output options)
        job.context job.content (job.transcript verbose) := by
  rw [generate_of_loaded h.manifest_used h.manifest_loaded, generateWith_some h.context_given,
    readContext_eq_ok_iff.mpr h.context_read]
  simp only [h.compiled]
  rfl

theorem Stopped.generate_eq {outcome : Outcome} (h : Stopped look here verbose options outcome) :
    generate (m := Id) (fun path => pure (look path)) here verbose options =
      pure (.finish outcome) := by
  cases h with
  | manifestLost hused =>
      rw [generate, manifestPath_eq, hused]
      rfl
  | manifestFailed hused hload => rw [generate_some hused, hload]
  | contextMissing hused hload hnone =>
      rw [generate_of_loaded hused hload, generateWith, hnone]
  | contextUnread hused hload hcontext hread =>
      rw [generate_of_loaded hused hload, generateWith_some hcontext, hread]
  | contextFailed hused hload hcontext hread hcompile =>
      rw [generate_of_loaded hused hload, generateWith_some hcontext,
        readContext_eq_ok_iff.mpr hread]
      simp only [hcompile]

/-- There is a job to deliver, or the command stops. -/
theorem job_or_stopped (look : Path → Look) (here : Path) (verbose : Bool)
    (options : GenerateOptions) :
    (∃ job : Job, job.Of look here options) ∨
      ∃ outcome, Stopped look here verbose options outcome := by
  cases hused : manifestInUse look here options.manifest with
  | error e => exact .inr ⟨_, .manifestLost hused⟩
  | ok path =>
      have hloads : (∃ manifest, LoadedFrom look path manifest) ∨
          ∃ outcome, Stopped look here verbose options outcome := by
        cases path with
        | none => exact .inl ⟨{}, rfl⟩
        | some path =>
            cases hload : Manifest.load path (look path) with
            | ok manifest => exact .inl ⟨manifest, hload⟩
            | error e => exact .inr ⟨_, .manifestFailed hused hload⟩
      rcases hloads with ⟨manifest, hload⟩ | hstopped
      · cases hcontext : options.context.or manifest.context with
        | none => exact .inr ⟨_, .contextMissing hused hload hcontext⟩
        | some context =>
            cases hread : readContext context (look context) (.opening verbose path) with
            | error outcome => exact .inr ⟨_, .contextUnread hused hload hcontext hread⟩
            | ok text =>
                rw [readContext_eq_ok_iff] at hread
                cases hcompile : Context.compile (some context.toText) manifest.name text with
                | error e => exact .inr ⟨_, .contextFailed hused hload hcontext hread hcompile⟩
                | ok code =>
                    exact .inl ⟨⟨path, manifest, context, text, code⟩, hused, hload, hcontext,
                      hread, hcompile⟩
      · exact .inr hstopped

end Look

/-- A run makes the plan of its request over the tree and carries it out. -/
theorem run_generate [Host] [Listing] {files : FileTree} {directory : Place}
    {words : List String} {verbose : Bool} {options : GenerateOptions}
    (hwords : Request.ofWords words = .generate verbose options) :
    run files directory words =
      (Id.run (generate (m := Id) (fun path => pure (files.look directory path)) (pathOf directory)
        verbose options)).perform files directory := by
  rw [run, hwords]
  rfl

end VoiceIntents.Command
