import VoiceIntents.Proofs.Regeneration
import VoiceIntents.Proofs.Reporting

/-!
# What a command changes

Commands only read, up to the last step of a generation that has found its output missing or
different. That step writes the output and makes directories on the way to it. So every command
that ends otherwise leaves all files as they were, whatever it reports.
-/

namespace VoiceIntents.Command

/-- A command ends well, and what it writes begins with a text. -/
def Outcome.Reports (o : Outcome) (opening : String) : Prop :=
  o.ending = .exit 0 ∧ ∃ rest, o.transcript.output = Text.unstyled (opening ++ rest)

section Opening
variable {o : Outcome} {opening : String} {c : Char}

/-- A report begins with the first character of its text. -/
theorem Outcome.Reports.head? (h : o.Reports opening) (hopening : opening.toList.head? = some c)
    (hc : c ≠ '\x1b') : o.transcript.output.toList.head? = some c := by
  obtain ⟨_, rest, houtput⟩ := h
  rw [houtput]
  apply head?_unstyled hc
  rw [String.toList_append, List.head?_append, hopening]
  rfl

theorem output_log (t : Transcript) (verbose : Bool) (records : Unit → List Record) :
    (t.log verbose records).output = t.output := by
  cases verbose <;> rfl

variable [Host] [Listing]

/-- A job writes nothing to the output before it is delivered. -/
theorem Job.output_transcript (job : Job) (verbose : Bool) :
    (job.transcript verbose).output = "" := by
  rw [Job.transcript, output_log]
  cases job.manifestPath with
  | none => rfl
  | some path => exact output_log _ _ _

theorem Job.output_echo (job : Job) (verbose : Bool) {text : String} :
    (((job.transcript verbose).echo text).exit 0).transcript.output = Text.unstyled text := by
  rw [Transcript.exit, Transcript.echo]
  simp only [job.output_transcript, String.empty_append]

theorem Job.reports_line (job : Job) (verbose : Bool) (opening rest : String) :
    (((job.transcript verbose).line (opening ++ rest)).exit 0).Reports opening := by
  refine ⟨rfl, rest ++ "\n", ?_⟩
  rw [Transcript.line, job.output_echo, String.append_assoc]

/-- What is delivered begins with the banner or with the heading of the module. -/
theorem Job.head?_content {job : Job} {look : Path → Look} {here : Path} {options : GenerateOptions}
    (hjob : job.Of look here options) :
    job.content.toList.head? = some '#' ∨ job.content.toList.head? = some '"' := by
  rw [Job.content, bannered]
  split
  · left
    rw [String.toList_append, List.head?_append]
    rfl
  · right
    obtain ⟨g, _, hcode⟩ := Stepwise.bind_eq_ok_iff.mp hjob.compiled
    obtain ⟨body, hbody, _⟩ := TypedModule.exists_toList_render (g.toModule job.manifest.name)
    rw [← Except.ok.inj hcode, hbody]
    rfl

end Opening

section Ends
variable [Host] [Listing] (files : FileTree) (directory : Place) (verbose : Bool)
  (options : GenerateOptions)

/-- How a generation ends, and the files that it leaves. -/
inductive Ends : Outcome → FileTree → Prop
  | stopped {outcome : Outcome}
      (h : Stopped (files.look directory) (pathOf directory) verbose options outcome) :
      Ends outcome files
  | unnamed {job : Job} (hjob : job.Of (files.look directory) (pathOf directory) options)
      (houtput : job.output options = none) (hcheck : options.check = true) :
      Ends ((job.transcript verbose).fail "--check needs an output file") files
  | printed {job : Job} (hjob : job.Of (files.look directory) (pathOf directory) options)
      (houtput : job.output options = none) (hcheck : options.check = false) :
      Ends (((job.transcript verbose).echo job.content).exit 0) files
  | checked {job : Job} {output : Path}
      (hjob : job.Of (files.look directory) (pathOf directory) options)
      (houtput : job.output options = some output) (hcheck : options.check = true) :
      Ends (checkOutput (files.look directory output) output job.context job.content
        (job.transcript verbose)) files
  | unread {job : Job} {output : Path} {cause : Escape}
      (hjob : job.Of (files.look directory) (pathOf directory) options)
      (houtput : job.output options = some output) (hcheck : options.check = false)
      (hcurrent : currentText (files.look directory output) = .error cause) :
      Ends ((job.transcript verbose).escape cause) files
  | unchanged {job : Job} {output : Path}
      (hjob : job.Of (files.look directory) (pathOf directory) options)
      (houtput : job.output options = some output) (hcheck : options.check = false)
      (htext : (files.look directory output).text = .ok job.content) :
      Ends (((job.transcript verbose).line ("Unchanged: " ++ output.toText)).exit 0) files
  | generated {job : Job} {output : Path} {after : FileTree}
      (hjob : job.Of (files.look directory) (pathOf directory) options)
      (houtput : job.output options = some output) (hcheck : options.check = false)
      (htext : (files.look directory output).text ≠ .ok job.content)
      (hsave : files.save directory output (Text.Utf8.encode job.content) = (.ok (), after)) :
      Ends (((job.transcript verbose).line ("Generated: " ++ output.toText)).exit 0) after
  | unsaved {job : Job} {output : Path} {after : FileTree} {e : FileError}
      (hjob : job.Of (files.look directory) (pathOf directory) options)
      (houtput : job.output options = some output) (hcheck : options.check = false)
      (htext : (files.look directory output).text ≠ .ok job.content)
      (hsave : files.save directory output (Text.Utf8.encode job.content) = (.error e, after)) :
      Ends ((job.transcript verbose).escape (.file e)) after

end Ends

section Run
variable [Host] [Listing] {files after : FileTree} {directory : Place} {words : List String}
  {verbose : Bool} {options : GenerateOptions} {outcome : Outcome}

theorem ends_saveOutput {job : Job} {output : Path}
    (hjob : job.Of (files.look directory) (pathOf directory) options)
    (houtput : job.output options = some output) (hcheck : options.check = false) :
    Ends files directory verbose options
      ((saveOutput (files.look directory output) output job.content
        (job.transcript verbose)).perform files directory).1
      ((saveOutput (files.look directory output) output job.content
        (job.transcript verbose)).perform files directory).2 := by
  rw [saveOutput]
  cases hcurrent : currentText (files.look directory output) with
  | error cause => exact .unread hjob houtput hcheck hcurrent
  | ok current =>
      by_cases hsame : current = some job.content
      · simp only [hsame, if_true, Plan.perform]
        rw [hsame, currentText_eq_some_iff] at hcurrent
        exact .unchanged hjob houtput hcheck hcurrent
      · simp only [hsame, if_false, Plan.perform]
        have htext : (files.look directory output).text ≠ .ok job.content := by
          rw [ne_eq, ← currentText_eq_some_iff, hcurrent]
          exact fun h => hsame (Except.ok.inj h)
        cases hsave : files.save directory output (Text.Utf8.encode job.content) with
        | mk result after =>
            cases result with
            | ok _ => exact .generated hjob houtput hcheck htext hsave
            | error e => exact .unsaved hjob houtput hcheck htext hsave

/-- Every generation ends in one of these ways. -/
theorem run_ends (files : FileTree) (directory : Place)
    (hwords : Request.ofWords words = .generate verbose options) :
    Ends files directory verbose options (run files directory words).1
      (run files directory words).2 := by
  rcases job_or_stopped (files.look directory) (pathOf directory) verbose options with
    ⟨job, hjob⟩ | ⟨outcome, hstopped⟩
  · rw [run_generate hwords, generate_of_job hjob]
    cases houtput : job.output options with
    | none =>
        cases hcheck : options.check with
        | true => exact .unnamed hjob houtput hcheck
        | false => exact .printed hjob houtput hcheck
    | some output =>
        cases hcheck : options.check with
        | true => exact .checked hjob houtput hcheck
        | false => exact ends_saveOutput hjob houtput hcheck
  · rw [run_of_stopped hwords hstopped]
    exact .stopped hstopped

/-- A request other than a generation changes nothing. -/
theorem run_snd_of_not_generate (files : FileTree) (directory : Place)
    (hwords : ∀ verbose options, Request.ofWords words ≠ .generate verbose options) :
    (run files directory words).2 = files := by
  rw [run]
  cases hrequest : Request.ofWords words with
  | usage => rfl
  | help => rfl
  | version => rfl
  | generate verbose options => exact absurd hrequest (hwords verbose options)
  | validate verbose options => rfl

end Run

/-- A text is at an output, and elsewhere nothing is new but directories on the way to it. -/
structure Delivered (files after : FileTree) (directory : Place) (output : Path) (content : String)
    (place : Place) : Prop where
  located : after.locate directory output = .ok place
  written : after.get? place = some (.file (Text.Utf8.encode content))
  free : files.get? place ≠ some .directory
  elsewhere : ∀ other, other ≠ place → after.get? other = files.get? other ∨
    FileTree.Paved directory output.parent files after other

namespace Ends
variable [Host] [Listing] {files after : FileTree} {directory : Place} {verbose : Bool}
  {options : GenerateOptions} {outcome : Outcome}

/-- Files change by a save only, of a generation that is no check and has an output. -/
theorem eq_files_or_saved (h : Ends files directory verbose options outcome after) :
    after = files ∨ ∃ (job : Job) (output : Path),
      job.Of (files.look directory) (pathOf directory) options ∧
      job.output options = some output ∧ options.check = false ∧
      ((files.save directory output (Text.Utf8.encode job.content) = (.ok (), after) ∧
          outcome = ((job.transcript verbose).line ("Generated: " ++ output.toText)).exit 0) ∨
        ∃ e, files.save directory output (Text.Utf8.encode job.content) = (.error e, after) ∧
          outcome = (job.transcript verbose).escape (.file e)) := by
  cases h with
  | stopped _ => exact .inl rfl
  | unnamed _ _ _ => exact .inl rfl
  | printed _ _ _ => exact .inl rfl
  | checked _ _ _ => exact .inl rfl
  | unread _ _ _ _ => exact .inl rfl
  | unchanged _ _ _ _ => exact .inl rfl
  | generated hjob houtput hcheck _ hsave =>
      exact .inr ⟨_, _, hjob, houtput, hcheck, .inl ⟨hsave, rfl⟩⟩
  | unsaved hjob houtput hcheck _ hsave =>
      exact .inr ⟨_, _, hjob, houtput, hcheck, .inr ⟨_, hsave, rfl⟩⟩

theorem eq_files_of_check (h : Ends files directory verbose options outcome after)
    (hcheck : options.check = true) : after = files := by
  rcases h.eq_files_or_saved with hsame | ⟨_, _, _, _, hwrites, _⟩
  · exact hsame
  · rw [hcheck] at hwrites
    cases hwrites

theorem eq_files_of_no_output (h : Ends files directory verbose options outcome after)
    (hnone : ∀ job : Job, job.Of (files.look directory) (pathOf directory) options →
      job.output options = none) : after = files := by
  rcases h.eq_files_or_saved with hsame | ⟨job, output, hjob, houtput, _, _⟩
  · exact hsame
  · rw [hnone job hjob] at houtput
    cases houtput

theorem eq_files_of_exit_ne_zero (h : Ends files directory verbose options outcome after)
    {code : Nat} (hexit : outcome.ending = .exit code) (hcode : code ≠ 0) : after = files := by
  rcases h.eq_files_or_saved with hsame | ⟨job, output, _, _, _, ⟨_, rfl⟩ | ⟨e, _, rfl⟩⟩
  · exact hsame
  · exact absurd (Ending.exit.inj hexit).symm hcode
  · cases hexit

theorem eq_files_of_unchanged (h : Ends files directory verbose options outcome after)
    (hreport : outcome.Reports "Unchanged: ") : after = files := by
  rcases h.eq_files_or_saved with hsame | ⟨job, output, _, _, _, ⟨_, rfl⟩ | ⟨e, _, rfl⟩⟩
  · exact hsame
  · have hunchanged := hreport.head? (c := 'U') rfl (by decide)
    have hgenerated :=
      (job.reports_line verbose "Generated: " output.toText).head? (c := 'G') rfl (by decide)
    exact absurd (hunchanged.symm.trans hgenerated) (by decide)
  · cases hreport.1

/-- A failure that nothing reports leaves directories on the way to an output at most. -/
theorem paves_of_escaped (h : Ends files directory verbose options outcome after) {cause : Escape}
    (hescaped : outcome.ending = .escaped cause) :
    after = files ∨ ∃ (job : Job) (output : Path),
      job.Of (files.look directory) (pathOf directory) options ∧
      job.output options = some output ∧
      FileTree.Paves directory output.parent files after := by
  rcases h.eq_files_or_saved with hsame | ⟨job, output, hjob, houtput, _, ⟨_, rfl⟩ | ⟨e, hsave, _⟩⟩
  · exact .inl hsame
  · cases hescaped
  · exact .inr ⟨job, output, hjob, houtput, FileTree.save_eq_error hsave⟩

/-- A generation that succeeds and is no check prints its module, finds it or saves it. -/
theorem done_cases (h : Ends files directory verbose options outcome after)
    (hcheck : options.check = false) (hdone : outcome.ending = .exit 0) :
    (∃ job : Job, job.Of (files.look directory) (pathOf directory) options ∧
      job.output options = none ∧
      outcome = ((job.transcript verbose).echo job.content).exit 0) ∨
    (∃ (job : Job) (output : Path),
      outcome = ((job.transcript verbose).line ("Unchanged: " ++ output.toText)).exit 0) ∨
    ∃ (job : Job) (output : Path), job.Of (files.look directory) (pathOf directory) options ∧
      job.output options = some output ∧
      outcome = ((job.transcript verbose).line ("Generated: " ++ output.toText)).exit 0 ∧
      files.save directory output (Text.Utf8.encode job.content) = (.ok (), after) := by
  cases h with
  | stopped hstopped => exact absurd hdone hstopped.ending_ne
  | unnamed _ _ hcheck' =>
      rw [hcheck] at hcheck'
      cases hcheck'
  | printed hjob houtput _ => exact .inl ⟨_, hjob, houtput, rfl⟩
  | checked _ _ hcheck' =>
      rw [hcheck] at hcheck'
      cases hcheck'
  | unread _ _ _ _ => cases hdone
  | unchanged _ _ _ _ => exact .inr (.inl ⟨_, _, rfl⟩)
  | generated hjob houtput _ _ hsave => exact .inr (.inr ⟨_, _, hjob, houtput, rfl, hsave⟩)
  | unsaved _ _ _ _ _ => cases hdone

theorem printed_or_reports (h : Ends files directory verbose options outcome after)
    (hcheck : options.check = false) (hdone : outcome.ending = .exit 0) :
    (∃ job : Job, job.Of (files.look directory) (pathOf directory) options ∧
      job.output options = none ∧ outcome.transcript.output = Text.unstyled job.content) ∨
    outcome.Reports "Unchanged: " ∨ outcome.Reports "Generated: " := by
  rcases h.done_cases hcheck hdone with
    ⟨job, hjob, houtput, rfl⟩ | ⟨job, output, rfl⟩ | ⟨job, output, _, _, rfl, _⟩
  · exact .inl ⟨job, hjob, houtput, job.output_echo verbose⟩
  · exact .inr (.inl (job.reports_line verbose "Unchanged: " output.toText))
  · exact .inr (.inr (job.reports_line verbose "Generated: " output.toText))

/-- Only a save reports that a module is generated. -/
theorem delivered_of_generated (h : Ends files directory verbose options outcome after)
    (hcheck : options.check = false) (hreport : outcome.Reports "Generated: ") :
    ∃ (job : Job) (output : Path) (place : Place),
      job.Of (files.look directory) (pathOf directory) options ∧
      job.output options = some output ∧
      Delivered files after directory output job.content place := by
  have hopening := hreport.head? (c := 'G') rfl (by decide)
  rcases h.done_cases hcheck hreport.1 with
    ⟨job, hjob, _, rfl⟩ | ⟨job, output, rfl⟩ | ⟨job, output, hjob, houtput, _, hsave⟩
  · -- A printed module begins with the banner or with its heading.
    rw [job.output_echo verbose] at hopening
    rcases Job.head?_content hjob with hbanner | hheading
    · rw [head?_unstyled (by decide) hbanner] at hopening
      exact absurd hopening (by decide)
    · rw [head?_unstyled (by decide) hheading] at hopening
      exact absurd hopening (by decide)
  · have hunchanged :=
      (job.reports_line verbose "Unchanged: " output.toText).head? (c := 'U') rfl (by decide)
    exact absurd (hopening.symm.trans hunchanged) (by decide)
  · obtain ⟨place, hlocate, hwritten, hfree, helsewhere⟩ := FileTree.save_eq_ok_paves hsave
    exact ⟨job, output, place, hjob, houtput, hlocate, hwritten, hfree, helsewhere⟩

end Ends

/-- A check succeeds if and only if the output is a file that reads as the module. -/
theorem check_exit_zero_iff [Host] [Listing] {files : FileTree} {directory : Place}
    {words : List String} {verbose : Bool} {options : GenerateOptions}
    (hwords : Request.ofWords words = .generate verbose options) (hcheck : options.check = true) :
    (run files directory words).1.ending = .exit 0 ↔
      ∃ (job : Job) (output : Path) (data : List UInt8),
        job.Of (files.look directory) (pathOf directory) options ∧
        job.output options = some output ∧
        files.look directory output = .ok (.file data) ∧
        Look.text (.ok (.file data)) = .ok job.content := by
  have hrun {job : Job} (hjob : job.Of (files.look directory) (pathOf directory) options) :
      run files directory words = (Id.run (deliver (m := Id)
        (fun path => pure (files.look directory path)) true (job.output options) job.context
        job.content (job.transcript verbose))).perform files directory := by
    rw [run_generate hwords, generate_of_job hjob, hcheck]
  constructor
  · intro hdone
    obtain ⟨job, hjob⟩ := exists_job_of_done hwords hdone
    rw [hrun hjob] at hdone
    cases houtput : job.output options with
    | none =>
        rw [houtput] at hdone
        cases hdone
    | some output =>
        rw [houtput] at hdone
        obtain ⟨data, hlook, htext⟩ := Look.text_eq_ok_iff.mp (checkOutput_exit_zero_iff.mp hdone)
        exact ⟨job, output, data, hjob, houtput, hlook, htext⟩
  · rintro ⟨job, output, data, hjob, houtput, hlook, htext⟩
    rw [hrun hjob, houtput]
    exact checkOutput_exit_zero_iff.mpr (Look.text_eq_ok_iff.mpr ⟨data, hlook, htext⟩)

/-- Commands change nothing but their output. A request that is no generation, a check, a generation
without an output, one that stops or fails with a message and one that finds its output unchanged
leave all files as they were. One that reports a module as generated has written it to the output
and has made directories on the way there. -/
theorem only_output_changed [Host] [Listing] (files : FileTree) (directory : Place)
    (words : List String) :
    ((∀ verbose options, Request.ofWords words ≠ .generate verbose options) →
      (run files directory words).2 = files) ∧
    ∀ verbose options, Request.ofWords words = .generate verbose options →
      (options.check = true → (run files directory words).2 = files ∧
        ((run files directory words).1.ending = .exit 0 ↔
          ∃ (job : Job) (output : Path) (data : List UInt8),
            job.Of (files.look directory) (pathOf directory) options ∧
            job.output options = some output ∧
            files.look directory output = .ok (.file data) ∧
            Look.text (.ok (.file data)) = .ok job.content)) ∧
      ((∀ job : Job, job.Of (files.look directory) (pathOf directory) options →
          job.output options = none) → (run files directory words).2 = files) ∧
      (∀ outcome, Stopped (files.look directory) (pathOf directory) verbose options outcome →
        run files directory words = (outcome, files)) ∧
      (∀ code, (run files directory words).1.ending = .exit code → code ≠ 0 →
        (run files directory words).2 = files) ∧
      ((run files directory words).1.Reports "Unchanged: " →
        (run files directory words).2 = files) ∧
      (options.check = false → (run files directory words).1.Reports "Generated: " →
        ∃ (job : Job) (output : Path) (place : Place),
          job.Of (files.look directory) (pathOf directory) options ∧
          job.output options = some output ∧
          Delivered files (run files directory words).2 directory output job.content place) ∧
      (options.check = false → (run files directory words).1.ending = .exit 0 →
        (∃ job : Job, job.Of (files.look directory) (pathOf directory) options ∧
          job.output options = none ∧
          (run files directory words).1.transcript.output = Text.unstyled job.content) ∨
        (run files directory words).1.Reports "Unchanged: " ∨
        (run files directory words).1.Reports "Generated: ") ∧
      (∀ cause, (run files directory words).1.ending = .escaped cause →
        (run files directory words).2 = files ∨ ∃ (job : Job) (output : Path),
          job.Of (files.look directory) (pathOf directory) options ∧
          job.output options = some output ∧
          FileTree.Paves directory output.parent files (run files directory words).2) := by
  refine ⟨run_snd_of_not_generate files directory, ?_⟩
  intro verbose options hwords
  have hends := run_ends files directory hwords
  refine ⟨?_, hends.eq_files_of_no_output, ?_, ?_, hends.eq_files_of_unchanged,
    hends.delivered_of_generated, hends.printed_or_reports, ?_⟩
  · intro hcheck
    exact ⟨hends.eq_files_of_check hcheck, check_exit_zero_iff hwords hcheck⟩
  · intro outcome hstopped
    exact run_of_stopped hwords hstopped
  · intro code hexit hcode
    exact hends.eq_files_of_exit_ne_zero hexit hcode
  · intro cause hescaped
    exact hends.paves_of_escaped hescaped

/-- A generation into a directory that is not there. -/
def nestedWords : List String := ["generate", "trip.yml", "-o", "gen/out.py"]

/-- A context without expressions, beside an output of old. -/
def brokenFiles : FileTree :=
  ⟨[(["trip.yml"], .file (Text.Utf8.encode "context: {}\n")),
    (["out.py"], .file (Text.Utf8.encode "pass\n"))]⟩

section Nested

attribute [local instance] Host.plain Listing.written

/-- The generation makes the directory and the module in it. Before it, a check does not succeed;
the check, a validation and a generation from a broken context change nothing. -/
theorem nested_delivered :
    (∃ content, Delivered (tripFiles "a") (run (tripFiles "a") [] nestedWords).2 []
      ⟨.here, ["gen", "out.py"]⟩ content ["gen", "out.py"]) ∧
    (run (tripFiles "a") [] ("generate" :: "--check" :: nestedWords.tail)).2 = tripFiles "a" ∧
    (run (tripFiles "a") [] ("generate" :: "--check" :: nestedWords.tail)).1.ending ≠ .exit 0 ∧
    (run (tripFiles "a") [] ["validate", "trip.yml"]).2 = tripFiles "a" ∧
    (run brokenFiles [] tripWords).2 = brokenFiles := by
  obtain ⟨_, hgenerate⟩ := only_output_changed (tripFiles "a") [] nestedWords
  obtain ⟨_, hcheck⟩ :=
    only_output_changed (tripFiles "a") [] ("generate" :: "--check" :: nestedWords.tail)
  obtain ⟨hvalidate, _⟩ := only_output_changed (tripFiles "a") [] ["validate", "trip.yml"]
  obtain ⟨_, hbroken⟩ := only_output_changed brokenFiles [] tripWords
  obtain ⟨_, _, _, _, _, hdelivered, _⟩ := hgenerate false
    ⟨some ⟨.here, ["trip.yml"]⟩, some ⟨.here, ["gen", "out.py"]⟩, none, false⟩ (by decide)
  obtain ⟨hchecked, _⟩ := hcheck false
    ⟨some ⟨.here, ["trip.yml"]⟩, some ⟨.here, ["gen", "out.py"]⟩, none, true⟩ (by decide)
  obtain ⟨hsame, hdone⟩ := hchecked rfl
  obtain ⟨_, _, _, hreported, _⟩ := hbroken false
    ⟨some ⟨.here, ["trip.yml"]⟩, some ⟨.here, ["out.py"]⟩, none, false⟩ (by decide)
  refine ⟨?_, hsame, ?_, hvalidate ?_, hreported 1 (by decide +kernel) (by decide)⟩
  · have hrun : (run (tripFiles "a") [] nestedWords).1 =
        (Transcript.line {} ("Generated: " ++ "gen/out.py")).exit 0 := by
      decide +kernel
    obtain ⟨job, path, place, _, hpath, hplace⟩ :=
      hdelivered rfl (by rw [hrun]; exact ⟨rfl, "gen/out.py\n", rfl⟩)
    obtain rfl : ⟨.here, ["gen", "out.py"]⟩ = path := Option.some.inj hpath
    have hlocate : (run (tripFiles "a") [] nestedWords).2.locate [] ⟨.here, ["gen", "out.py"]⟩ =
        .ok ["gen", "out.py"] := by
      decide +kernel
    obtain rfl : ["gen", "out.py"] = place := Except.ok.inj (hlocate.symm.trans hplace.located)
    exact ⟨job.content, hplace⟩
  · intro hzero
    obtain ⟨job, path, data, _, hpath, hlook, _⟩ := hdone.mp hzero
    obtain rfl : ⟨.here, ["gen", "out.py"]⟩ = path := Option.some.inj hpath
    have hmissing : (tripFiles "a").look [] ⟨.here, ["gen", "out.py"]⟩ = .error .missing := by
      decide +kernel
    rw [hmissing] at hlook
    cases hlook
  · intro verbose options hwords
    have hvalidates : Request.ofWords ["validate", "trip.yml"] =
        .validate false ⟨⟨.here, ["trip.yml"]⟩, false⟩ := by
      decide
    rw [hvalidates] at hwords
    cases hwords

end Nested

end VoiceIntents.Command
