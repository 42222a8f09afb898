import VoiceIntents.Command.Arguments
import VoiceIntents.Command.Outcome
import VoiceIntents.File.Tree
import VoiceIntents.Grammar.Error
import VoiceIntents.Manifest
import VoiceIntents.Text.Table
import VoiceIntents.Version

/-!
# Commands

What a command line does: from what it reads to a plan, and from the plan to its outcome.
-/

/-!
## Plans of a command

A command first only looks at files, and its plan says what is left to do: nothing, or to save
one file. How a path is looked at is a parameter, so that plans can be made over any files.
-/

namespace VoiceIntents.Command

inductive Plan where
  | finish (outcome : Outcome)
  | save (path : Path) (text : String) (transcript : Transcript)
  deriving DecidableEq, Repr

/-- The line above a generated module. -/
def banner : String :=
  "# This file is generated by rhinogen. Run \x60rhinogen generate\x60 to update it.\n"

/-- A module's text below the banner, if it has one. -/
def bannered (wanted : Bool) (code : String) : String := if wanted then banner ++ code else code

/-- The text that an output has so far, if it is there. -/
def currentText (found : Look) : Except Escape (Option String) :=
  match found.isThere with
  | .error e => .error (.file e)
  | .ok false => .ok none
  | .ok true =>
      match found.text with
      | .ok text => .ok (some text)
      | .error (.file e) => .error (.file e)
      | .error (.encoding fault) => .error (.undecodable fault)

/-- Tells whether an output has the right text. -/
def checkOutput (found : Look) (output context : Path) (text : String) (t : Transcript) :
    Outcome :=
  match currentText found with
  | .error cause => t.escape cause
  | .ok current =>
      if current = some text then (t.line (output.toText ++ " is up to date")).exit 0
      else (t.errorLine (output.toText ++ " is out of date with " ++ context.toText)).exit 1

/-- Saves a text unless the output has it. -/
def saveOutput (found : Look) (output : Path) (text : String) (t : Transcript) : Plan :=
  match currentText found with
  | .error cause => .finish (t.escape cause)
  | .ok current =>
      if current = some text then .finish ((t.line ("Unchanged: " ++ output.toText)).exit 0)
      else .save output text t

section Look

variable [Host] [Listing] {m : Type → Type} [Monad m] (look : Path → m Look)

/-- The manifest that is named, else the one of the working directory if there is one. -/
def manifestPath (here : Path) (named : Option Path) : m (Except FileError (Option Path)) :=
  match named with
  | some path => pure (.ok (some path))
  | none => do
      let path := Manifest.candidate here
      return (← look path).isFile.map fun isFile => if isFile then some path else none

/-- What is done with the text of a module. -/
def deliver (check : Bool) (output : Option Path) (context : Path) (text : String)
    (t : Transcript) : m Plan :=
  match check, output with
  | true, none => pure (.finish (t.fail "--check needs an output file"))
  | true, some output => return .finish (checkOutput (← look output) output context text t)
  | false, none => pure (.finish ((t.echo text).exit 0))
  | false, some output => return saveOutput (← look output) output text t

/-- A context's text, or the end of the command. -/
def readContext (context : Path) (found : Look) (t : Transcript) : Except Outcome String :=
  match found.text with
  | .ok text => .ok text
  | .error e =>
      match e.report? context with
      | some detail =>
          .error (t.fail ("Cannot read context file " ++ context.toText ++ ": " ++ detail))
      | none => .error (t.escape (.file .nullCharacter))

/-- The end of a command whose context is in error. -/
def contextFailure (t : Transcript) (e : ContextError) : Outcome :=
  match e.report? with
  | some message => t.fail (Text.shown message)
  | none => t.escape (.context e)

/-- Compiles the context and delivers its module. Options go before the manifest. -/
def generateWith (verbose : Bool) (options : GenerateOptions) (manifest : Manifest)
    (t : Transcript) : m Plan :=
  match options.context.or manifest.context with
  | none => pure (.finish (t.fail "No context file given and no [context].path in rhinogen.toml"))
  | some context => do
      match readContext context (← look context) t with
      | .error outcome => return .finish outcome
      | .ok text =>
          let source := context.toText
          let t := t.log verbose fun _ => Record.ofCompilation source text
          match Context.compile (some source) manifest.name text with
          | .error e => return .finish (contextFailure t e)
          | .ok code =>
              deliver look options.check (options.output.or manifest.output) context
                (bannered manifest.banner code) t

/-- The end of a command whose manifest is in error. -/
def manifestFailure (t : Transcript) (e : ManifestError) : Outcome :=
  match e with
  | .refused fault path => t.fail (fault.describe path)
  | .undecodable fault => t.escape (.undecodable fault)
  | .nullCharacter => t.escape (.file .nullCharacter)
  | .unreadable cause => t.escape (.manifest cause)

def generate (here : Path) (verbose : Bool) (options : GenerateOptions) : m Plan := do
  match ← manifestPath look here options.manifest with
  | .error e => return .finish (Transcript.escape {} (.file e))
  | .ok none => generateWith look verbose options {} {}
  | .ok (some path) =>
      let t := Transcript.log {} verbose fun _ => [Record.usingManifest path]
      match Manifest.load path (← look path) with
      | .error e => return .finish (manifestFailure t e)
      | .ok manifest => generateWith look verbose options manifest t

/-- The rows of an intent, one for each variable; its name stands on the first. -/
def intentRows (i : Intent) : List (List String) :=
  match i.vars with
  | [] => [[i.name, "-", "-", "-"]]
  | vars =>
      vars.mapIdx fun n v =>
        [if n = 0 then i.name else "", v.name, v.slot.name, if v.required then "yes" else "no"]

def intentTable (g : Grammar) : Text.Table :=
  ⟨"Intents", ["Intent", "Variable", "Slot", "Required"], g.intents.flatMap intentRows⟩

def slotTable (g : Grammar) : Text.Table :=
  ⟨"Slots", ["Slot", "Elements"], g.slots.map fun s => [s.name, ", ".intercalate s.names]⟩

/-- The tables of a grammar; there is no second one without slots. -/
def grammarLines (g : Grammar) : List String :=
  (intentTable g).lines Host.lineLength
    ++ if g.slots.isEmpty then [] else (slotTable g).lines Host.lineLength

/-- Writes warnings, up to one whose text has no bytes. -/
def warn (t : Transcript) : List Grammar.Warning → Except Outcome Transcript
  | [] => .ok t
  | w :: rest =>
      if Text.hasHalf w.describe then .error (t.escape (.unwritable w.describe))
      else warn (t.line ("WARNING: " ++ Text.shown w.describe)) rest

/-- Shows a grammar and its warnings. -/
def showGrammar (strict : Bool) (g : Grammar) (t : Transcript) : Outcome :=
  match warn (t.lines (grammarLines g)) g.lint with
  | .error outcome => outcome
  | .ok t =>
      if strict && !g.lint.isEmpty then t.exit 1 else (t.line "OK: context is valid.").exit 0

def validate (verbose : Bool) (options : ValidateOptions) : m Outcome := do
  match readContext options.context (← look options.context) {} with
  | .error outcome => return outcome
  | .ok text =>
      let source := options.context.toText
      let t := Transcript.log {} verbose fun _ => Record.ofContext source text
      match Context.grammar (some source) text with
      | .error e => return contextFailure t e
      | .ok g => return showGrammar options.strict g t

/-- What a request is answered with, for a working directory. -/
def plan (here : Path) : Request → m Plan
  | .usage => pure (.finish ((Transcript.errorLine {} Host.usageText).exit 2))
  | .help => pure (.finish ((Transcript.echo {} Host.helpText).exit 0))
  | .version =>
      let t := Transcript.line {} ("rhinogen version " ++ Version.installed)
      pure (.finish ((t.line Host.versionLine).exit 0))
  | .generate verbose options => generate look here verbose options
  | .validate verbose options => return .finish (← validate look verbose options)

end Look

end VoiceIntents.Command

/-!
## Running a command

A command line over a file tree: its outcome and the tree afterwards.
-/

namespace VoiceIntents.Command

/-- The absolute path of a place. -/
def pathOf (place : Place) : Path := ⟨.root, place⟩

/-- Carries out a plan. Only a save changes the tree. -/
def Plan.perform (files : FileTree) (directory : Place) : Plan → Outcome × FileTree
  | .finish outcome => (outcome, files)
  | .save path text t =>
      match files.save directory path (Text.Utf8.encode text) with
      | (.ok (), files) => ((t.line ("Generated: " ++ path.toText)).exit 0, files)
      | (.error e, files) => (t.escape (.file e), files)

/-- Runs a command line in a working directory. -/
def run [Host] [Listing] (files : FileTree) (directory : Place) (words : List String) :
    Outcome × FileTree :=
  let chosen : Id Plan := plan (fun path => pure (files.look directory path)) (pathOf directory)
    (Request.ofWords words)
  chosen.run.perform files directory

end VoiceIntents.Command
