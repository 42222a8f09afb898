import VoiceIntents.Context
import VoiceIntents.File.Basic
import VoiceIntents.Text.Table
import VoiceIntents.Toml.Error

/-!
# Outcomes of a command

What a command writes and how it ends. Echoed lines are written without terminal styles.
-/

namespace VoiceIntents.Command

/-- A failure that no message reports. -/
inductive Escape where
  | context (e : ContextError)
  | undecodable (fault : Text.Utf8.Fault)
  | file (e : FileError)
  | manifest (cause : Toml.Unreadable)
  | unwritable (text : String)
  deriving DecidableEq, Repr

inductive Ending where
  | exit (code : Nat)
  | escaped (cause : Escape)
  deriving DecidableEq, Repr

/-- The exit code of a command. -/
def Ending.code : Ending → Nat
  | .exit code => code
  | .escaped _ => 1

/-- What was written to standard output and to standard error. -/
structure Transcript where
  output : String := ""
  errors : String := ""
  deriving DecidableEq, Repr

namespace Transcript

def echo (t : Transcript) (text : String) : Transcript :=
  { t with output := t.output ++ Text.unstyled text }

def line (t : Transcript) (text : String) : Transcript := t.echo (text ++ "\n")

/-- Lines that go to the terminal as they are. -/
def lines (t : Transcript) (texts : List String) : Transcript :=
  { t with output := t.output ++ String.join (texts.map (· ++ "\n")) }

def errorLine (t : Transcript) (text : String) : Transcript :=
  { t with errors := t.errors ++ Text.unstyled (text ++ "\n") }

end Transcript

/-- A step of the work that a verbose command tells about, and the part that did it. -/
structure Record where
  part : String
  message : String
  deriving DecidableEq, Repr

namespace Record

def describe (r : Record) : String := "DEBUG " ++ r.part ++ ": " ++ r.message ++ "\n"

def usingManifest (path : Path) : Record :=
  ⟨"rhinogen.cli.generate", "Using manifest " ++ path.toText⟩

def loaded (source : String) : Record :=
  ⟨"rhinogen.core.loader", "Loaded context document " ++ source⟩

def built (source : String) (g : Grammar) : Record :=
  ⟨"rhinogen.core.builder", "Built grammar from " ++ source ++ ": " ++ natText g.intents.length
    ++ " intents, " ++ natText g.slots.length ++ " slots"⟩

def emitting (g : Grammar) : Record :=
  ⟨"rhinogen.codegen.emitter", "Emitting " ++ natText g.intents.length
    ++ " intent variants and " ++ natText g.slots.length ++ " enums"⟩

/-- The records of reading a context, up to where it fails. -/
def ofContext [Host] [Listing] (source text : String) : List Record :=
  match Context.load (some source) text with
  | .error _ => []
  | .ok _ =>
      match Context.grammar (some source) text with
      | .error _ => [loaded source]
      | .ok g => [loaded source, built source g]

/-- The records of compiling a context, up to where it fails. -/
def ofCompilation [Host] [Listing] (source text : String) : List Record :=
  match Context.grammar (some source) text with
  | .error _ => ofContext source text
  | .ok g => [loaded source, built source g, emitting g]

end Record

/-- Verbose commands write their records to standard error. -/
def Transcript.log (t : Transcript) (verbose : Bool) (records : Unit → List Record) :
    Transcript :=
  if verbose then { t with errors := t.errors ++ String.join ((records ()).map Record.describe) }
  else t

structure Outcome where
  transcript : Transcript
  ending : Ending
  deriving DecidableEq, Repr

namespace Transcript

def exit (t : Transcript) (code : Nat) : Outcome := ⟨t, .exit code⟩

/-- A reported failure. -/
def fail (t : Transcript) (message : String) : Outcome :=
  (t.errorLine ("ERROR: " ++ message)).exit 1

def escape (t : Transcript) (cause : Escape) : Outcome := ⟨t, .escaped cause⟩

end Transcript

end VoiceIntents.Command
