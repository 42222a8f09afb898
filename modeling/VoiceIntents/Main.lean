import VoiceIntents.Command.Plan

/-!
# The command line

Runs a command over the files of the machine.
-/

namespace VoiceIntents

/-- The cause of a refused path by the number of the system's error, which may be given with
its sign turned. -/
def fileError? (code : UInt32) : Option FileError :=
  let code := if 0x80000000 ≤ code then 0 - code else code
  if code = 2 then some .missing
  else if code = 17 then some .alreadyThere
  else if code = 20 then some .notDirectory
  else if code = 21 then some .isDirectory
  else if code = 36 then some .nameTooLong
  else none

/-- The number of a system error. -/
def systemCode? : IO.Error → Option UInt32
  | .noFileOrDirectory _ code _ => some code
  | .inappropriateType _ code _ => some code
  | .alreadyExists _ code _ => some code
  | .invalidArgument _ code _ => some code
  | _ => none

/-- What a path leads to on this machine. -/
def lookAt (path : Path) : IO Look := do
  try
    return .ok (.file (← IO.FS.readBinFile path.toText).toList)
  catch e =>
    match (systemCode? e).bind fileError? with
    | some .isDirectory => return .ok .directory
    | some cause => return .error cause
    | none => throw e

/-- Writes a file after making the directories on the way to it. -/
def saveAt (path : Path) (text : String) : IO Unit := do
  IO.FS.createDirAll path.parent.toText
  IO.FS.writeBinFile path.toText ⟨(Text.Utf8.encode text).toArray⟩

def finish (outcome : Command.Outcome) : IO UInt32 := do
  IO.print outcome.transcript.output
  IO.eprint outcome.transcript.errors
  match outcome.ending with
  | .exit code => return code.toUInt32
  | .escaped _ =>
      IO.eprintln "The command failed."
      return 1

end VoiceIntents

attribute [local instance] VoiceIntents.Host.plain VoiceIntents.Listing.written in
open VoiceIntents in
/-- Runs the command line of the program. -/
def main (words : List String) : IO UInt32 := do
  let here := Path.ofText (← IO.currentDir).toString
  match ← Command.plan lookAt here (Command.Request.ofWords words) with
  | .finish outcome => finish outcome
  | .save path text transcript => do
      saveAt path text
      finish ((transcript.line ("Generated: " ++ path.toText)).exit 0)
