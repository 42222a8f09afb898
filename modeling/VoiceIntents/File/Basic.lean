import VoiceIntents.File.Path
import VoiceIntents.Text.Encoding
import VoiceIntents.Text.Literal

/-!
# Files

What a path leads to, why it may lead nowhere, and the text of a file.
-/

namespace VoiceIntents

inductive Entry where
  | directory
  | file (data : List UInt8)
  deriving DecidableEq, Repr

/-- Why the file system refuses a path. A null character in a path is kept apart from the
other causes: such a path never reaches the file system. -/
inductive FileError where
  | missing
  | alreadyThere
  | notDirectory
  | isDirectory
  | nameTooLong
  | nullCharacter
  deriving DecidableEq, Repr

namespace FileError

def describe (path : Path) : FileError → String
  | .missing => "[Errno 2] No such file or directory: " ++ Text.inspect path.toText
  | .alreadyThere => "[Errno 17] File exists: " ++ Text.inspect path.toText
  | .notDirectory => "[Errno 20] Not a directory: " ++ Text.inspect path.toText
  | .isDirectory => "[Errno 21] Is a directory: " ++ Text.inspect path.toText
  | .nameTooLong => "[Errno 36] File name too long: " ++ Text.inspect path.toText
  | .nullCharacter => "embedded null byte"

/-- Whether the cause means that nothing is there, rather than that nobody can tell. -/
def meansAbsent : FileError → Bool
  | .missing | .notDirectory | .nullCharacter => true
  | .alreadyThere | .isDirectory | .nameTooLong => false

end FileError

/-- What a path leads to. -/
abbrev Look := Except FileError Entry

namespace Look

/-- Whether there is anything, unless that cannot be told. -/
def isThere : Look → Except FileError Bool
  | .ok _ => .ok true
  | .error e => if e.meansAbsent then .ok false else .error e

def isDirectory : Look → Bool
  | .ok .directory => true
  | _ => false

/-- Whether there is a file, unless that cannot be told. -/
def isFile : Look → Except FileError Bool
  | .ok (.file _) => .ok true
  | .ok .directory => .ok false
  | .error e => if e.meansAbsent then .ok false else .error e

end Look

/-- Why a file has no text. -/
inductive ReadError where
  | file (e : FileError)
  | encoding (fault : Text.Utf8.Fault)
  deriving DecidableEq, Repr

/-- The message of a failed reading, if there is one: a null character in the path has none. -/
def ReadError.report? (path : Path) : ReadError → Option String
  | .file .nullCharacter => none
  | .file e => some (e.describe path)
  | .encoding fault => some fault.describe

/-- The text of a file: its bytes are UTF-8, and every line end is read as a line feed. -/
def Look.text : Look → Except ReadError String
  | .error e => .error (.file e)
  | .ok .directory => .error (.file .isDirectory)
  | .ok (.file data) =>
      match Text.Utf8.decode data with
      | .ok text => .ok (Text.universalLines text)
      | .error fault => .error (.encoding fault)

end VoiceIntents
