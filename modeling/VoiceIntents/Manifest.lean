import VoiceIntents.File.Basic
import VoiceIntents.Toml.Document

/-!
# Manifests

The manifest of a project names it, says where its context is and where the module goes.
Relative paths start at the directory of the manifest.
-/

namespace VoiceIntents

structure Manifest where
  name : Option String := none
  context : Option Path := none
  output : Option Path := none
  banner : Bool := true
  deriving DecidableEq, Repr

/-- Why a manifest is refused. -/
inductive ManifestFault where
  | unreadable (detail : String)
  | malformed (detail : String)
  | notTable (table : String)
  | bannerNotTruth
  | nameNotText
  | pathNotText (key : String)
  deriving DecidableEq, Repr

/-- Why there is no manifest. Only the first kind is reported as an error of the manifest. -/
inductive ManifestError where
  | refused (fault : ManifestFault) (path : Path)
  | undecodable (fault : Text.Utf8.Fault)
  | nullCharacter
  | unreadable (cause : Toml.Unreadable)
  deriving DecidableEq, Repr

namespace Manifest

def fileName : String := "rhinogen.toml"

end Manifest

def ManifestFault.describe (path : Path) : ManifestFault → String
  | .unreadable detail => "Cannot read " ++ path.toText ++ ": " ++ detail
  | .malformed detail => "Invalid TOML in " ++ path.toText ++ ": " ++ detail
  | .notTable table => "[" ++ table ++ "] must be a table in " ++ path.toText
  | .bannerNotTruth => "'output.banner' must be true or false in " ++ path.toText
  | .nameNotText => "'project.name' must be a string in " ++ path.toText
  | .pathNotText key => "'" ++ key ++ "' must be a string path in " ++ Manifest.fileName

def ManifestError.report? : ManifestError → Option String
  | .refused fault path => some (fault.describe path)
  | .undecodable _ | .nullCharacter | .unreadable _ => none

namespace Manifest

/-- A table of the manifest; a missing one is empty. -/
def table (entries : List (Scalar × Value)) (name : String) :
    Except ManifestFault (List (Scalar × Value)) :=
  match lookup entries name with
  | none => .ok []
  | some (.map inner) => .ok inner
  | some _ => .error (.notTable name)

def readBanner (output : List (Scalar × Value)) : Except ManifestFault Bool :=
  match lookup output "banner" with
  | none => .ok true
  | some (.scalar (.bool b)) => .ok b
  | some _ => .error .bannerNotTruth

def readName (project : List (Scalar × Value)) : Except ManifestFault (Option String) :=
  match lookup project "name" with
  | none => .ok none
  | some (.scalar (.text name)) => .ok (some name)
  | some _ => .error .nameNotText

/-- The path of a table, which is called `key` in messages. -/
def readPath (directory : Path) (table : List (Scalar × Value)) (key : String) :
    Except ManifestFault (Option Path) :=
  match lookup table "path" with
  | none => .ok none
  | some (.scalar (.text text)) => .ok (some (directory.join (Path.ofText text)))
  | some _ => .error (.pathNotText key)

/-- The manifest of a TOML document in a directory. The tables are looked at first, then the
banner, the name and the paths. -/
def ofEntries (directory : Path) (entries : List (Scalar × Value)) :
    Except ManifestFault Manifest := do
  let projectTable ← table entries "project"
  let contextTable ← table entries "context"
  let outputTable ← table entries "output"
  let banner ← readBanner outputTable
  let name ← readName projectTable
  let context ← readPath directory contextTable "context.path"
  let output ← readPath directory outputTable "output.path"
  return { name, context, output, banner }

/-- The manifest of a text at a path. -/
def ofText [Host] (path : Path) (text : String) : Except ManifestError Manifest :=
  match Toml.readDocument text with
  | .ok entries => (ofEntries path.parent entries).mapError (.refused · path)
  | .error (.unreadable cause) => .error (.unreadable cause)
  | .error e =>
      .error (.refused (.malformed (e.describe (Text.dropReturns text.toList))) path)

/-- The manifest at a path, by what the path leads to. -/
def load [Host] (path : Path) (found : Look) : Except ManifestError Manifest :=
  match found.text with
  | .ok text => ofText path text
  | .error (.encoding fault) => .error (.undecodable fault)
  | .error (.file .nullCharacter) => .error .nullCharacter
  | .error (.file e) => .error (.refused (.unreadable (e.describe path)) path)

/-- Where the manifest of a directory is, if it has one. -/
def candidate (directory : Path) : Path := directory.child fileName

end Manifest

end VoiceIntents
