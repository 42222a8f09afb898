import VoiceIntents.Toml.Document
import VoiceIntents.Value.Display

/-!
# Versions

The version of the program: the one that is installed, else the one that the project's
description declares, else a version that stands for none.
-/

namespace VoiceIntents.Version

def unknown : String := "0.0.0"

/-- The version that this program is installed as. -/
def installed : String := "0.3.0"

/-- Why a description is not read. Malformed descriptions and missing entries are not among
the causes, because they only mean that no version is known. -/
inductive Error where
  | notTable
  | unreadable (cause : Toml.Unreadable)
  deriving DecidableEq, Repr

/-- The version entry of the project table, as text. -/
def ofEntries (entries : List (Scalar × Value)) : Except Error String :=
  match lookup entries "project" with
  | none => .ok unknown
  | some (.map project) =>
      match lookup project "version" with
      | none => .ok unknown
      | some version =>
          match version.display with
          | .ok text => .ok text
          | .error .tooManyDigits => .error (.unreadable .tooManyDigits)
          | .error .tooDeep => .error (.unreadable .tooDeep)
  | some _ => .error .notTable

/-- The version that a description declares. -/
def declared [Host] (description : String) : Except Error String :=
  match Toml.readDocument description with
  | .ok entries => ofEntries entries
  | .error (.unreadable cause) => .error (.unreadable cause)
  | .error (.malformed _ _) => .ok unknown

/-- The version of a program that may be installed and may have a description. -/
def find [Host] (installed description : Option String) : Except Error String :=
  match installed, description with
  | some version, _ => .ok version
  | none, some description => declared description
  | none, none => .ok unknown

end VoiceIntents.Version
