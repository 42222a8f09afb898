import VoiceIntents.File.Basic

/-!
# File trees

A file system as a value: directories and files by the names that lead to them from the root.
-/

namespace VoiceIntents

/-- The names from the root to an entry, without steps back. -/
abbrev Place := List String

structure FileTree where
  entries : List (Place × Entry) := []
  deriving DecidableEq, Repr

namespace FileTree

/-- What is at a place. The root is a directory. -/
def get? (t : FileTree) (place : Place) : Option Entry :=
  if place = [] then some .directory
  else (t.entries.find? fun e => e.1 = place).map (·.2)

def putEntry (place : Place) (entry : Entry) :
    List (Place × Entry) → List (Place × Entry)
  | [] => [(place, entry)]
  | (other, old) :: rest =>
      if other = place then (place, entry) :: rest else (other, old) :: putEntry place entry rest

/-- The tree with another entry at a place. -/
def put (t : FileTree) (place : Place) (entry : Entry) : FileTree :=
  ⟨putEntry place entry t.entries⟩

/-- The tree without a place and all below it. -/
def remove (t : FileTree) (place : Place) : FileTree :=
  ⟨t.entries.filter fun e => !place.isPrefixOf e.1⟩

/-- The longest name and the longest path that a file system takes, in bytes. -/
def nameLimit : Nat := 255

def pathLimit : Nat := 4095

/-- Paths that no file system takes. -/
def refusal? (path : Path) : Option FileError :=
  if path.toText.toList.contains '\x00' then some .nullCharacter
  else if pathLimit < path.toText.utf8ByteSize then some .nameTooLong
  else none

/-- One step from a directory. What the last step leads to need not exist. -/
def step (t : FileTree) (place : Place) (name : String) : Except FileError Place :=
  match t.get? place with
  | none => .error .missing
  | some (.file _) => .error .notDirectory
  | some .directory =>
      if name = ".." then .ok place.dropLast
      else if nameLimit < name.utf8ByteSize then .error .nameTooLong
      else .ok (place ++ [name])

def walk (t : FileTree) : Place → List String → Except FileError Place
  | place, [] => .ok place
  | place, name :: rest => do walk t (← t.step place name) rest

/-- The place that a path leads to from a working directory. -/
def locate (t : FileTree) (directory : Place) (path : Path) : Except FileError Place :=
  match refusal? path with
  | some e => .error e
  | none => t.walk (if path.isAbsolute then [] else directory) path.names

/-- What a path leads to from a working directory. -/
def look (t : FileTree) (directory : Place) (path : Path) : Look := do
  match t.get? (← t.locate directory path) with
  | some entry => .ok entry
  | none => .error .missing

/-- Makes a directory. Its parent is there, and nothing has its name. -/
def makeDirectory (t : FileTree) (directory : Place) (path : Path) :
    Except FileError FileTree := do
  let place ← t.locate directory path
  match t.get? place with
  | some _ => .error .alreadyThere
  | none => .ok (t.put place .directory)

/-- Makes a directory unless it is there. -/
def ensureDirectory (t : FileTree) (directory : Place) (path : Path) :
    Except FileError Unit × FileTree :=
  match t.makeDirectory directory path with
  | .ok t => (.ok (), t)
  | .error e =>
      if (t.look directory path).isDirectory then (.ok (), t) else (.error e, t)

/-- Makes the directory of the first `n` names of a path, and before it the one above if that
is missing. -/
def ensureUpTo (t : FileTree) (directory : Place) (path : Path) :
    Nat → Except FileError Unit × FileTree
  | 0 => t.ensureDirectory directory (path.upTo 0)
  | n + 1 =>
      match t.makeDirectory directory (path.upTo (n + 1)) with
      | .error .missing =>
          match ensureUpTo t directory path n with
          | (.ok (), t) => t.ensureDirectory directory (path.upTo (n + 1))
          | failed => failed
      | _ => t.ensureDirectory directory (path.upTo (n + 1))

/-- Makes a directory and the missing ones above it. -/
def ensureDirectories (t : FileTree) (directory : Place) (path : Path) :
    Except FileError Unit × FileTree :=
  t.ensureUpTo directory path path.names.length

/-- Writes a file in a directory that is there, in the place of an older one. -/
def write (t : FileTree) (directory : Place) (path : Path) (data : List UInt8) :
    Except FileError FileTree := do
  let place ← t.locate directory path
  match t.get? place with
  | some .directory => .error .isDirectory
  | _ => .ok (t.put place (.file data))

/-- Writes a file after making the directories on the way to it. -/
def save (t : FileTree) (directory : Place) (path : Path) (data : List UInt8) :
    Except FileError Unit × FileTree :=
  match t.ensureDirectories directory path.parent with
  | (.ok (), t) =>
      match t.write directory path data with
      | .ok t => (.ok (), t)
      | .error e => (.error e, t)
  | failed => failed

end FileTree

end VoiceIntents
