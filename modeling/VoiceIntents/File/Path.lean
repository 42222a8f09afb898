/-!
# Paths

Paths in their plain form: empty names and single dots are left out, while a step to the
parent stays, because it has a meaning of its own behind a name that does not exist.
-/

namespace VoiceIntents

/-- Where a path starts: at the working directory, at the root, or at a root written with two
slashes. -/
inductive Anchor where
  | here
  | root
  | twoSlashes
  deriving DecidableEq, Repr

structure Path where
  anchor : Anchor
  names : List String
  deriving DecidableEq, Repr

namespace Path

/-- The pieces of a text between slashes. -/
def pieces : List Char → List (List Char)
  | [] => [[]]
  | c :: rest =>
      if c = '/' then [] :: pieces rest
      else match pieces rest with
      | [] => [[c]]
      | piece :: more => (c :: piece) :: more

/-- One leading slash means the root, and so do three or more. -/
def anchorOf : List Char → Anchor
  | '/' :: '/' :: '/' :: _ => .root
  | '/' :: '/' :: _ => .twoSlashes
  | '/' :: _ => .root
  | _ => .here

/-- Empty pieces and single dots name nothing. -/
def isName (piece : List Char) : Bool := piece ≠ [] && piece ≠ ['.']

def ofText (text : String) : Path :=
  ⟨anchorOf text.toList, ((pieces text.toList).filter isName).map String.ofList⟩

def Anchor.toText : Anchor → String
  | .here => ""
  | .root => "/"
  | .twoSlashes => "//"

/-- The plain form of a path; the working directory is a dot. -/
def toText (p : Path) : String :=
  match p.anchor, p.names with
  | .here, [] => "."
  | anchor, names => Anchor.toText anchor ++ "/".intercalate names

def isAbsolute (p : Path) : Bool := p.anchor ≠ .here

/-- The path without its last name. -/
def parent (p : Path) : Path := { p with names := p.names.dropLast }

/-- The first `n` names of a path. -/
def upTo (p : Path) (n : Nat) : Path := { p with names := p.names.take n }

def child (p : Path) (name : String) : Path := { p with names := p.names ++ [name] }

/-- The path that another one leads to from a directory; an absolute path stays. -/
def join (directory p : Path) : Path :=
  if p.isAbsolute then p else { directory with names := directory.names ++ p.names }

end Path

end VoiceIntents
