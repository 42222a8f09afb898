import VoiceIntents.Yaml.Error

/-!
# Tokens and cursors

The tokens of a YAML text and the places between its characters.
-/

/-!
## Tokens

The tokens of a YAML text. Block structure, which the text shows by indentation, appears as
tokens of its own.
-/

namespace VoiceIntents.Yaml

/-- A line that begins with a percent sign. -/
inductive Directive where
  | version (major : Nat)
  | tagHandle (handle expansion : String)
  | other
  deriving DecidableEq, Repr

inductive TokenKind where
  | streamEnd
  | directive (d : Directive)
  | documentStart
  | documentEnd
  | blockSequenceStart
  | blockMappingStart
  | blockEnd
  | flowSequenceStart
  | flowSequenceEnd
  | flowMappingStart
  | flowMappingEnd
  | blockEntry
  | flowEntry
  | key
  | value
  | alias (name : String)
  | anchor (name : String)
  | tag (handle : Option String) (suffix : String)
  | scalar (text : String) (plain : Bool)
  deriving DecidableEq, Repr

structure Token where
  kind : TokenKind
  start : Mark
  stop : Mark
  deriving DecidableEq, Repr

end VoiceIntents.Yaml

/-!
## Cursors

A cursor is a place in a YAML text: the characters that remain and the mark of the first.
-/

namespace VoiceIntents.Yaml

structure Cursor where
  rest : List Char
  mark : Mark
  deriving DecidableEq, Repr

/-- The mark after a character. A carriage return ends a line unless a line feed follows, and
a byte order mark takes no column. -/
def Mark.after (m : Mark) (c : Char) (next : Option Char) : Mark :=
  if (isBreak c && c ≠ '\r') || (c = '\r' && next ≠ some '\n') then ⟨m.index + 1, m.line + 1, 0⟩
  else if c = '\ufeff' then ⟨m.index + 1, m.line, m.column⟩
  else ⟨m.index + 1, m.line, m.column + 1⟩

namespace Cursor

def start (text : List Char) : Cursor := ⟨text, ⟨0, 0, 0⟩⟩

def peek (c : Cursor) : Option Char := c.rest.head?

def peekAt (c : Cursor) (n : Nat) : Option Char := c.rest[n]?

def column (c : Cursor) : Nat := c.mark.column

def next (c : Cursor) : Cursor :=
  match c.rest with
  | [] => c
  | a :: rest => ⟨rest, c.mark.after a rest.head?⟩

def skip : Nat → Cursor → Cursor
  | 0, c => c
  | n + 1, c => skip n c.next

/-- The longest run of characters of a class, and the place after it. -/
def spanFrom (p : Char → Bool) : List Char → Mark → List Char × Cursor
  | [], m => ([], ⟨[], m⟩)
  | a :: rest, m =>
      if p a then
        let (run, after) := spanFrom p rest (m.after a rest.head?)
        (a :: run, after)
      else ([], ⟨a :: rest, m⟩)

def span (p : Char → Bool) (c : Cursor) : List Char × Cursor := spanFrom p c.rest c.mark

def skipWhile (p : Char → Bool) (c : Cursor) : Cursor := (c.span p).2

def skipSpaces (c : Cursor) : Cursor := c.skipWhile (· = ' ')

/-- The rest of the line, up to its break or the end. -/
def line (c : Cursor) : List Char × Cursor := c.span fun a => !isBreak a

def atEnd (c : Cursor) : Bool := c.rest.isEmpty

end Cursor

/-- A space, a break or the end. -/
def endsWord (c : Option Char) : Bool := c.all fun a => a = ' ' || isBreak a

/-- A space, a tab, a break or the end. -/
def isBlank (c : Option Char) : Bool := c.all fun a => a = ' ' || a = '\t' || isBreak a

namespace Cursor

/-- A line break as it is read: all but the two Unicode separators count as line feeds. -/
def lineBreak? (c : Cursor) : Option (Char × Cursor) :=
  match c.rest with
  | '\r' :: '\n' :: _ => some ('\n', c.next.next)
  | a :: _ =>
      if !isBreak a then none
      else some (if a = '\u2028' || a = '\u2029' then a else '\n', c.next)
  | [] => none

/-- Three marks of a kind and a blank separate documents. -/
def atSeparator (c : Cursor) : Bool :=
  match c.rest with
  | '-' :: '-' :: '-' :: rest => isBlank rest.head?
  | '.' :: '.' :: '.' :: rest => isBlank rest.head?
  | _ => false

end Cursor

end VoiceIntents.Yaml
