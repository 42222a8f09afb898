import VoiceIntents.Text.Encoding
import VoiceIntents.Yaml.Token.Basic

/-!
# Scalar tokens

The texts of plain, quoted and block scalars. A line break inside a plain or quoted scalar is
folded: a single line feed becomes a space, and further breaks are kept.

The loops run on fuel, and each pass takes a character at least, so the length of the rest of
the text is enough.
-/

namespace VoiceIntents.Yaml

/-- The text of a scalar and where reading goes on. -/
structure ScalarText where
  text : List Char
  after : Cursor
  deriving Repr

/-- One break of a folded line, before the breaks of the empty lines that follow it. -/
def foldBreak (first : Char) (more : List Char) : List Char :=
  if first ≠ '\n' then first :: more
  else if more.isEmpty then [' ']
  else more

section Plain

/-- Where a plain scalar stops: at a blank, at a colon before a blank and, inside a flow
collection, at its indicators. -/
def stopsPlain (flow : Bool) (c : Char) (next : Option Char) : Bool :=
  isBlank (some c)
    || (c = ':' && (isBlank next || (flow && next.any fun a => [',', '[', ']', '\x7b', '\x7d'].contains a)))
    || (flow && [',', '?', '[', ']', '\x7b', '\x7d'].contains c)

def plainRun (flow : Bool) : List Char → List Char
  | [] => []
  | c :: rest => if stopsPlain flow c rest.head? then [] else c :: plainRun flow rest

/-- Empty lines and indentation after a break, and whether they end at a separator. -/
def plainBreaks : Nat → Cursor → List Char × Bool × Cursor
  | 0, c => ([], false, c)
  | fuel + 1, c =>
      if c.atSeparator && c.column = 0 then ([], true, c)
      else if c.peek = some ' ' then plainBreaks fuel c.next
      else
        match c.lineBreak? with
        | none => ([], false, c)
        | some (b, after) =>
            let (more, separated, last) := plainBreaks fuel after
            (b :: more, separated, last)

/-- The blanks between two runs of a plain scalar: their text, whether they cross a line, and
the place after them. No text means that the scalar ends here. -/
def plainSpaces (c : Cursor) : List Char × Bool × Cursor :=
  let (spaces, after) := c.span (· = ' ')
  match after.lineBreak? with
  | none => (spaces, false, after)
  | some (b, next) =>
      let (more, separated, last) := plainBreaks (next.rest.length + 1) next
      (if separated then [] else foldBreak b more, true, last)

/-- Runs of a plain scalar, the first after the given blanks, and whether the last blanks
crossed a line. -/
def plainRuns (flow : Bool) (indent : Int) :
    Nat → (blanks : List Char) → (crossed : Bool) → Cursor → ScalarText × Bool
  | 0, _, crossed, c => (⟨[], c⟩, crossed)
  | fuel + 1, blanks, crossed, c =>
      let run := plainRun flow c.rest
      if c.peek = some '#' || run.isEmpty then (⟨[], c⟩, crossed)
      else
        let (spaces, crossed, next) := plainSpaces (c.skip run.length)
        if spaces.isEmpty || next.peek = some '#' || (!flow && next.column < indent) then
          (⟨blanks ++ run, next⟩, crossed)
        else
          let (tail, crossed) := plainRuns flow indent fuel spaces crossed next
          (⟨blanks ++ run ++ tail.text, tail.after⟩, crossed)

/-- The plain scalar at a cursor, inside a flow collection or below an indentation, and
whether a line was crossed after it. -/
def plainScalar (flow : Bool) (indent : Int) (c : Cursor) : ScalarText × Bool :=
  plainRuns flow indent (c.rest.length + 1) [] false c

end Plain

section Quoted

/-- Empty lines inside a quoted scalar. -/
def quotedBreaks : Nat → Cursor → Except Error (List Char × Cursor)
  | 0, c => .ok ([], c)
  | fuel + 1, c =>
      if c.atSeparator then .error (.malformed .separatorInQuote c.mark)
      else
        let c := c.skipWhile fun a => a = ' ' || a = '\t'
        match c.lineBreak? with
        | none => .ok ([], c)
        | some (b, after) => (quotedBreaks fuel after).map fun (more, c) => (b :: more, c)

/-- Blanks inside a quoted scalar: kept within a line, folded across lines. -/
def quotedSpaces (c : Cursor) : Except Error (List Char × Cursor) :=
  let (spaces, after) := c.span fun a => a = ' ' || a = '\t'
  match after.lineBreak? with
  | some (b, next) =>
      (quotedBreaks (next.rest.length + 1) next).map fun (more, c) => (foldBreak b more, c)
  | none =>
      if after.atEnd then .error (.malformed .unclosedQuote after.mark) else .ok (spaces, after)

/-- What a letter after a backslash stands for. -/
def escapedChar? (c : Char) : Option Char :=
  match c with
  | '0' => some '\x00'
  | 'a' => some '\x07'
  | 'b' => some '\x08'
  | 't' | '\t' => some '\t'
  | 'n' => some '\n'
  | 'v' => some '\x0b'
  | 'f' => some '\x0c'
  | 'r' => some '\r'
  | 'e' => some '\x1b'
  | ' ' => some ' '
  | '"' => some '"'
  | '\\' => some '\\'
  | '/' => some '/'
  | 'N' => some '\x85'
  | '_' => some '\xa0'
  | 'L' => some '\u2028'
  | 'P' => some '\u2029'
  | _ => none

/-- How many hexadecimal digits a letter after a backslash asks for. -/
def escapeWidth? (c : Char) : Option Nat :=
  match c with
  | 'x' => some 2
  | 'u' => some 4
  | 'U' => some 8
  | _ => none

/-- The number that exactly `width` hexadecimal digits spell. -/
def hexNumber? (width : Nat) (text : List Char) : Option Nat :=
  let digits := text.take width
  if digits.length < width then none
  else digits.foldl (fun n c => do return (← n) * 16 + (← Text.hexValue? c)) (some 0)

/-- The code point of a number, in characters; beyond the last one there is none. -/
def codePoint (n : Nat) : Except Error (List Char) :=
  if n < 0x110000 then .ok (Text.ofCode n)
  else if n < 0x80000000 then .error (.unreadable .characterTooLarge)
  else .error (.unreadable .characterOverflow)

/-- What an escape stands for. The cursor is at the letter after the backslash. -/
def escape (c : Cursor) : Except Error (List Char × Cursor) :=
  let unknown := Except.error (.malformed .badEscape c.mark)
  match c.peek with
  | none => unknown
  | some a =>
      match escapedChar? a, escapeWidth? a with
      | some plain, _ => .ok ([plain], c.next)
      | none, some width =>
          match hexNumber? width c.next.rest with
          | none => unknown
          | some n => (codePoint n).map fun text => (text, c.next.skip width)
      | none, none =>
          match c.lineBreak? with
          | none => unknown
          | some (_, after) => quotedBreaks (after.rest.length + 1) after

/-- A quoted scalar from after its opening quote to after its closing one. -/
def quotedFrom (double : Bool) : Nat → Cursor → Except Error (List Char × Cursor)
  | 0, c => .error (.malformed .unclosedQuote c.mark)
  | fuel + 1, c => do
      match c.peek with
      | none => .error (.malformed .unclosedQuote c.mark)
      | some a =>
          if isBlank (some a) then
            let (text, after) ← quotedSpaces c
            let (more, last) ← quotedFrom double fuel after
            return (text ++ more, last)
          else if double && a = '\\' then
            let (text, after) ← escape c.next
            let (more, last) ← quotedFrom double fuel after
            return (text ++ more, last)
          else if double && a = '"' then return ([], c.next)
          else if !double && a = '\'' then
            if c.peekAt 1 = some '\'' then
              let (more, last) ← quotedFrom double fuel c.next.next
              return ('\'' :: more, last)
            else return ([], c.next)
          else
            let (more, last) ← quotedFrom double fuel c.next
            return (a :: more, last)

/-- The quoted scalar at a cursor, which stands at its opening quote. -/
def quotedScalar (double : Bool) (c : Cursor) : Except Error ScalarText := do
  let (text, after) ← quotedFrom double (c.rest.length + 1) c.next
  return ⟨text, after⟩

end Quoted

section Block

/-- What becomes of the line breaks at the end of a block scalar. -/
inductive Chomping where
  | clip
  | strip
  | keep
  deriving DecidableEq, Repr

def chomping? (c : Option Char) : Option Chomping :=
  if c = some '+' then some .keep else if c = some '-' then some .strip else none

/-- A digit for the indentation. -/
def increment? (c : Option Char) : Option Nat :=
  c.bind fun a => if a.isDigit then some (a.toNat - 48) else none

/-- The indicators after `|` or `>`, in either order. -/
def blockIndicators (c : Cursor) : Except Error (Chomping × Option Nat × Cursor) := do
  let (chomping, increment, after) :=
    match chomping? c.peek with
    | some chomping =>
        match increment? c.next.peek with
        | some n => (chomping, some n, c.next.next)
        | none => (chomping, none, c.next)
    | none =>
        match increment? c.peek with
        | some n =>
            match chomping? c.next.peek with
            | some chomping => (chomping, some n, c.next.next)
            | none => (.clip, some n, c.next)
        | none => (.clip, none, c)
  if increment = some 0 || !endsWord after.peek then
    throw (.malformed .badBlockHeader after.mark)
  return (chomping, increment, after)

/-- The rest of a header line: blanks and a comment. -/
def headerEnd (cause : Malformed) (c : Cursor) : Except Error Cursor :=
  let c := c.skipSpaces
  let c := if c.peek = some '#' then c.line.2 else c
  match c.lineBreak? with
  | some (_, after) => .ok after
  | none => if c.atEnd then .ok c else .error (.malformed cause c.mark)

/-- Leading empty lines, and the widest indentation among them and the first line. -/
def blockIndentation : Nat → (widest : Nat) → Cursor → List Char × Nat × Cursor
  | 0, widest, c => ([], widest, c)
  | fuel + 1, widest, c =>
      if c.peek = some ' ' then blockIndentation fuel (max widest c.next.column) c.next
      else
        match c.lineBreak? with
        | none => ([], widest, c)
        | some (b, after) =>
            let (more, widest, last) := blockIndentation fuel widest after
            (b :: more, widest, last)

/-- Blanks up to an indentation. -/
def indentTo (indent : Nat) : Nat → Cursor → Cursor
  | 0, c => c
  | fuel + 1, c => if c.column < indent && c.peek = some ' ' then indentTo indent fuel c.next else c

/-- Empty lines between the lines of a block scalar. -/
def blockBreaks (indent : Nat) : Nat → Cursor → List Char × Cursor
  | 0, c => ([], c)
  | fuel + 1, c =>
      let c := indentTo indent indent c
      match c.lineBreak? with
      | none => ([], c)
      | some (b, after) =>
          let (more, last) := blockBreaks indent fuel after
          (b :: more, last)

/-- The lines of a block scalar, the break that ends the last, and the empty lines after it. -/
structure BlockText where
  text : List Char
  lineEnd : List Char
  empty : List Char
  after : Cursor

/-- What joins two lines: a folded scalar drops a line feed between lines that do not begin
with a blank, for a space when no empty line stands between them. -/
def blockJoint (folded : Bool) (lineEnd empty : List Char) (first second : Option Char) : List Char :=
  let leading (c : Option Char) : Bool := c = some ' ' || c = some '\t'
  if folded && lineEnd = ['\n'] && !leading first && !leading second then
    (if empty.isEmpty then [' '] else [])
  else lineEnd

/-- Lines of a block scalar after some empty ones, up to the first that is indented less. -/
def blockLines (folded : Bool) (indent : Nat) : Nat → (empty : List Char) → Cursor → BlockText
  | 0, empty, c => ⟨[], [], empty, c⟩
  | fuel + 1, empty, c =>
      if c.column ≠ indent || c.atEnd then ⟨[], [], empty, c⟩
      else
        let (text, after) := c.line
        let (lineEnd, after) := match after.lineBreak? with
          | none => ([], after)
          | some (b, next) => ([b], next)
        let (more, next) := blockBreaks indent (after.rest.length + 1) after
        if next.column ≠ indent || next.atEnd then ⟨empty ++ text, lineEnd, more, next⟩
        else
          let tail := blockLines folded indent fuel more next
          let joint := blockJoint folded lineEnd more c.peek next.peek
          ⟨empty ++ text ++ joint ++ tail.text, tail.lineEnd, tail.empty, tail.after⟩

/-- The block scalar at a cursor, which stands at its indicator, inside a block of the given
indentation. -/
def blockScalar (folded : Bool) (indent : Int) (c : Cursor) : Except Error ScalarText := do
  let (chomping, increment, after) ← blockIndicators c.next
  let body ← headerEnd .badBlockHeader after
  let least := (max (indent + 1) 1).toNat
  let fuel := body.rest.length + 1
  let (indent, empty, first) :=
    match increment with
    | none =>
        let (empty, widest, first) := blockIndentation fuel 0 body
        (max least widest, empty, first)
    | some n =>
        let indent := least + n - 1
        (indent, blockBreaks indent fuel body)
  let lines := blockLines folded indent fuel empty first
  let ending := match chomping with
    | .clip => lines.lineEnd
    | .strip => []
    | .keep => lines.lineEnd ++ lines.empty
  return ⟨lines.text ++ ending, lines.after⟩

end Block

end VoiceIntents.Yaml
