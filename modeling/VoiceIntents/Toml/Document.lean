import VoiceIntents.Host
import VoiceIntents.Text.Encoding
import VoiceIntents.Toml.Atom
import VoiceIntents.Toml.Table

/-!
# TOML documents

A document is a list of statements, one a line: a section header or an entry of the section.
Each statement is applied to the tables before the next one is read, so the first fault of a
text is the one reported.
-/

namespace VoiceIntents.Toml

/-- The text after blanks, line ends and comments. Each pass takes a character. -/
def skipFiller : Nat → List Char → Except Error (List Char)
  | 0, text => .ok text
  | fuel + 1, text => do
      let rest ← skipComment (text.dropWhile fun c => isBlank c || c = '\n')
      if rest.length = text.length then return text else skipFiller fuel rest

def skipToItem (text : List Char) : Except Error (List Char) := skipFiller text.length text

def word (word : String) (text : List Char) : Option (List Char) :=
  if word.toList.isPrefixOf text then some (text.drop word.length) else none

/-- The room that an array takes. -/
def arrayRoom : Nat := 2

/-- The room that an inline table takes. -/
def tableRoom : Nat := 3

/-- The room inside a collection, unless there is too little for it. -/
def enter (room taken : Nat) : Except Error Nat :=
  if room < taken then .error (.unreadable .tooDeep) else .ok (room - taken)

mutual

/-- The value at the start of a text, with some room for values inside it. -/
def readValue (room : Nat) : Nat → List Char → Except Error (Taken Value)
  | 0, text => fail .noValue text
  | fuel + 1, text =>
      match text with
      | [] => fail .noValue []
      | c :: rest =>
          if c = '"' || c = '\'' then do
            let (text, rest) ← quotedText c rest
            return (.text (String.ofList text), rest)
          else if c = '[' then do
            let inside ← enter room arrayRoom
            let (items, rest) ← readItems inside fuel (← skipToItem rest)
            return (.list items, rest)
          else if c = '\x7b' then do
            let inside ← enter room tableRoom
            match skipBlanks rest with
            | '\x7d' :: rest => return (.map [], rest)
            | rest =>
                let (entries, rest) ← readPairs inside fuel [] rest
                return (.map (Node.entryValues entries), rest)
          else match word "true" text with
          | some rest => .ok (.bool true, rest)
          | none =>
              match word "false" text with
              | some rest => .ok (.bool false, rest)
              | none => do
                  let (s, rest) ← readAtom text
                  return (.scalar s, rest)

/-- The rest of an array; a comma may stand before its end. -/
def readItems (room : Nat) : Nat → List Char → Except Error (Taken (List Value))
  | _, ']' :: rest => .ok ([], rest)
  | 0, text => fail .unclosedArray text
  | fuel + 1, text => do
      let (item, rest) ← readValue room fuel text
      match ← skipToItem rest with
      | ',' :: rest => do
          let (items, rest) ← readItems room fuel (← skipToItem rest)
          return (item :: items, rest)
      | ']' :: rest => return ([item], rest)
      | rest => fail .unclosedArray rest

/-- The entries of an inline table, which is on one line and has no comma before its end. -/
def readPairs (room : Nat) : Nat → Entries → List Char → Except Error (Taken Entries)
  | 0, _, text => fail .unclosedTable text
  | fuel + 1, entries, text => do
      let (key, rest) ← readKey text
      match rest with
      | '=' :: rest => do
          let (value, rest) ← readValue room fuel (skipBlanks rest)
          match entries.changeAbove (Entries.add · value) key with
          | none => fail .repeatedKey rest
          | some entries =>
              match skipBlanks rest with
              | '\x7d' :: rest => return (entries, rest)
              | ',' :: rest => readPairs room fuel entries (skipBlanks rest)
              | rest => fail .unclosedTable rest
      | rest => fail .noEquals rest

end

inductive Statement where
  | table (path : Key)
  | tables (path : Key)
  | entry (path : Key) (value : Value)
  deriving Repr

/-- A table header after its bracket. -/
def readHeader (text : List Char) : Except Error (Taken Statement) := do
  let (path, rest) ← readKey (skipBlanks text)
  match rest with
  | ']' :: rest => return (.table path, rest)
  | _ => fail .unclosedHeader rest

/-- The header of an array of tables after its two brackets. -/
def readArrayHeader (text : List Char) : Except Error (Taken Statement) := do
  let (path, rest) ← readKey (skipBlanks text)
  match rest with
  | ']' :: ']' :: rest => return (.tables path, rest)
  | _ => fail .unclosedHeader rest

/-- A key with its value. Each level of nesting takes two steps and a character at least. -/
def readEntry [Host] (text : List Char) : Except Error (Taken Statement) := do
  let (path, rest) ← readKey text
  match rest with
  | '=' :: rest => do
      let (value, rest) ← readValue Host.nestingRoom (2 * rest.length + 2) (skipBlanks rest)
      return (.entry path value, rest)
  | _ => fail .noEquals rest

/-- The statement at the start of a line, if it has one. -/
def readStatement [Host] (text : List Char) : Except Error (Taken (Option Statement)) :=
  match text with
  | [] => .ok (none, [])
  | '[' :: '[' :: rest => (readArrayHeader rest).map fun (s, rest) => (some s, rest)
  | '[' :: rest => (readHeader rest).map fun (s, rest) => (some s, rest)
  | c :: _ =>
      if isBare c || c = '"' || c = '\'' then
        (readEntry text).map fun (s, rest) => (some s, rest)
      else if c = '#' || c = '\n' then .ok (none, text)
      else fail .noStatement text

/-- The tables so far. `closed` holds the paths of tables that no header and no dotted key may
open again, and `passed` those that dotted keys of this section pass through: they close when
the section ends. -/
structure Document where
  entries : Entries := []
  header : Key := []
  closed : List Key := []
  passed : List Key := []
  deriving Repr

namespace Document

/-- A header ends a section. -/
def endSection (d : Document) : Document :=
  { d with closed := d.passed ++ d.closed, passed := [] }

/-- The paths of the tables between a section and the last name of a dotted key. -/
def between (header path : Key) : List Key :=
  (List.range (path.length - 1)).map fun i => header ++ path.take (i + 1)

/-- Applies one statement. A new table of an array starts with none of its tables closed. -/
def apply (d : Document) : Statement → Except Malformed Document
  | .table path =>
      let d := d.endSection
      if path ∈ d.closed then .error .closedTable
      else match d.entries.openTable path with
      | none => .error .repeatedKey
      | some entries => .ok { d with entries, header := path, closed := path :: d.closed }
  | .tables path =>
      let d := d.endSection
      match d.entries.changeAbove Entries.addTable path with
      | none => .error .repeatedKey
      | some entries =>
          let closed := d.closed.filter fun other => !path.isPrefixOf other
          .ok { d with entries, header := path, closed := path :: closed }
  | .entry path value =>
      let tables := between d.header path
      if tables.any (· ∈ d.closed) then .error .closedTable
      else match d.entries.changeAbove (Entries.add · value) (d.header ++ path) with
      | none => .error .repeatedKey
      | some entries => .ok { d with entries, passed := tables ++ d.passed }

/-- Applies the statement of a line, if it has one. Its faults stand at the end of the line. -/
def applyLine (d : Document) (statement : Option Statement) (rest : List Char) :
    Except Error Document :=
  match statement with
  | none => .ok d
  | some statement =>
      match d.apply statement with
      | .ok d => .ok d
      | .error cause => fail cause rest

/-- Reads line after line. Each line takes a character at least. -/
def readLines [Host] : Nat → Document → List Char → Except Error Document
  | 0, d, _ => .ok d
  | fuel + 1, d, text => do
      let (statement, rest) ← readStatement (skipBlanks text)
      let d ← d.applyLine statement rest
      match ← skipComment (skipBlanks rest) with
      | [] => return d
      | '\n' :: rest => readLines fuel d rest
      | rest => fail .trailingText rest

end Document

/-- The entries of the outermost table of a TOML text. -/
def readDocument [Host] (text : String) : Except Error (List (Scalar × Value)) :=
  let lines := Text.dropReturns text.toList
  (Document.readLines (lines.length + 1) {} lines).map fun d => Node.entryValues d.entries

end VoiceIntents.Toml
