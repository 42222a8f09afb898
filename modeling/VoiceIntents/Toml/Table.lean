import VoiceIntents.Toml.Quotation
import VoiceIntents.Value.Basic

/-!
# Keys and tables

The names of a document and the tables that they lead to.
-/

/-!
## Keys

A key is a path of names with dots between them. A name is bare, or a quoted text on one line.
-/

namespace VoiceIntents.Toml

/-- The names on the way to a table or value. -/
abbrev Key := List String

def isBare (c : Char) : Bool := c.isAlphanum || c = '-' || c = '_'

/-- The name at the start of a text. -/
def readName (text : List Char) : Except Error (Taken String) :=
  match text with
  | [] => fail .badKey []
  | c :: rest =>
      if isBare c then
        let name := text.takeWhile isBare
        .ok (String.ofList name, text.drop name.length)
      else if c = '\'' || c = '"' then do
        let (name, rest) ← lineText c rest
        return (String.ofList name, rest)
      else fail .badKey text

/-- The names of a key and the blanks after them; at most `fuel` names. -/
def readNames : Nat → List Char → Except Error (Taken Key)
  | 0, text => fail .badKey text
  | fuel + 1, text => do
      let (name, rest) ← readName text
      match skipBlanks rest with
      | '.' :: rest => do
          let (names, rest) ← readNames fuel (skipBlanks rest)
          return (name :: names, rest)
      | rest => return ([name], rest)

/-- The key at the start of a text. Every name takes a character, so there are no more names
than characters. -/
def readKey (text : List Char) : Except Error (Taken Key) := readNames (text.length + 1) text

end VoiceIntents.Toml

/-!
## Tables

Tables under construction. A value is whole once it is written, while tables and the last
table of an array can get more entries.
-/

namespace VoiceIntents.Toml

/-- What stands under a name: a finished value, a table, or an array of tables with its last
table apart. -/
inductive Node where
  | value (v : Value)
  | table (entries : List (String × Node))
  | tables (earlier : List (List (String × Node))) (last : List (String × Node))
  deriving Repr

/-- The entries of a table, in the order of their first mention. -/
abbrev Entries := List (String × Node)

mutual

def Node.toValue : Node → Value
  | .value v => v
  | .table entries => .map (Node.entryValues entries)
  | .tables earlier last => .list (Node.tableValues earlier ++ [.map (Node.entryValues last)])

def Node.entryValues : List (String × Node) → List (Scalar × Value)
  | [] => []
  | (name, node) :: rest => (.text name, node.toValue) :: Node.entryValues rest

def Node.tableValues : List (List (String × Node)) → List Value
  | [] => []
  | entries :: rest => .map (Node.entryValues entries) :: Node.tableValues rest

end

namespace Entries

def get? (entries : Entries) (name : String) : Option Node :=
  (entries.find? fun entry => entry.1 = name).map (·.2)

/-- The entries with another node under a name; a new name comes last. -/
def put (name : String) (node : Node) : Entries → Entries
  | [] => [(name, node)]
  | (other, old) :: rest =>
      if other = name then (name, node) :: rest else (other, old) :: put name node rest

/-- Changes the table at the end of a path, making the tables on the way that are missing. In
an array of tables the way goes on in the last one, and no way leads through a value. -/
def change (f : Entries → Option Entries) : Key → Entries → Option Entries
  | [], entries => f entries
  | name :: path, entries =>
      match entries.get? name with
      | none => (change f path []).map fun inner => entries.put name (.table inner)
      | some (.table inner) => (change f path inner).map fun inner => entries.put name (.table inner)
      | some (.tables earlier last) =>
          (change f path last).map fun last => entries.put name (.tables earlier last)
      | some (.value _) => none

/-- Opens the table of a path. -/
def openTable (path : Key) (entries : Entries) : Option Entries := change some path entries

/-- Adds a name that the table does not have yet. -/
def add (name : String) (v : Value) (entries : Entries) : Option Entries :=
  match entries.get? name with
  | none => some (entries.put name (.value v))
  | some _ => none

/-- Starts another table of an array of tables. -/
def addTable (name : String) (entries : Entries) : Option Entries :=
  match entries.get? name with
  | none => some (entries.put name (.tables [] []))
  | some (.tables earlier last) => some (entries.put name (.tables (earlier ++ [last]) []))
  | some _ => none

/-- Changes the table above the last name of a path. -/
def changeAbove (f : String → Entries → Option Entries) (path : Key) (entries : Entries) :
    Option Entries :=
  match path.getLast? with
  | none => none
  | some name => change (f name) path.dropLast entries

end Entries

end VoiceIntents.Toml
