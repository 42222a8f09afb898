import VoiceIntents.Yaml.Token.Property

/-!
# Token streams

A YAML text as a stream of tokens. Whether a node is the key of a mapping shows only at the
colon after it, so tokens are held back while the first of them may still turn out to be one.
A stream gives the tokens up to the first error of the text, and the error.
-/

namespace VoiceIntents.Yaml

/-- A node that may be a simple key: the number of its first token and where it begins. At the
indentation of its block it has to be one. -/
structure SimpleKey where
  number : Nat
  required : Bool
  mark : Mark
  deriving Repr

/-- Reading between two tokens: those held back, the number of tokens let go, the indentation
of the open blocks, and the possible keys, one for each level of flow collections. -/
structure Scanner where
  cursor : Cursor
  held : List Token
  released : Nat
  flow : Nat
  indent : Int
  outer : List Int
  keyAllowed : Bool
  keys : List (Nat × SimpleKey)
  done : Bool

namespace Scanner

def start (text : List Char) : Scanner :=
  { cursor := .start text, held := [], released := 0, flow := 0, indent := -1, outer := [],
    keyAllowed := true, keys := [], done := false }

def inFlow (s : Scanner) : Bool := s.flow ≠ 0

def push (s : Scanner) (token : Token) : Scanner := { s with held := s.held ++ [token] }

/-- A token that takes no characters. -/
def mark (kind : TokenKind) (m : Mark) : Token := ⟨kind, m, m⟩

/-- The next `length` characters as a token. -/
def take (s : Scanner) (kind : TokenKind) (length : Nat) : Scanner :=
  let after := s.cursor.skip length
  { s.push ⟨kind, s.cursor.mark, after.mark⟩ with cursor := after }

/-- A simple key ends on its line, within 1024 characters. -/
def isStale (s : Scanner) (key : SimpleKey) : Bool :=
  key.mark.line ≠ s.cursor.mark.line || 1024 < s.cursor.mark.index - key.mark.index

/-- Gives up the keys that can no longer be ones. -/
def dropStale (s : Scanner) : Except Error Scanner :=
  match s.keys.find? fun entry => s.isStale entry.2 && entry.2.required with
  | some (_, key) => .error (.malformed .simpleKeyUnfinished key.mark)
  | none => .ok { s with keys := s.keys.filter fun entry => !s.isStale entry.2 }

/-- Gives up the possible key of the current level. -/
def dropKey (s : Scanner) : Except Error Scanner :=
  match s.keys.lookup s.flow with
  | none => .ok s
  | some key =>
      if key.required then .error (.malformed .simpleKeyUnfinished key.mark)
      else .ok { s with keys := s.keys.filter fun entry => entry.1 ≠ s.flow }

/-- The next token may begin a simple key. -/
def saveKey (s : Scanner) : Except Error Scanner := do
  if !s.keyAllowed then return s
  let s ← s.dropKey
  let key : SimpleKey :=
    { number := s.released + s.held.length
      required := !s.inFlow && s.indent = (s.cursor.column : Int)
      mark := s.cursor.mark }
  return { s with keys := s.keys ++ [(s.flow, key)] }

/-- Closes the blocks that are indented deeper than a column. -/
def closeBlocks (column : Int) : List Int → Scanner → Scanner
  | [], s => s
  | outer :: rest, s =>
      if column < s.indent then
        closeBlocks column rest
          { s.push (mark .blockEnd s.cursor.mark) with indent := outer, outer := rest }
      else s

/-- Inside flow collections indentation has no meaning. -/
def unwind (s : Scanner) (column : Int) : Scanner :=
  if s.inFlow then s else closeBlocks column s.outer s

/-- Opens a block at a column that is deeper than the current one. -/
def openBlock (s : Scanner) (column : Nat) (kind : TokenKind) : Scanner :=
  if s.indent < (column : Int) then
    { s.push (mark kind s.cursor.mark) with indent := column, outer := s.indent :: s.outer }
  else s

/-- Spaces, comments and line breaks before a token. After a line break outside of flow
collections a simple key may begin. -/
def skipToToken : Nat → Scanner → Scanner
  | 0, s => s
  | fuel + 1, s =>
      let c := s.cursor.skipSpaces
      let c := if c.peek = some '#' then c.line.2 else c
      match c.lineBreak? with
      | none => { s with cursor := c }
      | some (_, after) =>
          skipToToken fuel { s with cursor := after, keyAllowed := s.keyAllowed || !s.inFlow }

def fetchStreamEnd (s : Scanner) : Except Error Scanner := do
  let s ← (s.unwind (-1)).dropKey
  return { s.push (mark .streamEnd s.cursor.mark) with
    keyAllowed := false, keys := [], done := true }

def fetchDirective (s : Scanner) : Except Error Scanner := do
  let s ← (s.unwind (-1)).dropKey
  let (directive, after) ← directiveLine s.cursor
  return { s.push ⟨.directive directive, s.cursor.mark, after.mark⟩ with
    cursor := after, keyAllowed := false }

def fetchSeparator (s : Scanner) (kind : TokenKind) : Except Error Scanner := do
  let s ← (s.unwind (-1)).dropKey
  return { s.take kind 3 with keyAllowed := false }

def fetchFlowStart (s : Scanner) (kind : TokenKind) : Except Error Scanner := do
  let s ← s.saveKey
  return { s.take kind 1 with flow := s.flow + 1, keyAllowed := true }

/-- A bracket that closes nothing leaves the level at zero; nothing is read past it. -/
def fetchFlowEnd (s : Scanner) (kind : TokenKind) : Except Error Scanner := do
  let s ← s.dropKey
  return { s.take kind 1 with flow := s.flow - 1, keyAllowed := false }

def fetchFlowEntry (s : Scanner) : Except Error Scanner := do
  let s ← s.dropKey
  return { s.take .flowEntry 1 with keyAllowed := true }

/-- The start of a block, where one may begin. -/
def fetchBlock (s : Scanner) (kind : TokenKind) (cause : Malformed) : Except Error Scanner :=
  if s.inFlow then .ok s
  else if !s.keyAllowed then .error (.malformed cause s.cursor.mark)
  else .ok (s.openBlock s.cursor.column kind)

def fetchBlockEntry (s : Scanner) : Except Error Scanner := do
  let s ← s.fetchBlock .blockSequenceStart .entryNotAllowed
  let s ← s.dropKey
  return { s.take .blockEntry 1 with keyAllowed := true }

def fetchKey (s : Scanner) : Except Error Scanner := do
  let s ← s.fetchBlock .blockMappingStart .keyNotAllowed
  let s ← s.dropKey
  return { s.take .key 1 with keyAllowed := !s.inFlow }

/-- Puts tokens before the held one of a number. -/
def insertAt (s : Scanner) (number : Nat) (tokens : List Token) : Scanner :=
  let place := number - s.released
  { s with held := s.held.take place ++ tokens ++ s.held.drop place }

/-- A colon after a possible key makes it one; the key and the block that it opens are put
before it. -/
def fetchValue (s : Scanner) : Except Error Scanner := do
  match s.keys.lookup s.flow with
  | some key =>
      let s := { s with keys := s.keys.filter fun entry => entry.1 ≠ s.flow }
      let opens := !s.inFlow && s.indent < (key.mark.column : Int)
      let tokens :=
        (if opens then [mark .blockMappingStart key.mark] else []) ++ [mark .key key.mark]
      let s := s.insertAt key.number tokens
      let s := if opens then
        { s with indent := key.mark.column, outer := s.indent :: s.outer } else s
      return { s.take .value 1 with keyAllowed := false }
  | none =>
      let s ← s.fetchBlock .blockMappingStart .valueNotAllowed
      let s ← s.dropKey
      return { s.take .value 1 with keyAllowed := !s.inFlow }

/-- A property or scalar, which may begin a simple key. -/
def fetchNode (s : Scanner) (read : Scanner → Except Error (TokenKind × Cursor)) :
    Except Error Scanner := do
  let s ← s.saveKey
  let (kind, after) ← read s
  return { s.push ⟨kind, s.cursor.mark, after.mark⟩ with cursor := after, keyAllowed := false }

def fetchAnchor (s : Scanner) (kind : String → TokenKind) : Except Error Scanner :=
  s.fetchNode fun s => do
    let (name, after) ← anchorName s.cursor
    return (kind name, after)

def fetchTag (s : Scanner) : Except Error Scanner :=
  s.fetchNode fun s => do
    let (handle, suffix, after) ← tagName s.cursor
    return (.tag handle suffix, after)

def fetchQuoted (s : Scanner) (double : Bool) : Except Error Scanner :=
  s.fetchNode fun s => do
    let scalar ← quotedScalar double s.cursor
    return (.scalar (String.ofList scalar.text) false, scalar.after)

def fetchPlain (s : Scanner) : Except Error Scanner := do
  let s ← s.saveKey
  let (scalar, crossed) := plainScalar s.inFlow (s.indent + 1) s.cursor
  let token : Token := ⟨.scalar (String.ofList scalar.text) true, s.cursor.mark, scalar.after.mark⟩
  return { s.push token with cursor := scalar.after, keyAllowed := crossed }

def fetchBlockScalar (s : Scanner) (folded : Bool) : Except Error Scanner := do
  let s ← s.dropKey
  let scalar ← blockScalar folded s.indent s.cursor
  let token : Token := ⟨.scalar (String.ofList scalar.text) false, s.cursor.mark, scalar.after.mark⟩
  return { s.push token with cursor := scalar.after, keyAllowed := true }

/-- Characters that cannot begin a plain scalar. -/
def indicators : List Char := "-?:,[]\x7b\x7d#&*!|>'\"%@\x60".toList

def beginsPlain (flow : Bool) (c : Char) (next : Option Char) : Bool :=
  (!isBlank (some c) && !indicators.contains c)
    || (!isBlank next && (c = '-' || (!flow && (c = '?' || c = ':'))))

/-- Reads one more token, with the block tokens before it. -/
def fetch (s : Scanner) : Except Error Scanner := do
  let s := if s.cursor.mark.index = 0 && s.cursor.peek = some '\ufeff' then
    { s with cursor := s.cursor.next } else s
  let s := skipToToken (s.cursor.rest.length + 1) s
  let s ← s.dropStale
  let s := s.unwind s.cursor.column
  let column := s.cursor.column
  let next := s.cursor.peekAt 1
  match s.cursor.peek with
  | none => s.fetchStreamEnd
  | some c =>
      if c = '%' && column = 0 then s.fetchDirective
      else if column = 0 && s.cursor.atSeparator then
        s.fetchSeparator (if c = '-' then .documentStart else .documentEnd)
      else if c = '[' then s.fetchFlowStart .flowSequenceStart
      else if c = '\x7b' then s.fetchFlowStart .flowMappingStart
      else if c = ']' then s.fetchFlowEnd .flowSequenceEnd
      else if c = '\x7d' then s.fetchFlowEnd .flowMappingEnd
      else if c = ',' then s.fetchFlowEntry
      else if c = '-' && isBlank next then s.fetchBlockEntry
      else if c = '?' && (s.inFlow || isBlank next) then s.fetchKey
      else if c = ':' && (s.inFlow || isBlank next) then s.fetchValue
      else if c = '*' then s.fetchAnchor .alias
      else if c = '&' then s.fetchAnchor .anchor
      else if c = '!' then s.fetchTag
      else if c = '|' && !s.inFlow then s.fetchBlockScalar false
      else if c = '>' && !s.inFlow then s.fetchBlockScalar true
      else if c = '\'' then s.fetchQuoted false
      else if c = '"' then s.fetchQuoted true
      else if beginsPlain s.inFlow c next then s.fetchPlain
      else .error (.malformed .noToken s.cursor.mark)

/-- The first held token may still turn out to be a key. -/
def waits (s : Scanner) : Bool := s.keys.any fun entry => entry.2.number = s.released

end Scanner

/-- The tokens of a text up to its first error, and the error. -/
structure TokenStream where
  tokens : List Token
  error : Option Error

namespace TokenStream

/-- Lets a token go, or reads more of them. -/
def step (s : Scanner) : Except Error (Option Token × Scanner) := do
  match s.held with
  | [] => return (none, ← s.fetch)
  | token :: rest =>
      let s ← s.dropStale
      if s.waits then return (none, ← s.fetch)
      else return (some token, { s with held := rest, released := s.released + 1 })

/-- Takes step after step, until the text ends. -/
def collect : Nat → Scanner → TokenStream
  | 0, s => ⟨s.held, none⟩
  | fuel + 1, s =>
      if s.done then ⟨s.held, none⟩
      else
        match step s with
        | .error e => ⟨[], some e⟩
        | .ok (token, s) =>
            let later := collect fuel s
            ⟨token.toList ++ later.tokens, later.error⟩

/-- Characters that a YAML text may hold. -/
def isAllowed (c : Char) : Bool :=
  let n := c.toNat
  n = 0x9 || n = 0xA || n = 0xD || (0x20 ≤ n && n ≤ 0x7E) || n = 0x85
    || (0xA0 ≤ n && n ≤ 0xFFFD) || 0x10000 ≤ n

/-- The tokens of a text. Every character is read or let go in a handful of steps. -/
def ofText (text : List Char) : TokenStream :=
  if text.all isAllowed then collect (8 * text.length + 16) (.start text)
  else ⟨[], some (.malformed .specialCharacter ⟨0, 0, 0⟩)⟩

end TokenStream

end VoiceIntents.Yaml
