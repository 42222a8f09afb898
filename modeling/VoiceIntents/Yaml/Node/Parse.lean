import VoiceIntents.Host
import VoiceIntents.Yaml.Node.Basic
import VoiceIntents.Yaml.Token.Stream

/-!
# Graphs from tokens

Reads the node graph of the single document of a token stream. A node is numbered when it
begins, and its anchor can be referred to from inside it. Where a token is asked for beyond
the end of the stream, the error of the stream is met.

The readers run on fuel; each call in a chain of calls takes a token or opens a collection,
so a small multiple of the number of tokens is enough.
-/

namespace VoiceIntents.Yaml

/-- Reading between two tokens: those that remain, the error after them, the tag handles, the
anchors and nodes so far, and the collections that are open. -/
structure Reading where
  tokens : List Token
  error : Option Error
  handles : List (String × String)
  anchors : List (String × NodeId)
  graph : Graph
  rules : List ImplicitRule
  depth : Nat

abbrev Read := StateT Reading (Except Error)

namespace Read

def fail {α : Type} (cause : Malformed) (mark : Mark) : Read α :=
  throw (.malformed cause mark)

def endToken : Token := ⟨.streamEnd, ⟨0, 0, 0⟩, ⟨0, 0, 0⟩⟩

def peek : Read Token := do
  match (← get).tokens, (← get).error with
  | token :: _, _ => return token
  | [], some error => throw error
  | [], none => return endToken

def peekKind : Read TokenKind := return (← peek).kind

/-- Passes the next token. -/
def next : Read Token := do
  let token ← peek
  modify fun s => { s with tokens := s.tokens.drop 1 }
  return token

/-- Adds a node and gives its number. -/
def addNode (tag : Tag) (start : Mark) (content : Content) : Read NodeId := do
  let id := (← get).graph.size
  modify fun s => { s with graph := s.graph.push ⟨tag, start, content⟩ }
  return id

def setContent (id : NodeId) (content : Content) : Read Unit :=
  modify fun s => { s with graph := s.graph.setContent id content }

/-- The tag that an untagged plain scalar gets. -/
def implicit (text : String) : Read Tag := return implicitTag (← get).rules text

/-- A scalar that is not written at all. -/
def emptyScalar (mark : Mark) : Read NodeId := do addNode (← implicit "") mark (.scalar "")

/-- The anchor and the tag before a node, and where the first of them begins. -/
structure Properties where
  anchor : Option String
  tag : Option String
  start : Option Mark

/-- A tag with its handle expanded. -/
def expandTag (handle : Option String) (suffix : String) (mark : Mark) : Read String := do
  match handle with
  | none => return suffix
  | some handle =>
      match (← get).handles.lookup handle with
      | none => fail .unknownHandle mark
      | some expansion => return expansion ++ suffix

/-- An anchor and a tag, in either order. -/
def properties : Read Properties := do
  let first ← peek
  match first.kind with
  | .anchor name =>
      let _ ← next
      match (← peek).kind with
      | .tag handle suffix =>
          let token ← next
          return ⟨some name, some (← expandTag handle suffix token.start), some first.start⟩
      | _ => return ⟨some name, none, some first.start⟩
  | .tag handle suffix =>
      let _ ← next
      let anchor ← match (← peek).kind with
        | .anchor name => do
            let _ ← next
            pure (some name)
        | _ => pure none
      return ⟨anchor, some (← expandTag handle suffix first.start), some first.start⟩
  | _ => return ⟨none, none, none⟩

/-- An anchor names one node only. -/
def checkAnchor (p : Properties) (mark : Mark) : Read Unit := do
  match p.anchor with
  | none => return
  | some name => if ((← get).anchors.lookup name).isSome then fail .repeatedAnchor mark

def setAnchor (p : Properties) (id : NodeId) : Read Unit :=
  match p.anchor with
  | none => return
  | some name => modify fun s => { s with anchors := (name, id) :: s.anchors }

/-- An explicit tag; the tag `!` leaves the choice open. -/
def Properties.explicit? (p : Properties) : Option Tag :=
  (p.tag.filter (· ≠ "!")).map Tag.ofName

/-- A scalar with its properties. Its text gives it a tag if it is plain and untagged, or
tagged `!`. -/
def scalarNode (p : Properties) (start : Mark) (text : String) (plain : Bool) : Read NodeId := do
  let tag ← match p.explicit? with
    | some tag => pure tag
    | none => if plain || p.tag.isSome then implicit text else pure .str
  let id ← addNode tag start (.scalar text)
  setAnchor p id
  return id

/-- The node of an alias. -/
def aliasNode (name : String) (mark : Mark) : Read NodeId := do
  match (← get).anchors.lookup name with
  | none => fail .undefinedAlias mark
  | some id => return id

section Host

variable [Host]

/-- Adds a collection, reads its content and sets it. -/
def collection (p : Properties) (start : Mark) (plain : Tag) (content : Content)
    (read : Read Content) : Read NodeId := do
  if Host.openRoom ≤ (← get).depth then throw (.unreadable .tooDeep)
  modify fun s => { s with depth := s.depth + 1 }
  let id ← addNode (p.explicit?.getD plain) start content
  setAnchor p id
  setContent id (← read)
  modify fun s => { s with depth := s.depth - 1 }
  return id

mutual

/-- The node at the next token. Block collections are read only where they may stand, and a
sequence without indentation only as the entry of a block mapping. -/
def node (block indentless : Bool) : Nat → Read NodeId
  | 0 => fail .noContent ⟨0, 0, 0⟩
  | fuel + 1 => do
      match ← peek with
      | ⟨.alias name, start, _⟩ =>
          let _ ← next
          aliasNode name start
      | _ =>
          let p ← properties
          let token ← peek
          let start := p.start.getD token.start
          match token.kind, block, indentless with
          | .blockEntry, _, true =>
              checkAnchor p start
              collection p start .seq (.sequence [])
                (return .sequence (← indentlessEntries fuel))
          | .scalar text plain, _, _ =>
              checkAnchor p start
              let _ ← next
              scalarNode p start text plain
          | .flowSequenceStart, _, _ =>
              checkAnchor p start
              let _ ← next
              collection p start .seq (.sequence []) (return .sequence (← flowItems true fuel))
          | .flowMappingStart, _, _ =>
              checkAnchor p start
              let _ ← next
              collection p start .map (.mapping []) (return .mapping (← flowPairs true fuel))
          | .blockSequenceStart, true, _ =>
              checkAnchor p start
              let _ ← next
              collection p start .seq (.sequence []) (return .sequence (← blockEntries fuel))
          | .blockMappingStart, true, _ =>
              checkAnchor p start
              let _ ← next
              collection p start .map (.mapping []) (return .mapping (← blockPairs fuel))
          | _, _, _ =>
              if p.start.isSome then
                checkAnchor p start
                scalarNode p start "" true
              else fail .noContent token.start

/-- Entries of a block sequence, up to its end. -/
def blockEntries : Nat → Read (List NodeId)
  | 0 => return []
  | fuel + 1 => do
      let token ← peek
      match token.kind with
      | .blockEntry =>
          let entry ← next
          let id ← match ← peekKind with
            | .blockEntry | .blockEnd => emptyScalar entry.stop
            | _ => node true false fuel
          return id :: (← blockEntries fuel)
      | .blockEnd =>
          let _ ← next
          return []
      | _ => fail .noBlockEnd token.start

/-- Entries of a sequence at the indentation of its mapping. -/
def indentlessEntries : Nat → Read (List NodeId)
  | 0 => return []
  | fuel + 1 => do
      match ← peekKind with
      | .blockEntry =>
          let entry ← next
          let id ← match ← peekKind with
            | .blockEntry | .key | .value | .blockEnd => emptyScalar entry.stop
            | _ => node true false fuel
          return id :: (← indentlessEntries fuel)
      | _ => return []

/-- Entries of a block mapping, up to its end. -/
def blockPairs : Nat → Read (List (NodeId × NodeId))
  | 0 => return []
  | fuel + 1 => do
      let token ← peek
      match token.kind with
      | .key =>
          let mark ← next
          let key ← match ← peekKind with
            | .key | .value | .blockEnd => emptyScalar mark.stop
            | _ => node true true fuel
          let entry ← blockValue fuel
          return (key, entry) :: (← blockPairs fuel)
      | .blockEnd =>
          let _ ← next
          return []
      | _ => fail .noBlockEnd token.start

/-- What stands after the key of a block mapping. -/
def blockValue : Nat → Read NodeId
  | 0 => emptyScalar ⟨0, 0, 0⟩
  | fuel + 1 => do
      let token ← peek
      match token.kind with
      | .value =>
          let _ ← next
          match ← peekKind with
          | .key | .value | .blockEnd => emptyScalar token.stop
          | _ => node true true fuel
      | _ => emptyScalar token.start

/-- Items of a flow sequence, up to its bracket; all but the first follow a comma. -/
def flowItems (first : Bool) : Nat → Read (List NodeId)
  | 0 => return []
  | fuel + 1 => do
      let token ← peek
      if token.kind = .flowSequenceEnd then
        let _ ← next
        return []
      if !first then
        if token.kind = .flowEntry then let _ ← next
        else fail .noFlowSeparator token.start
      let token ← peek
      match token.kind with
      | .flowSequenceEnd =>
          let _ ← next
          return []
      | .key =>
          let id ← collection ⟨none, none, none⟩ token.start .map (.mapping [])
            (return .mapping [← flowPair fuel])
          return id :: (← flowItems false fuel)
      | _ =>
          let id ← node false false fuel
          return id :: (← flowItems false fuel)

/-- A single pair as an item of a flow sequence. -/
def flowPair : Nat → Read (NodeId × NodeId)
  | 0 => return (← emptyScalar ⟨0, 0, 0⟩, ← emptyScalar ⟨0, 0, 0⟩)
  | fuel + 1 => do
      let mark ← next
      let key ← match ← peekKind with
        | .value | .flowEntry | .flowSequenceEnd => emptyScalar mark.stop
        | _ => node false false fuel
      let entry ← flowValue .flowSequenceEnd fuel
      return (key, entry)

/-- What stands after a key in a flow collection with the given end. -/
def flowValue (close : TokenKind) : Nat → Read NodeId
  | 0 => emptyScalar ⟨0, 0, 0⟩
  | fuel + 1 => do
      let token ← peek
      if token.kind = .value then
        let _ ← next
        let kind ← peekKind
        if kind = .flowEntry || kind = close then emptyScalar token.stop
        else node false false fuel
      else emptyScalar token.start

/-- Entries of a flow mapping, up to its brace. An entry without a key mark is a key without
a value. -/
def flowPairs (first : Bool) : Nat → Read (List (NodeId × NodeId))
  | 0 => return []
  | fuel + 1 => do
      let token ← peek
      if token.kind = .flowMappingEnd then
        let _ ← next
        return []
      if !first then
        if token.kind = .flowEntry then let _ ← next
        else fail .noFlowSeparator token.start
      match ← peekKind with
      | .flowMappingEnd =>
          let _ ← next
          return []
      | .key =>
          let mark ← next
          let key ← match ← peekKind with
            | .value | .flowEntry | .flowMappingEnd => emptyScalar mark.stop
            | _ => node false false fuel
          let entry ← flowValue .flowMappingEnd fuel
          return (key, entry) :: (← flowPairs false fuel)
      | _ =>
          let key ← node false false fuel
          let entry ← emptyScalar (← peek).start
          return (key, entry) :: (← flowPairs false fuel)

end

end Host

/-- The handles that every document knows. -/
def defaultHandles : List (String × String) := [("!", "!"), ("!!", Tag.core)]

/-- The directives before a document. -/
def directives : Nat → (version : Bool) → (handles : List (String × String)) →
    Read (List (String × String))
  | 0, _, handles => return handles
  | fuel + 1, version, handles => do
      let token ← peek
      match token.kind with
      | .directive d =>
          let _ ← next
          match d with
          | .version major =>
              if version then fail .repeatedVersion token.start
              if major ≠ 1 then fail .unsupportedVersion token.start
              directives fuel true handles
          | .tagHandle handle expansion =>
              if (handles.lookup handle).isSome then fail .repeatedHandle token.start
              directives fuel version (handles ++ [(handle, expansion)])
          | .other => directives fuel version handles
      | _ => return handles

/-- Passes the ends of documents. -/
def skipDocumentEnds : Nat → Read Unit
  | 0 => return
  | fuel + 1 => do
      if (← peekKind) = .documentEnd then
        let _ ← next
        skipDocumentEnds fuel

/-- The start of an explicit document, with its directives; false at the end of the stream. -/
def documentStart (fuel : Nat) : Read Bool := do
  skipDocumentEnds fuel
  if (← peekKind) = .streamEnd then return false
  let handles ← directives fuel false []
  let token ← peek
  if token.kind ≠ .documentStart then fail .noDocumentStart token.start
  let _ ← next
  modify fun s => { s with handles := handles ++ defaultHandles }
  return true

/-- The root of an explicit document, which may be empty. -/
def documentContent [Host] (fuel : Nat) : Read NodeId := do
  let token ← peek
  match token.kind with
  | .directive _ | .documentStart | .documentEnd | .streamEnd => emptyScalar token.start
  | _ => node true false fuel

/-- The root of the single document of a stream, if it has one. -/
def document [Host] (fuel : Nat) : Read (Option NodeId) := do
  let token ← peek
  let root ← match token.kind with
    | .directive _ | .documentStart | .streamEnd => do
        if ← documentStart fuel then
          let id ← documentContent fuel
          pure (some id)
        else pure none
    | _ => do
        let id ← node true false fuel
        pure (some id)
  if root.isSome then
    let mark := (← peek).start
    if ← documentStart fuel then fail .severalDocuments mark
  return root

end Read

/-- The graph of the document of a text and its root; a text may hold no document. -/
def Graph.ofText [Host] (rules : List ImplicitRule) (text : String) :
    Except Error (Graph × Option NodeId) := do
  let stream := TokenStream.ofText text.toList
  let reading : Reading :=
    { tokens := stream.tokens, error := stream.error, handles := Read.defaultHandles,
      anchors := [], graph := .empty, rules, depth := 0 }
  let (root, reading) ← (Read.document (4 * stream.tokens.length + 16)).run reading
  return (reading.graph, root)

end VoiceIntents.Yaml
