import VoiceIntents.Value.Display
import VoiceIntents.Value.SetOrder
import VoiceIntents.Yaml.Merge
import VoiceIntents.Yaml.Node.Parse
import VoiceIntents.Yaml.Scalar

/-!
# Documents

The values of the nodes of a graph. Scalars are read when they are first met, and a node keeps
the scalar that it gave then. A collection is made when it is first met and filled later, in
the order in which collections are met, so outer collections are filled before inner ones and
each is filled once. Repeated keys of a mapping are found before its merge keys are replaced.
-/

namespace VoiceIntents.Yaml

/-- A value inside a document: a scalar, a collection by its node, or the pair at a place of a
list of pairs. -/
inductive Item where
  | scalar (s : Scalar)
  | node (id : NodeId)
  | pair (id : NodeId) (place : Nat)
  deriving DecidableEq, Repr

/-- A filled collection. -/
inductive Collection where
  | list (items : List Item)
  | map (entries : List (Scalar × Item))
  | set (members : List Scalar)
  | pairs (entries : List (Item × Item))
  deriving DecidableEq, Repr

structure Document where
  root : Item
  collections : List (NodeId × Collection)
  deriving DecidableEq, Repr

/-- What becomes of a mapping that repeats a key. -/
inductive RepeatedKeys where
  | refused
  | lastWins
  deriving DecidableEq, Repr

/-- A scalar as a key. A not-a-number is the same key only where one node made both; the
named one counts as made once. -/
structure Key where
  scalar : Scalar
  maker : Option NodeId
  deriving DecidableEq, Repr

namespace Key

def isNan (k : Key) : Bool := k.scalar = .float .nan

def same (a b : Key) : Bool :=
  a.scalar.same b.scalar || (a.isNan && b.isNan && a.maker = b.maker)

/-- Puts an entry into a map. An entry of the same key keeps its place and its key. -/
def put (key : Key) (item : Item) : List (Key × Item) → List (Key × Item)
  | [] => [(key, item)]
  | (k, i) :: rest => if k.same key then (k, item) :: rest else (k, i) :: key.put item rest

end Key

/-- Making a document: the graph, the scalars that mappings stood for so far, the collections
met so far, those to be filled, and those that are. -/
structure Making where
  graph : Graph
  defaults : List (NodeId × Key)
  met : List NodeId
  waiting : List NodeId
  filled : List (NodeId × Collection)

abbrev Make := StateT Making (Except Error)

namespace Make

def fail {α : Type} (cause : Malformed) (id : NodeId) : Make α := do
  throw (.malformed cause ((← get).graph.node id).start)

def unreadable {α : Type} (cause : Unreadable) : Make α := throw (.unreadable cause)

/-- The text of a node. A mapping with a key `=` stands for the entry of that key, as long as
there are not too many of them in a row. -/
def textOf (g : Graph) : Nat → NodeId → Except Error String
  | 0, _ => .error (.unreadable .endlessDefault)
  | fuel + 1, id =>
      match (g.node id).content with
      | .scalar text => .ok text
      | .mapping pairs =>
          match pairs.find? fun p => g.tag p.1 = .value with
          | some p => textOf g fuel p.2
          | none => .error (.malformed .notScalar (g.node id).start)
      | .sequence _ => .error (.malformed .notScalar (g.node id).start)

/-- Tags that make collections. -/
def isCollection : Tag → Bool
  | .seq | .map | .set | .omap | .pairs => true
  | _ => false

/-- The collection of a node, which waits to be filled if it has not been met before. -/
def meet (id : NodeId) : Make Item := do
  if !(← get).met.contains id then
    modify fun s => { s with met := id :: s.met, waiting := s.waiting ++ [id] }
  return .node id

section Host

variable [Host]

/-- The scalar of a node under a scalar tag. -/
def scalarOf (g : Graph) (id : NodeId) : Except Error Scalar := do
  let n := g.node id
  if !n.tag.isScalar then throw (.malformed .unknownTag n.start)
  let text ← textOf g (Host.defaultRoom + 1) id
  if n.tag = .timestamp && !n.content.isScalar then throw (.unreadable .timestampOfMapping)
  readScalar n.tag n.start text

/-- The node that makes a key; none for the not-a-number that is made once. -/
def makerOf (g : Graph) (id : NodeId) (s : Scalar) : Option NodeId :=
  match s, textOf g (Host.defaultRoom + 1) id with
  | .float .nan, .ok text => if ReadScalar.isNan text.toList then none else some id
  | _, _ => some id

/-- The key of a node under a scalar tag. Merging may change what a mapping stands for, so the
key of a mapping is remembered; other nodes give the same key every time. -/
def scalarKey (id : NodeId) : Make Key := do
  match (← get).defaults.lookup id with
  | some key => return key
  | none =>
      let g := (← get).graph
      let s ← scalarOf g id
      let key : Key := ⟨s, makerOf g id s⟩
      if !(g.node id).content.isScalar then
        modify fun state => { state with defaults := (id, key) :: state.defaults }
      return key

/-- The value of a node. -/
def item (id : NodeId) : Make Item := do
  if isCollection ((← get).graph.tag id) then meet id else return .scalar (← scalarKey id).scalar

/-- The value of a node as a key; collections are none. -/
def key? (id : NodeId) : Make (Option Key) := do
  if isCollection ((← get).graph.tag id) then
    let _ ← meet id
    return none
  else return some (← scalarKey id)

/-- How a key is shown in a message. A scalar has no text only for the number of its digits. -/
def shown (k : Key) : Make String :=
  match k.scalar.inspect with
  | .ok text => return text
  | .error _ => unreadable .tooManyDigits

/-- Refuses a scalar key that is the same as one before it. Merge keys may repeat. -/
def refuseRepeats (id : NodeId) : List Key → List (NodeId × NodeId) → Make Unit
  | _, [] => return
  | before, (keyId, _) :: rest => do
      let g := (← get).graph
      if !(g.node keyId).content.isScalar || g.tag keyId = .merge then refuseRepeats id before rest
      else
        match ← key? keyId with
        | none => unreadable .collectionAsKey
        | some key =>
            if before.any key.same then
              throw (.repeatedKey (g.node id).start (g.node keyId).start (← shown key))
            refuseRepeats id (before ++ [key]) rest

/-- The check for repeated keys. It takes apart whatever stands under a mapping's tag, and
what cannot be taken apart into pairs is unreadable unless it is empty. -/
def checkKeys (id : NodeId) : Make Unit := do
  match ((← get).graph.node id).content with
  | .mapping pairs => refuseRepeats id [] pairs
  | .scalar text => if text ≠ "" then unreadable .mappingOfText
  | .sequence items => if !items.isEmpty then unreadable .mappingOfSequence

/-- The entries of a mapping, where a later entry replaces one of the same key. -/
def entries : List (Key × Item) → List (NodeId × NodeId) → Make (List (Key × Item))
  | made, [] => return made
  | made, (keyId, valueId) :: rest => do
      match ← key? keyId with
      | none => fail .collectionKey keyId
      | some key =>
          let made := key.put (← item valueId) made
          entries made rest

/-- The entries of a mapping node, with its merge keys replaced. -/
def mapping (repeats : RepeatedKeys) (id : NodeId) : Make (List (Key × Item)) := do
  if repeats = .refused then checkKeys id
  match ((← get).graph.node id).content with
  | .mapping _ =>
      let g ← (← get).graph.mergeKeys id
      modify fun s => { s with graph := g }
      entries [] (g.pairs id)
  | _ => fail .notMapping id

/-- The items of a sequence node. -/
def sequence (id : NodeId) : Make (List Item) := do
  match ((← get).graph.node id).content with
  | .sequence items => items.mapM item
  | _ => fail .notSequence id

/-- The single pair of an item of an ordered map. -/
def singlePair (id : NodeId) : Make (Item × Item) := do
  match ((← get).graph.node id).content with
  | .mapping [(keyId, valueId)] => return (← item keyId, ← item valueId)
  | _ => fail .badPairs id

/-- The content of a collection. -/
def fill (repeats : RepeatedKeys) (id : NodeId) : Make Collection := do
  match (← get).graph.tag id with
  | .map => return .map ((← mapping repeats id).map fun (k, i) => (k.scalar, i))
  | .set => return .set ((← mapping repeats id).map fun (k, _) => k.scalar)
  | .seq => return .list (← sequence id)
  | _ =>
      match ((← get).graph.node id).content with
      | .sequence items => return .pairs (← items.mapM singlePair)
      | _ => fail .notSequence id

/-- Fills the collections that wait, the first first, until none does. -/
def fillAll (repeats : RepeatedKeys) : Nat → Make Unit
  | 0 => return
  | fuel + 1 => do
      match (← get).waiting with
      | [] => return
      | id :: rest =>
          modify fun s => { s with waiting := rest }
          let collection ← fill repeats id
          modify fun s => { s with filled := s.filled ++ [(id, collection)] }
          fillAll repeats fuel

end Host

end Make

/-- The document of a graph and its root. Every node is filled at most once. -/
def Document.ofGraph [Host] (repeats : RepeatedKeys) (g : Graph) (root : NodeId) :
    Except Error Document := do
  let make : Make Item := do
    let item ← Make.item root
    Make.fillAll repeats (g.size + 1)
    return item
  let (item, state) ← make.run ⟨g, [], [], [], []⟩
  return ⟨item, state.filled⟩

namespace Document

/-- One level of a value. -/
inductive View where
  | scalar (s : Scalar)
  | list (items : List Item)
  | map (entries : List (Scalar × Item))
  | set (members : List Scalar)
  | pair (first second : Item)

def View.shape : View → Shape
  | .map _ => .map
  | .pair _ _ => .pair
  | _ => .list

section Values

variable [Listing]

def view (d : Document) : Item → View
  | .scalar s => .scalar s
  | .node id =>
      match d.collections.lookup id with
      | some (.list items) => .list items
      | some (.map entries) => .map entries
      | some (.set members) => .set (setOrder id members)
      | some (.pairs entries) => .list ((List.range entries.length).map (.pair id))
      | none => .list []
  | .pair id place =>
      match d.collections.lookup id with
      | some (.pairs entries) =>
          match entries[place]? with
          | some (first, second) => .pair first second
          | none => .scalar .null
      | _ => .scalar .null

/-- The value of an item inside the collections of a path, the innermost first. A collection
that is on the path is cut. -/
def unfold (d : Document) : Nat → List Item → Item → Value
  | 0, _, _ => .null
  | fuel + 1, path, item =>
      let view := d.view item
      match path.idxOf? item, view with
      | _, .scalar s => .scalar s
      | _, .set members => .set members
      | some level, _ => .again view.shape (level + 1)
      | none, .list items => .list (items.map (d.unfold fuel (item :: path)))
      | none, .map entries =>
          .map (entries.map fun (k, i) => (k, d.unfold fuel (item :: path) i))
      | none, .pair first second =>
          .pair (d.unfold fuel (item :: path) first) (d.unfold fuel (item :: path) second)

/-- Collections and pairs of a document, which bound the length of a path without repeats. -/
def depthBound (d : Document) : Nat :=
  d.collections.foldl (fun n c => match c.2 with
    | .pairs entries => n + entries.length + 1
    | _ => n + 1) 2

/-- The values of collections so far; none for one that leads back to where it has been. -/
abbrev Known := List (Item × Option Value)

/-- The value of a collection that is known, or else is made now. -/
def Known.recall (item : Item) (make : StateM Known (Option Value)) :
    StateM Known (Option Value) := do
  match (← get).lookup item with
  | some value => return value
  | none =>
      let value ← make
      modify ((item, value) :: ·)
      return value

/-- The value of an item from which no path leads back to where it has been. However many paths
lead to a collection, its value is made once and shared between them. -/
def share (d : Document) : Nat → List Item → Item → StateM Known (Option Value)
  | 0, _, _ => return none
  | fuel + 1, path, item =>
      let inside := d.share fuel (item :: path)
      if path.contains item then return none
      else
        match d.view item with
        | .scalar s => return some (.scalar s)
        | .set members => return some (.set members)
        | .list items => Known.recall item do
            return ((← items.mapM inside).mapM id).map .list
        | .map entries => Known.recall item do
            let values ← entries.mapM fun entry => inside entry.2
            return (values.mapM id).map fun values => .map ((entries.map (·.1)).zip values)
        | .pair first second => Known.recall item do
            let first ← inside first
            let second ← inside second
            return first.bind fun a => second.map fun b => .pair a b

/-- The value of an item, cut where it contains itself. -/
def wholeValue (d : Document) (item : Item) : Value :=
  match ((d.share d.depthBound [] item).run []).1 with
  | some value => value
  | none => d.unfold d.depthBound [] item

/-- The value of an item as far as it can be shown. A document with few collections has no value
with many levels. -/
def itemValue [Host] (d : Document) (item : Item) : Value :=
  let value := d.wholeValue item
  if d.depthBound ≤ Host.levelRoom || value.levels ≤ Host.levelRoom then value else .deep

/-- The value of a document as a whole. -/
def toValue (d : Document) : Value := d.wholeValue d.root

/-- The outermost level of an item. -/
def outline (d : Document) (item : Item) : Value :=
  match d.view item with
  | .scalar s => .scalar s
  | .set members => .set members
  | .list items => .list (items.map fun _ => .null)
  | .map entries => .map (entries.map fun entry => (entry.1, .null))
  | .pair _ _ => .pair .null .null

/-- The lists below nested maps. Each level of maps keeps the entries whose keys are asked for,
and the lists have their items whole. Of anything else there is the outermost level alone, so
what nobody asks for costs nothing, however often it is shared. -/
def select [Host] (d : Document) : List (Scalar → Bool) → Item → Value
  | [], item =>
      match d.view item with
      | .list items => .list (items.map d.itemValue)
      | _ => d.outline item
  | asked :: deeper, item =>
      match d.view item with
      | .map entries =>
          .map ((entries.filter fun entry => asked entry.1).map fun (k, i) =>
            (k, d.select deeper i))
      | _ => d.outline item

end Values

end Document

/-- The document that a text holds, if it holds one. -/
def readDocument [Host] (rules : List ImplicitRule) (repeats : RepeatedKeys) (text : String) :
    Except Error (Option Document) := do
  match ← Graph.ofText rules text with
  | (_, none) => return none
  | (g, some root) => return some (← Document.ofGraph repeats g root)

end VoiceIntents.Yaml
