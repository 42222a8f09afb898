import VoiceIntents.Yaml.Tag

/-!
# Node graphs

A document as a graph of nodes. An alias is a second reference to a node, so collections may
be shared and may contain themselves.
-/

namespace VoiceIntents.Yaml

/-- The number of a node in its graph. -/
abbrev NodeId := Nat

inductive Content where
  | scalar (text : String)
  | sequence (items : List NodeId)
  | mapping (pairs : List (NodeId × NodeId))
  deriving DecidableEq, Repr

structure Node where
  tag : Tag
  start : Mark
  content : Content
  deriving DecidableEq, Repr

/-- The nodes of a document, in the order in which they begin. -/
structure Graph where
  nodes : Array Node
  deriving DecidableEq, Repr

namespace Content

def isScalar : Content → Bool
  | .scalar _ => true
  | _ => false

def pairs : Content → List (NodeId × NodeId)
  | .mapping pairs => pairs
  | _ => []

end Content

/-- What a number outside a graph stands for. -/
def Node.absent : Node := ⟨.null, ⟨0, 0, 0⟩, .scalar ""⟩

namespace Graph

def empty : Graph := ⟨#[]⟩

def size (g : Graph) : Nat := g.nodes.size

def node (g : Graph) (id : NodeId) : Node := g.nodes.getD id .absent

def tag (g : Graph) (id : NodeId) : Tag := (g.node id).tag

def pairs (g : Graph) (id : NodeId) : List (NodeId × NodeId) := (g.node id).content.pairs

def push (g : Graph) (n : Node) : Graph := ⟨g.nodes.push n⟩

def modify (g : Graph) (id : NodeId) (f : Node → Node) : Graph := ⟨g.nodes.modify id f⟩

def setContent (g : Graph) (id : NodeId) (content : Content) : Graph :=
  g.modify id fun n => { n with content }

def setTag (g : Graph) (id : NodeId) (tag : Tag) : Graph := g.modify id fun n => { n with tag }

end Graph

end VoiceIntents.Yaml
