import VoiceIntents.Host
import VoiceIntents.Yaml.Node.Basic

/-!
# Merge keys

The entry of a merge key `<<` is a mapping, or a sequence of mappings, whose entries count as
entries of the mapping at hand. Merging rewrites the graph: the merge entries of a mapping are
replaced by the merged ones, which stand before its own, and the sources are rewritten first.
There is room for so many mappings inside each other.
-/

namespace VoiceIntents.Yaml.Graph

/-- Merge entries in all mappings of a graph. -/
def mergeCount (g : Graph) : Nat :=
  g.nodes.toList.foldl (fun count n => count + n.content.pairs.countP fun p => g.tag p.1 = .merge) 0

/-- The first merge entry among pairs, with those before and after it. -/
def splitMerge (g : Graph) :
    List (NodeId × NodeId) → Option (List (NodeId × NodeId) × NodeId × List (NodeId × NodeId))
  | [] => none
  | p :: rest =>
      if g.tag p.1 = .merge then some ([], p.2, rest)
      else (g.splitMerge rest).map fun (before, source, after) => (p :: before, source, after)

/-- A key `=` counts as text once its mapping has been merged. -/
def retagKeys (g : Graph) (pairs : List (NodeId × NodeId)) : Graph :=
  pairs.foldl (fun g p => if g.tag p.1 = .value then g.setTag p.1 .str else g) g

/-- The room that is left inside a mapping. -/
def roomInside : Nat → Except Error Nat
  | 0 => .error (.unreadable .tooDeep)
  | room + 1 => .ok room

mutual

/-- Replaces the merge entries of a mapping, after the pairs that were merged so far. -/
def mergeFrom (id : NodeId) :
    (fuel room : Nat) → (merged : List (NodeId × NodeId)) → Graph → Except Error Graph
  | 0, _, _, g => .ok g
  | fuel + 1, room, merged, g =>
      match g.splitMerge (g.pairs id) with
      | none =>
          let g := g.retagKeys (g.pairs id)
          .ok (if merged.isEmpty then g else g.setContent id (.mapping (merged ++ g.pairs id)))
      | some (before, source, after) => do
          let g := g.setContent id (.mapping (before ++ after))
          match (g.node source).content with
          | .mapping _ =>
              let inside ← roomInside room
              let g ← mergeFrom source fuel inside [] g
              mergeFrom id fuel room (merged ++ g.pairs source) g
          | .sequence items =>
              let (lists, g) ← mergeEach fuel room items g
              mergeFrom id fuel room (merged ++ lists.reverse.flatten) g
          | .scalar _ => .error (.malformed .badMerge (g.node source).start)

/-- Rewrites mappings one after another and gives the pairs of each. -/
def mergeEach :
    (fuel room : Nat) → List NodeId → Graph → Except Error (List (List (NodeId × NodeId)) × Graph)
  | 0, _, _, g => .ok ([], g)
  | _ + 1, _, [], g => .ok ([], g)
  | fuel + 1, room, source :: rest, g =>
      match (g.node source).content with
      | .mapping _ => do
          let inside ← roomInside room
          let g ← mergeFrom source fuel inside [] g
          let pairs := g.pairs source
          let (more, g) ← mergeEach fuel room rest g
          return (pairs :: more, g)
      | _ => .error (.malformed .badMerge (g.node source).start)

end

/-- Replaces the merge entries of a mapping. Every step of a chain of calls removes a merge
entry or passes an item of a sequence, which bounds the chain. -/
def mergeKeys [Host] (g : Graph) (id : NodeId) : Except Error Graph :=
  let items := g.nodes.toList.foldl (fun count n => match n.content with
    | .sequence items => count + items.length + 1
    | _ => count + 1) 1
  mergeFrom id (2 * (g.mergeCount + 1) * items) Host.mergeRoom [] g

end VoiceIntents.Yaml.Graph
