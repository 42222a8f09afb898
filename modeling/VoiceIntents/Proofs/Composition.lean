import VoiceIntents.Proofs.Merging
import VoiceIntents.Yaml.Node.Parse

/-!
# Composition and the rules for plain scalars

The rules give tags to plain scalars and decide nothing else: a text is composed alike under all
rules, and the graphs differ in the tags of its bare scalars only. What is common to them is a
sketch, whose nodes say where their tags come from. Under given rules a sketch becomes a graph.
-/

namespace VoiceIntents.Yaml

/-- The kinds of nodes. -/
inductive Kind where
  | scalar
  | sequence
  | mapping
  deriving DecidableEq, Repr

/-- The tag of an untagged node that is not read by rules. -/
def Kind.tag : Kind → Tag
  | .scalar => .str
  | .sequence => .seq
  | .mapping => .map

/-- Where a node has its tag from: it is written, or the rules give it to the text of a bare
scalar, or it goes with the kind of the node. -/
inductive Origin where
  | written (tag : Tag)
  | bare (text : String)
  | untagged (kind : Kind)
  deriving DecidableEq, Repr

def Origin.tag (rules : List ImplicitRule) : Origin → Tag
  | .written tag => tag
  | .bare text => implicitTag rules text
  | .untagged kind => kind.tag

structure SketchNode where
  origin : Origin
  start : Mark
  content : Content
  deriving DecidableEq, Repr

def SketchNode.resolve (rules : List ImplicitRule) (n : SketchNode) : Node :=
  ⟨n.origin.tag rules, n.start, n.content⟩

/-- A graph before its bare scalars have tags. -/
structure Sketch where
  nodes : Array SketchNode
  deriving DecidableEq, Repr

namespace Sketch

def resolve (k : Sketch) (rules : List ImplicitRule) : Graph := ⟨k.nodes.map (·.resolve rules)⟩

def size (k : Sketch) : Nat := k.nodes.size

def push (k : Sketch) (n : SketchNode) : Sketch := ⟨k.nodes.push n⟩

def setContent (k : Sketch) (id : NodeId) (content : Content) : Sketch :=
  ⟨k.nodes.modify id fun n => { n with content }⟩

/-- A node with its tag from an origin. -/
def HasOrigin (k : Sketch) (id : NodeId) (origin : Origin) : Prop :=
  ∃ n, k.nodes[id]? = some n ∧ n.origin = origin

/-- A bare scalar has the text that the rules read. -/
def Sound (k : Sketch) : Prop :=
  ∀ (id : NodeId) (n : SketchNode) (text : String), k.nodes[id]? = some n →
    n.origin = .bare text → n.content = .scalar text

section Resolve
variable (k : Sketch) (rules : List ImplicitRule)

theorem size_resolve : (k.resolve rules).size = k.size := by
  simp [resolve, Graph.size, size]

theorem resolve_push (n : SketchNode) :
    (k.push n).resolve rules = (k.resolve rules).push (n.resolve rules) := by
  simp [resolve, push, Graph.push]

theorem resolve_setContent (id : NodeId) (content : Content) :
    (k.setContent id content).resolve rules = (k.resolve rules).setContent id content := by
  unfold resolve setContent Graph.setContent Graph.modify
  congr 1
  apply Array.ext_getElem?
  intro i
  simp only [Array.getElem?_map, Array.getElem?_modify]
  split
  · cases k.nodes[i]? <;> rfl
  · rfl

theorem node_resolve {id : NodeId} {n : SketchNode} (h : k.nodes[id]? = some n) :
    (k.resolve rules).node id = n.resolve rules := by
  simp [resolve, Graph.node, h]

end Resolve

end Sketch

/-- The state of reading, apart from the rules. -/
structure Draft where
  tokens : List Token
  error : Option Error
  handles : List (String × String)
  anchors : List (String × NodeId)
  sketch : Sketch
  depth : Nat

namespace Draft

/-- Reading a draft under given rules. -/
def under (s : Draft) (rules : List ImplicitRule) : Reading :=
  { tokens := s.tokens, error := s.error, handles := s.handles, anchors := s.anchors,
    graph := s.sketch.resolve rules, rules, depth := s.depth }

/-- Going on with a draft: its nodes keep the origins of their tags. -/
structure Extends (s s' : Draft) : Prop where
  origins : ∀ id origin, s.sketch.HasOrigin id origin → s'.sketch.HasOrigin id origin
  sound : s.sketch.Sound → s'.sketch.Sound

theorem Extends.refl (s : Draft) : s.Extends s := ⟨fun _ _ h => h, fun h => h⟩

theorem Extends.trans {s s' s'' : Draft} (h : s.Extends s') (h' : s'.Extends s'') :
    s.Extends s'' :=
  ⟨fun id origin ho => h'.origins id origin (h.origins id origin ho),
    fun hs => h'.sound (h.sound hs)⟩

theorem extends_of_sketch_eq {s s' : Draft} (h : s'.sketch = s.sketch) : s.Extends s' :=
  ⟨fun _ _ ho => h ▸ ho, fun hs => h ▸ hs⟩

/-- A draft with one more node. -/
def add (s : Draft) (n : SketchNode) : Draft := { s with sketch := s.sketch.push n }

theorem hasOrigin_add (s : Draft) (n : SketchNode) :
    (s.add n).sketch.HasOrigin s.sketch.size n.origin :=
  ⟨n, by simp [add, Sketch.push, Sketch.size], rfl⟩

theorem extends_add {s : Draft} {n : SketchNode}
    (hn : ∀ text, n.origin = .bare text → n.content = .scalar text) : s.Extends (s.add n) := by
  constructor
  · rintro id origin ⟨m, hm, horigin⟩
    refine ⟨m, ?_, horigin⟩
    have hlt : id < s.sketch.nodes.size := (Array.getElem?_eq_some_iff.mp hm).1
    simp only [add, Sketch.push, Array.getElem?_push]
    rw [if_neg (Nat.ne_of_lt hlt)]
    exact hm
  · intro hs id m text hm horigin
    simp only [add, Sketch.push, Array.getElem?_push] at hm
    split at hm
    · obtain rfl := Option.some.inj hm
      exact hn text horigin
    · exact hs id m text hm horigin

/-- A draft where a node has other content. -/
def setContent (s : Draft) (id : NodeId) (content : Content) : Draft :=
  { s with sketch := s.sketch.setContent id content }

/-- The content of a node that is not bare may change. -/
theorem extends_setContent {s : Draft} {id : NodeId} {origin : Origin} {content : Content}
    (horigin : s.sketch.HasOrigin id origin) (hbare : ∀ text, origin ≠ .bare text) :
    s.Extends (s.setContent id content) := by
  have hnode (i : NodeId) : (s.setContent id content).sketch.nodes[i]? =
      (s.sketch.nodes[i]?).map fun n => if i = id then { n with content } else n := by
    simp only [setContent, Sketch.setContent, Array.getElem?_modify]
    by_cases hi : id = i
    · subst hi
      simp
    · simp [hi, Ne.symm hi]
  constructor
  · rintro i o ⟨n, hn, rfl⟩
    refine ⟨_, by rw [hnode, hn]; rfl, ?_⟩
    split <;> rfl
  · intro hs i n text hn htext
    rw [hnode] at hn
    obtain ⟨m, hm, rfl⟩ := Option.map_eq_some_iff.mp hn
    by_cases hi : i = id
    · subst hi
      obtain ⟨n', hn', rfl⟩ := horigin
      rw [hm] at hn'
      obtain rfl := Option.some.inj hn'
      rw [if_pos rfl] at htext
      exact absurd htext (hbare text)
    · rw [if_neg hi] at htext ⊢
      exact hs i m text hm htext

end Draft

namespace Read

/-- Under all rules a step fails alike, or it gives one result and goes on with one draft. -/
inductive Runs {α : Type} (x : Read α) (s : Draft) (Q : α → Draft → Prop) : Prop
  | failed (e : Error) (h : ∀ rules, x.run (s.under rules) = .error e)
  | done (a : α) (s' : Draft) (hq : Q a s')
      (h : ∀ rules, x.run (s.under rules) = .ok (a, s'.under rules))

/-- A step that does not depend on the rules. -/
def Alike {α : Type} (x : Read α) : Prop := ∀ s, Runs x s fun _ s' => s.Extends s'

section Runs
variable {α β : Type} {s : Draft} {Q Q' : α → Draft → Prop} {R : β → Draft → Prop}

theorem Runs.imp {x : Read α} (h : Runs x s Q) (hq : ∀ a s', Q a s' → Q' a s') :
    Runs x s Q' := by
  cases h with
  | failed e h => exact .failed e h
  | done a s' hqa h => exact .done a s' (hq a s' hqa) h

theorem Runs.bind {x : Read α} {f : α → Read β} (hx : Runs x s Q)
    (hf : ∀ a s', Q a s' → Runs (f a) s' R) : Runs (x >>= f) s R := by
  cases hx with
  | failed e h =>
      refine .failed e fun rules => ?_
      rw [StateT.run_bind, h]
      rfl
  | done a s' hq h =>
      have hrun (rules : List ImplicitRule) :
          (x >>= f).run (s.under rules) = (f a).run (s'.under rules) := by
        rw [StateT.run_bind, h]
        rfl
      cases hf a s' hq with
      | failed e h' => exact .failed e fun rules => (hrun rules).trans (h' rules)
      | done b s'' hr h' => exact .done b s'' hr fun rules => (hrun rules).trans (h' rules)

theorem runs_pure {a : α} (hq : Q a s) : Runs (pure a) s Q := .done a s hq fun _ => rfl

theorem runs_throw (e : Error) : Runs (throw e : Read α) s Q := .failed e fun _ => rfl

/-- Looking at what does not depend on the rules. -/
theorem runs_get_bind {f : Reading → Read β} (hf : ∀ rules, f (s.under rules) = f (s.under []))
    (h : Runs (f (s.under [])) s R) : Runs (get >>= f) s R := by
  have hrun (rules : List ImplicitRule) :
      (get >>= f).run (s.under rules) = (f (s.under [])).run (s.under rules) := by
    rw [← hf rules]
    rfl
  cases h with
  | failed e h => exact .failed e fun rules => (hrun rules).trans (h rules)
  | done a s' hq h => exact .done a s' hq fun rules => (hrun rules).trans (h rules)

theorem runs_modify {f : Reading → Reading} {Q : Unit → Draft → Prop} (s' : Draft)
    (hf : ∀ rules, f (s.under rules) = s'.under rules) (hq : Q () s') :
    Runs (modify f) s Q :=
  .done () s' hq fun rules => by rw [← hf rules]; rfl

end Runs

section Alike
variable {α β : Type}

theorem Alike.bind {x : Read α} {f : α → Read β} (hx : Alike x) (hf : ∀ a, Alike (f a)) :
    Alike (x >>= f) := by
  intro s
  refine (hx s).bind fun a s' hs => ?_
  exact (hf a s').imp fun b s'' hs' => hs.trans hs'

theorem alike_pure (a : α) : Alike (pure a) := fun s => runs_pure (.refl s)

theorem alike_fail (cause : Malformed) (mark : Mark) : Alike (fail cause mark : Read α) :=
  fun _ => runs_throw _

theorem alike_peek : Alike peek := by
  intro s
  unfold peek
  apply runs_get_bind (fun _ => rfl)
  apply runs_get_bind (fun _ => rfl)
  dsimp only [Draft.under]
  cases s.tokens with
  | cons token rest => exact runs_pure (.refl s)
  | nil =>
      cases s.error with
      | some e => exact runs_throw e
      | none => exact runs_pure (.refl s)

theorem alike_peekKind : Alike peekKind := alike_peek.bind fun token => alike_pure token.kind

theorem alike_next : Alike next := by
  refine alike_peek.bind fun token => Alike.bind ?_ fun _ => alike_pure token
  intro s
  exact runs_modify { s with tokens := s.tokens.drop 1 } (fun _ => rfl)
    (Draft.extends_of_sketch_eq rfl)

theorem addNode_run (tag : Tag) (start : Mark) (content : Content) (r : Reading) :
    (addNode tag start content).run r =
      .ok (r.graph.size, { r with graph := r.graph.push ⟨tag, start, content⟩ }) := rfl

/-- A node is added with its tag from an origin. -/
theorem runs_addNode {s : Draft} {tag : Tag} (origin : Origin) (start : Mark) (content : Content)
    (htag : ∀ rules, origin.tag rules = tag) :
    Runs (addNode tag start content) s fun id s' =>
      id = s.sketch.size ∧ s' = s.add ⟨origin, start, content⟩ := by
  refine .done s.sketch.size _ ⟨rfl, rfl⟩ fun rules => ?_
  rw [addNode_run, ← htag rules]
  simp only [Draft.add, Draft.under, Sketch.resolve_push, Sketch.size_resolve,
    SketchNode.resolve]

/-- The rules give a tag to the text of a bare scalar. -/
theorem alike_implicit_addNode (text : String) (start : Mark) :
    Alike (implicit text >>= fun tag => addNode tag start (.scalar text)) := by
  intro s
  have hbare : s.Extends (s.add ⟨.bare text, start, .scalar text⟩) := by
    apply Draft.extends_add
    rintro text' htext
    cases htext
    rfl
  refine .done s.sketch.size _ hbare fun rules => ?_
  change (addNode (implicitTag rules text) start (.scalar text)).run (s.under rules) = _
  rw [addNode_run]
  simp only [Draft.add, Draft.under, Sketch.resolve_push, Sketch.size_resolve,
    SketchNode.resolve, Origin.tag]

theorem alike_emptyScalar (mark : Mark) : Alike (emptyScalar mark) :=
  alike_implicit_addNode "" mark

theorem alike_expandTag (handle : Option String) (suffix : String) (mark : Mark) :
    Alike (expandTag handle suffix mark) := by
  unfold expandTag
  split
  · exact alike_pure suffix
  · intro s
    apply runs_get_bind (fun _ => rfl)
    dsimp only [Draft.under]
    split
    · exact alike_fail _ _ s
    · exact alike_pure _ s

theorem alike_properties : Alike properties := by
  unfold properties
  apply alike_peek.bind
  intro first
  split
  · apply alike_next.bind
    intro _
    apply alike_peek.bind
    intro token
    split
    · exact alike_next.bind fun token => (alike_expandTag _ _ _).bind fun _ => alike_pure _
    · exact alike_pure _
  · next handle suffix _ =>
      have hend (anchor : Option String) := (alike_expandTag handle suffix first.start).bind
        fun tag => alike_pure (⟨anchor, some tag, some first.start⟩ : Properties)
      apply alike_next.bind
      intro _
      apply alike_peek.bind
      intro token
      dsimp only
      split
      · next name _ => exact alike_next.bind fun _ => (alike_pure (some name)).bind hend
      · exact (alike_pure none).bind hend
  · exact alike_pure _

theorem alike_checkAnchor (p : Properties) (mark : Mark) : Alike (checkAnchor p mark) := by
  unfold checkAnchor
  split
  · exact alike_pure ()
  · intro s
    apply runs_get_bind (fun _ => rfl)
    dsimp only [Draft.under]
    split
    · exact alike_fail _ _ s
    · exact alike_pure () s

theorem alike_setAnchor (p : Properties) (id : NodeId) : Alike (setAnchor p id) := by
  unfold setAnchor
  split
  · exact alike_pure ()
  · next name _ =>
      intro s
      exact runs_modify { s with anchors := (name, id) :: s.anchors } (fun _ => rfl)
        (Draft.extends_of_sketch_eq rfl)

/-- A scalar is added with its tag from an origin that the rules have no part in. -/
theorem alike_addScalar {tag : Tag} (origin : Origin) (start : Mark) (text : String)
    (htag : ∀ rules, origin.tag rules = tag) (hbare : ∀ text, origin ≠ .bare text) :
    Alike (addNode tag start (.scalar text)) := by
  intro s
  refine (runs_addNode origin start (.scalar text) htag).imp ?_
  rintro id s' ⟨_, rfl⟩
  exact Draft.extends_add fun text' htext => absurd htext (hbare text')

theorem alike_scalarNode (p : Properties) (start : Mark) (text : String) (plain : Bool) :
    Alike (scalarNode p start text plain) := by
  have hend (id : NodeId) := (alike_setAnchor p id).bind fun _ => alike_pure id
  unfold scalarNode
  dsimp only
  split
  · next tag _ =>
      rw [pure_bind]
      exact (alike_addScalar (.written tag) start text (fun _ => rfl) (by simp)).bind hend
  · split
    · rw [← bind_assoc]
      exact (alike_implicit_addNode text start).bind hend
    · rw [pure_bind]
      exact (alike_addScalar (.untagged .scalar) start text (fun _ => rfl) (by simp)).bind hend

/-- The origin of the tag of a collection. -/
def Properties.origin (p : Properties) (kind : Kind) : Origin :=
  match p.explicit? with
  | some tag => .written tag
  | none => .untagged kind

theorem Properties.tag_origin (p : Properties) (kind : Kind) (rules : List ImplicitRule) :
    (p.origin kind).tag rules = p.explicit?.getD kind.tag := by
  unfold origin
  cases p.explicit? <;> rfl

theorem Properties.origin_ne_bare (p : Properties) (kind : Kind) (text : String) :
    p.origin kind ≠ .bare text := by
  unfold origin
  cases p.explicit? <;> simp

theorem runs_setContent {s : Draft} (id : NodeId) (content : Content) :
    Runs (setContent id content) s fun _ s' => s' = s.setContent id content := by
  refine runs_modify (s.setContent id content) (fun rules => ?_) rfl
  simp only [Draft.setContent, Draft.under, Sketch.resolve_setContent]

theorem alike_modifyDepth (f : Nat → Nat) :
    Alike (modify fun r : Reading => { r with depth := f r.depth }) := by
  intro s
  exact runs_modify { s with depth := f s.depth } (fun _ => rfl) (Draft.extends_of_sketch_eq rfl)

/-- The node of a collection is not bare, so its content may be set once it has been read. -/
theorem alike_collection [Host] (p : Properties) (start : Mark) (kind : Kind) (content : Content)
    {read : Read Content} (hread : Alike read) :
    Alike (collection p start kind.tag content read) := by
  intro s
  unfold collection
  apply runs_get_bind (fun _ => rfl)
  dsimp only [Draft.under]
  split
  · exact (runs_throw (Q := fun _ _ => False) _).bind fun _ _ h => h.elim
  · apply (alike_modifyDepth (· + 1) s).bind
    intro _ s₁ h₁
    apply (runs_addNode (p.origin kind) start content (p.tag_origin kind)).bind
    rintro id s₂ ⟨rfl, rfl⟩
    have horigin := s₁.hasOrigin_add ⟨p.origin kind, start, content⟩
    have h₂ : s₁.Extends (s₁.add ⟨p.origin kind, start, content⟩) :=
      Draft.extends_add fun text htext => absurd htext (p.origin_ne_bare kind text)
    apply (alike_setAnchor p s₁.sketch.size _).bind
    intro _ s₃ h₃
    apply (hread s₃).bind
    intro filled s₄ h₄
    have hsame := (h₃.trans h₄).origins _ _ horigin
    apply (runs_setContent s₁.sketch.size filled).bind
    rintro _ s₅ rfl
    have h₅ : s₄.Extends (s₄.setContent s₁.sketch.size filled) :=
      Draft.extends_setContent hsame (p.origin_ne_bare kind)
    apply (alike_modifyDepth (· - 1) _).bind
    intro _ s₆ h₆
    exact runs_pure (h₁.trans (h₂.trans (h₃.trans (h₄.trans (h₅.trans h₆)))))

theorem alike_aliasNode (name : String) (mark : Mark) : Alike (aliasNode name mark) := by
  intro s
  unfold aliasNode
  apply runs_get_bind (fun _ => rfl)
  dsimp only [Draft.under]
  split
  · exact alike_fail _ _ s
  · exact alike_pure _ s

end Alike

/-- The readers of nodes and of what stands in collections are alike under all rules. -/
structure NodesAlike [Host] (fuel : Nat) : Prop where
  node : ∀ block indentless, Alike (node block indentless fuel)
  blockEntries : Alike (blockEntries fuel)
  indentlessEntries : Alike (indentlessEntries fuel)
  blockPairs : Alike (blockPairs fuel)
  blockValue : Alike (blockValue fuel)
  flowItems : ∀ first, Alike (flowItems first fuel)
  flowPair : Alike (flowPair fuel)
  flowValue : ∀ close, Alike (flowValue close fuel)
  flowPairs : ∀ first, Alike (flowPairs first fuel)

theorem nodesAlike_zero [Host] : NodesAlike 0 where
  node block indentless := by
    unfold node
    exact alike_fail _ _
  blockEntries := by
    unfold blockEntries
    exact alike_pure []
  indentlessEntries := by
    unfold indentlessEntries
    exact alike_pure []
  blockPairs := by
    unfold blockPairs
    exact alike_pure []
  blockValue := by
    unfold blockValue
    exact alike_emptyScalar _
  flowItems first := by
    unfold flowItems
    exact alike_pure []
  flowPair := by
    unfold flowPair
    exact (alike_emptyScalar _).bind fun _ => (alike_emptyScalar _).bind fun _ => alike_pure _
  flowValue close := by
    unfold flowValue
    exact alike_emptyScalar _
  flowPairs first := by
    unfold flowPairs
    exact alike_pure []

section Succ
variable [Host] {fuel : Nat} (h : NodesAlike fuel)
include h

theorem alike_node (block indentless : Bool) : Alike (node block indentless (fuel + 1)) := by
  unfold node
  apply alike_peek.bind
  intro token
  split
  · next name start _ => exact alike_next.bind fun _ => alike_aliasNode name start
  · apply alike_properties.bind
    intro p
    apply alike_peek.bind
    intro token
    dsimp only
    generalize p.start.getD token.start = start
    have hsequence (read : Read (List NodeId)) (hread : Alike read) :
        Alike (collection p start .seq (.sequence []) (return .sequence (← read))) :=
      alike_collection p start .sequence _ (hread.bind fun _ => alike_pure _)
    have hmapping (read : Read (List (NodeId × NodeId))) (hread : Alike read) :
        Alike (collection p start .map (.mapping []) (return .mapping (← read))) :=
      alike_collection p start .mapping _ (hread.bind fun _ => alike_pure _)
    split
    · exact (alike_checkAnchor p start).bind fun _ => hsequence _ h.indentlessEntries
    · exact (alike_checkAnchor p start).bind fun _ => alike_next.bind fun _ =>
        alike_scalarNode p start _ _
    · exact (alike_checkAnchor p start).bind fun _ => alike_next.bind fun _ =>
        hsequence _ (h.flowItems true)
    · exact (alike_checkAnchor p start).bind fun _ => alike_next.bind fun _ =>
        hmapping _ (h.flowPairs true)
    · exact (alike_checkAnchor p start).bind fun _ => alike_next.bind fun _ =>
        hsequence _ h.blockEntries
    · exact (alike_checkAnchor p start).bind fun _ => alike_next.bind fun _ =>
        hmapping _ h.blockPairs
    · split
      · exact (alike_checkAnchor p start).bind fun _ => alike_scalarNode p start _ _
      · exact alike_fail _ _

theorem alike_blockEntries : Alike (blockEntries (fuel + 1)) := by
  have hend (id : NodeId) := h.blockEntries.bind fun rest => alike_pure (id :: rest)
  unfold blockEntries
  apply alike_peek.bind
  intro token
  split
  · apply alike_next.bind
    intro entry
    apply alike_peekKind.bind
    intro kind
    dsimp only
    split
    · exact (alike_emptyScalar _).bind hend
    · exact (alike_emptyScalar _).bind hend
    · exact (h.node true false).bind hend
  · exact alike_next.bind fun _ => alike_pure []
  · exact alike_fail _ _

theorem alike_indentlessEntries : Alike (indentlessEntries (fuel + 1)) := by
  have hend (id : NodeId) := h.indentlessEntries.bind fun rest => alike_pure (id :: rest)
  unfold indentlessEntries
  apply alike_peekKind.bind
  intro kind
  split
  · apply alike_next.bind
    intro entry
    apply alike_peekKind.bind
    intro kind
    dsimp only
    split
    · exact (alike_emptyScalar _).bind hend
    · exact (alike_emptyScalar _).bind hend
    · exact (alike_emptyScalar _).bind hend
    · exact (alike_emptyScalar _).bind hend
    · exact (h.node true false).bind hend
  · exact alike_pure []

theorem alike_blockPairs : Alike (blockPairs (fuel + 1)) := by
  have hend (key : NodeId) := h.blockValue.bind fun entry =>
    h.blockPairs.bind fun rest => alike_pure ((key, entry) :: rest)
  unfold blockPairs
  apply alike_peek.bind
  intro token
  split
  · apply alike_next.bind
    intro mark
    apply alike_peekKind.bind
    intro kind
    dsimp only
    split
    · exact (alike_emptyScalar _).bind hend
    · exact (alike_emptyScalar _).bind hend
    · exact (alike_emptyScalar _).bind hend
    · exact (h.node true true).bind hend
  · exact alike_next.bind fun _ => alike_pure []
  · exact alike_fail _ _

theorem alike_blockValue : Alike (blockValue (fuel + 1)) := by
  unfold blockValue
  apply alike_peek.bind
  intro token
  split
  · apply alike_next.bind
    intro _
    apply alike_peekKind.bind
    intro kind
    split
    · exact alike_emptyScalar _
    · exact alike_emptyScalar _
    · exact alike_emptyScalar _
    · exact h.node true true
  · exact alike_emptyScalar _

theorem alike_flowItems (first : Bool) : Alike (flowItems first (fuel + 1)) := by
  have hend (id : NodeId) := (h.flowItems false).bind fun rest => alike_pure (id :: rest)
  unfold flowItems
  apply alike_peek.bind
  intro token
  split
  · exact alike_next.bind fun _ => alike_pure []
  · extract_lets jp
    have hjp (u : Unit) : Alike (jp u) := by
      apply alike_peek.bind
      intro token
      split
      · exact alike_next.bind fun _ => alike_pure []
      · refine Alike.bind ?_ hend
        exact alike_collection ⟨none, none, none⟩ token.start .mapping (.mapping [])
          (h.flowPair.bind fun _ => alike_pure _)
      · exact (h.node false false).bind hend
    clear_value jp
    split
    · split
      · exact alike_next.bind fun _ => hjp ()
      · exact (alike_fail _ _).bind hjp
    · exact hjp ()

theorem alike_flowValue (close : TokenKind) : Alike (flowValue close (fuel + 1)) := by
  unfold flowValue
  apply alike_peek.bind
  intro token
  split
  · apply alike_next.bind
    intro _
    apply alike_peekKind.bind
    intro kind
    split
    · exact alike_emptyScalar _
    · exact h.node false false
  · exact alike_emptyScalar _

theorem alike_flowPair : Alike (flowPair (fuel + 1)) := by
  have hend (key : NodeId) := (h.flowValue .flowSequenceEnd).bind fun entry =>
    alike_pure (key, entry)
  unfold flowPair
  apply alike_next.bind
  intro mark
  apply alike_peekKind.bind
  intro kind
  dsimp only
  split
  · exact (alike_emptyScalar _).bind hend
  · exact (alike_emptyScalar _).bind hend
  · exact (alike_emptyScalar _).bind hend
  · exact (h.node false false).bind hend

theorem alike_flowPairs (first : Bool) : Alike (flowPairs first (fuel + 1)) := by
  have hend (key entry : NodeId) := (h.flowPairs false).bind fun rest =>
    alike_pure ((key, entry) :: rest)
  have hvalue (key : NodeId) := (h.flowValue .flowMappingEnd).bind (hend key)
  unfold flowPairs
  apply alike_peek.bind
  intro token
  split
  · exact alike_next.bind fun _ => alike_pure []
  · extract_lets value jp
    have hjp (u : Unit) : Alike (jp u) := by
      apply alike_peekKind.bind
      intro kind
      split
      · exact alike_next.bind fun _ => alike_pure []
      · apply alike_next.bind
        intro mark
        apply alike_peekKind.bind
        intro kind
        split
        · exact (alike_emptyScalar _).bind hvalue
        · exact (alike_emptyScalar _).bind hvalue
        · exact (alike_emptyScalar _).bind hvalue
        · exact (h.node false false).bind hvalue
      · exact (h.node false false).bind fun key => alike_peek.bind fun token =>
          (alike_emptyScalar token.start).bind (hend key)
    clear_value jp
    split
    · split
      · exact alike_next.bind fun _ => hjp ()
      · exact (alike_fail _ _).bind hjp
    · exact hjp ()

end Succ

theorem nodesAlike [Host] (fuel : Nat) : NodesAlike fuel := by
  induction fuel with
  | zero => exact nodesAlike_zero
  | succ fuel ih =>
      exact ⟨alike_node ih, alike_blockEntries ih, alike_indentlessEntries ih, alike_blockPairs ih,
        alike_blockValue ih, alike_flowItems ih, alike_flowPair ih, alike_flowValue ih,
        alike_flowPairs ih⟩

theorem alike_directives (fuel : Nat) (version : Bool) (handles : List (String × String)) :
    Alike (directives fuel version handles) := by
  induction fuel generalizing version handles with
  | zero => exact alike_pure handles
  | succ fuel ih =>
      unfold directives
      apply alike_peek.bind
      intro token
      split
      · apply alike_next.bind
        intro _
        split
        · next major _ =>
            have hmajor : Alike (if major ≠ 1 then
                fail .unsupportedVersion token.start >>= fun _ : Unit =>
                  directives fuel true handles
                else directives fuel true handles) := by
              split
              · exact (alike_fail _ _).bind fun _ => ih true handles
              · exact ih true handles
            dsimp only
            split
            · exact (alike_fail _ _).bind fun _ => hmajor
            · exact hmajor
        · dsimp only
          split
          · exact (alike_fail _ _).bind fun _ => ih version _
          · exact ih version _
        · exact ih version handles
      · exact alike_pure handles

theorem alike_skipDocumentEnds (fuel : Nat) : Alike (skipDocumentEnds fuel) := by
  induction fuel with
  | zero => exact alike_pure ()
  | succ fuel ih =>
      unfold skipDocumentEnds
      apply alike_peekKind.bind
      intro kind
      split
      · exact alike_next.bind fun _ => ih
      · exact alike_pure ()

theorem alike_documentStart (fuel : Nat) : Alike (documentStart fuel) := by
  unfold documentStart
  apply (alike_skipDocumentEnds fuel).bind
  intro _
  apply alike_peekKind.bind
  intro kind
  split
  · exact alike_pure false
  · apply (alike_directives fuel false []).bind
    intro handles
    apply alike_peek.bind
    intro token
    extract_lets jp
    have hjp (u : Unit) : Alike (jp u) := by
      apply alike_next.bind
      intro _
      refine Alike.bind ?_ fun _ => alike_pure true
      intro s
      exact runs_modify { s with handles := handles ++ defaultHandles } (fun _ => rfl)
        (Draft.extends_of_sketch_eq rfl)
    clear_value jp
    split
    · exact (alike_fail _ _).bind hjp
    · exact hjp ()

theorem alike_documentContent [Host] (fuel : Nat) : Alike (documentContent fuel) := by
  unfold documentContent
  apply alike_peek.bind
  intro token
  split
  · exact alike_emptyScalar _
  · exact alike_emptyScalar _
  · exact alike_emptyScalar _
  · exact alike_emptyScalar _
  · exact (nodesAlike fuel).node true false

theorem alike_document [Host] (fuel : Nat) : Alike (document fuel) := by
  unfold document
  apply alike_peek.bind
  intro token
  extract_lets jp
  have hjp (root : Option NodeId) : Alike (jp root) := by
    dsimp only [jp]
    split
    · apply alike_peek.bind
      intro token
      apply (alike_documentStart fuel).bind
      intro more
      split
      · exact (alike_fail _ _).bind fun _ => alike_pure root
      · exact alike_pure root
    · exact alike_pure root
  clear_value jp
  have hexplicit : Alike (documentStart fuel >>= fun started =>
      if started = true then documentContent fuel >>= fun id => pure (some id) >>= jp
      else pure none >>= jp) := by
    apply (alike_documentStart fuel).bind
    intro started
    split
    · exact (alike_documentContent fuel).bind fun id => (alike_pure _).bind hjp
    · exact (alike_pure none).bind hjp
  split
  · exact hexplicit
  · exact hexplicit
  · exact hexplicit
  · exact ((nodesAlike fuel).node true false).bind fun id => (alike_pure _).bind hjp

end Read

/-- A text is composed alike under all rules: it fails with one error, or it has one sketch, which
the rules make into a graph. -/
theorem Graph.ofText_alike [Host] (text : String) :
    (∃ e, ∀ rules, Graph.ofText rules text = .error e) ∨
      ∃ (sketch : Sketch) (root : Option NodeId), sketch.Sound ∧
        ∀ rules, Graph.ofText rules text = .ok (sketch.resolve rules, root) := by
  generalize hstream : TokenStream.ofText text.toList = stream
  let start : Draft :=
    { tokens := stream.tokens, error := stream.error, handles := Read.defaultHandles,
      anchors := [], sketch := ⟨#[]⟩, depth := 0 }
  have hsound : start.sketch.Sound := by
    intro id n text hn
    simp [start] at hn
  have hempty (rules : List ImplicitRule) : start.sketch.resolve rules = .empty := by
    simp [start, Sketch.resolve, Graph.empty]
  have hrun (rules : List ImplicitRule) : Graph.ofText rules text =
      (Read.document (4 * stream.tokens.length + 16)).run (start.under rules) >>=
        fun result => .ok (result.2.graph, result.1) := by
    unfold Graph.ofText
    rw [hstream, Draft.under, hempty]
    rfl
  cases Read.alike_document (4 * stream.tokens.length + 16) start with
  | failed e h =>
      left
      refine ⟨e, fun rules => ?_⟩
      rw [hrun, h]
      rfl
  | done root s' hs' h =>
      right
      refine ⟨s'.sketch, root, hs'.sound hsound, fun rules => ?_⟩
      rw [hrun, h]
      rfl

end VoiceIntents.Yaml
