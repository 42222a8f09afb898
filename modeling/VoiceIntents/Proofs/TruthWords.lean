import VoiceIntents.Proofs.BareScalars
import VoiceIntents.Proofs.Composition
import VoiceIntents.Proofs.Contents

/-!
# Truth words stay text

The rules of voice contexts are the core rules without the one for truth values. Leaving it out
changes the tag of the truth words alone: they become text, since no other rule takes them, and
whatever another rule takes was not a truth word. So a bare truth word is loaded as its own text
wherever it stands, and a truth value only comes from a node with a tag that is written.
-/

namespace VoiceIntents.Yaml

namespace ImplicitRule

/-- The rule for truth values. -/
def truth : ImplicitRule := ⟨.bool, startsWith "yYnNtTfFoO", isWord truthWords⟩

theorem core_eq : core = truth :: literal := rfl

theorem tag_ne_bool_of_mem_literal {rule : ImplicitRule} (h : rule ∈ literal) :
    rule.tag ≠ .bool := by
  simpa using (List.mem_filter.mp h).2

/-- The texts of the truth words, alone and before a line feed. -/
def truthTexts : List (List Char) :=
  truthWords.flatMap fun word => [word.toList, word.toList ++ ['\n']]

theorem mem_truthTexts_of_applies {text : List Char} (h : truth.applies text = true) :
    text ∈ truthTexts := by
  apply List.mem_flatMap.mpr
  rcases holds_of_applies h with hholds | ⟨init, rfl, hholds⟩
  · obtain ⟨word, hmem, rfl⟩ := exists_of_contains_ofList hholds
    exact ⟨word, hmem, List.mem_cons_self⟩
  · obtain ⟨word, hmem, rfl⟩ := exists_of_contains_ofList hholds
    exact ⟨word, hmem, List.mem_cons_of_mem _ (List.mem_singleton_self _)⟩

/-- No other rule takes a truth word. -/
theorem find_literal_eq_none {text : List Char} (h : truth.applies text = true) :
    literal.find? (·.applies text) = none := by
  have hall : (truthTexts.all fun t => (literal.find? (·.applies t)).isNone) = true := by
    decide +kernel
  exact Option.isNone_iff_eq_none.mp (List.all_eq_true.mp hall text (mem_truthTexts_of_applies h))

end ImplicitRule

open ImplicitRule

/-- Without the rule for truth values, truth words are text and all other texts keep their
tags. -/
theorem implicitTag_literal (text : String) : implicitTag literal text =
    if implicitTag core text = .bool then .str else implicitTag core text := by
  unfold implicitTag
  rw [core_eq, List.find?_cons]
  cases htruth : truth.applies text.toList with
  | true => simp [find_literal_eq_none htruth, truth]
  | false =>
      cases hfound : literal.find? (·.applies text.toList) with
      | none => simp
      | some rule =>
          have hne := tag_ne_bool_of_mem_literal (List.mem_of_find?_eq_some hfound)
          simp [hne]

theorem implicitTag_literal_ne_bool (text : String) :
    implicitTag literal text ≠ .bool := by
  rw [implicitTag_literal]
  split
  · decide
  · assumption

namespace Sketch
variable {k : Sketch} {rules : List ImplicitRule} {id : NodeId} {origin : Origin}

theorem HasOrigin.tag_eq (h : k.HasOrigin id origin) (rules : List ImplicitRule) :
    (k.resolve rules).tag id = origin.tag rules := by
  obtain ⟨n, hn, rfl⟩ := h
  rw [Graph.tag, k.node_resolve rules hn]
  rfl

/-- A node has the tag of truth values only where it is written. -/
theorem written_of_tag_eq_bool (h : (k.resolve literal).tag id = .bool) :
    k.HasOrigin id (.written .bool) := by
  have hlt : id < k.nodes.size := by
    rw [← Sketch.size, ← k.size_resolve literal]
    apply Graph.lt_size_of_node_ne
    intro habsent
    simp [Graph.tag, habsent, Node.absent] at h
  obtain ⟨n, hn⟩ : ∃ n, k.nodes[id]? = some n := ⟨k.nodes[id], Array.getElem?_eq_getElem hlt⟩
  refine ⟨n, hn, ?_⟩
  rw [HasOrigin.tag_eq ⟨n, hn, rfl⟩] at h
  cases horigin : n.origin with
  | written tag =>
      rw [horigin] at h
      exact congrArg Origin.written h
  | bare text =>
      rw [horigin] at h
      exact absurd h (implicitTag_literal_ne_bool text)
  | untagged kind =>
      rw [horigin] at h
      cases kind <;> cases h

end Sketch

section Gives
variable {g : Graph} {id : NodeId}

/-- A scalar under the tag of texts gives its own text. -/
theorem Graph.gives_iff_of_text {word : String} (htag : g.tag id = .str)
    (hcontent : (g.node id).content = .scalar word) {item : Item} :
    g.Gives id item ↔ item = .scalar (.text word) := by
  have hread : g.readTag id = .str := by simp [Graph.readTag, htag]
  constructor
  · intro h
    cases h with
    | collection h => simp [htag, Make.isCollection] at h
    | scalar h =>
        obtain ⟨text, hown, hscalar⟩ := h
        rw [hread, hown word hcontent] at hscalar
        rw [← Except.ok.inj hscalar]
  · rintro rfl
    refine .scalar ⟨word, ?_, ?_⟩
    · intro own hown
      rw [hcontent] at hown
      exact Content.scalar.inj hown
    · rw [hread]
      rfl

/-- Only a node under the tag of truth values gives one. -/
theorem Graph.Gives.tag_eq_bool {b : Bool} (h : g.Gives id (.scalar (.bool b))) :
    g.tag id = .bool := by
  cases h with
  | scalar h =>
      obtain ⟨text, _, hscalar⟩ := h
      have htag := (tagOf_readScalar hscalar).symm
      unfold Graph.readTag at htag
      split at htag
      · cases htag
      · exact htag

end Gives

/-- A document that is loaded holds what its nodes give, and a bare truth word gives its own text
wherever it stands, and is a key of the mappings that have it as one. Every other bare scalar has
the tag that the core rules give it, and a truth value comes from a node with the tag of truth
values written before it. -/
theorem truth_words_literal [Host] (source : Option String) (text : String) (d : Document)
    (hload : Context.load source text = .ok d) :
    ∃ (k : Sketch) (root : NodeId),
      (∀ rules, Graph.ofText rules text = .ok (k.resolve rules, some root)) ∧
      (k.resolve literal).Loads root d ∧
      (∀ id word, k.HasOrigin id (.bare word) →
        (implicitTag core word = .bool →
          (∀ item, (k.resolve literal).Gives id item ↔ item = .scalar (.text word)) ∧
          ∀ e ∈ d.collections, (k.resolve literal).isMapped e.1 = true →
            ∀ value, (id, value) ∈ (k.resolve literal).pairs e.1 → .text word ∈ e.2.keys) ∧
        (implicitTag core word ≠ .bool →
          (k.resolve literal).tag id = (k.resolve core).tag id)) ∧
      ∀ b, .scalar (.bool b) ∈ d.items →
        ∃ id, k.HasOrigin id (.written .bool) ∧
          (k.resolve literal).Gives id (.scalar (.bool b)) := by
  obtain ⟨g, root, hgraph, hmade, _⟩ := Context.load_eq_ok_iff.mp hload
  obtain ⟨e, herror⟩ | ⟨k, root', hsound, hsketch⟩ := Graph.ofText_alike text
  · rw [herror] at hgraph
    cases hgraph
  · rw [hsketch, Except.ok.injEq, Prod.mk.injEq] at hgraph
    obtain ⟨rfl, rfl⟩ := hgraph
    have hloads := Document.loads hmade
    refine ⟨k, root, hsketch, hloads, ?_, ?_⟩
    · intro id word hbare
      have htag := hbare.tag_eq literal
      rw [Origin.tag, implicitTag_literal] at htag
      constructor
      · intro htruth
        rw [if_pos htruth] at htag
        have hgives {item : Item} : (k.resolve literal).Gives id item ↔
            item = .scalar (.text word) := by
          obtain ⟨n, hn, horigin⟩ := hbare
          apply Graph.gives_iff_of_text htag
          rw [k.node_resolve literal hn]
          exact hsound id n word hn horigin
        refine ⟨fun item => hgives, ?_⟩
        intro e he hmapped value hpair
        refine (hloads.filled e he).text_mem_keys hmapped hpair (by simp [Graph.isPlain, htag]) ?_
        intro s hs
        exact Item.scalar.inj (hgives.mp (.scalar hs))
      · intro hother
        rw [if_neg hother] at htag
        rw [htag, hbare.tag_eq core, Origin.tag]
    · intro b hb
      obtain ⟨id, hgives⟩ := hloads.gives_items _ hb
      exact ⟨id, Sketch.written_of_tag_eq_bool hgives.tag_eq_bool, hgives⟩

/-- Truth words as a key, in a list that is referred to again, and in a mapping that is merged;
one of them has a tag. -/
def switches : String :=
  "on: &a [yes, !!bool yes]\nuser: \x7b<<: \x7boff: *a\x7d, \"no\": no\x7d\n"

def switchesDocument : Document :=
  { root := .node 0
    collections :=
      [(0, .map [(.text "on", .node 2), (.text "user", .node 6)]),
        (2, .list [.scalar (.text "yes"), .scalar (.bool true)]),
        (6, .map [(.text "off", .node 2), (.text "no", .scalar (.text "no"))])] }

section Switches

attribute [local instance] Host.plain

/-- The truth words are loaded as texts. The one truth value comes from the node with a tag. -/
theorem switches_literal : Context.load none switches = .ok switchesDocument ∧
    ∃ (k : Sketch) (id : NodeId), k.HasOrigin id (.written .bool) ∧
      (k.resolve literal).Gives id (.scalar (.bool true)) ∧
      (k.resolve literal).Loads 0 switchesDocument := by
  have hload : Context.load none switches = .ok switchesDocument := by
    rw [← Stepwise.toOption_eq_some_iff]
    decide +kernel
  obtain ⟨k, root, _, hloads, _, htruth⟩ := truth_words_literal none switches _ hload
  obtain ⟨id, hwritten, hgives⟩ := htruth true (by decide)
  refine ⟨hload, k, id, hwritten, hgives, ?_⟩
  have hroot : root = 0 := by
    have hstart := hloads.start
    generalize hitem : switchesDocument.root = item at hstart
    cases hstart with
    | collection _ => exact (Item.node.inj hitem).symm
    | scalar _ => cases hitem
  exact hroot ▸ hloads

end Switches

end VoiceIntents.Yaml
