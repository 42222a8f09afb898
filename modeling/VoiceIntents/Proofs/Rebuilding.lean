import VoiceIntents.Proofs.DeclarationOrder
import VoiceIntents.Proofs.IntentNames

/-!
# Building a grammar again

A grammar can be written as a document: its slots under their identifiers with the words of
their elements, and its intents with their phrases. The phrases still spell slots and variables
as they did, and what was a number is now its text. The document is accepted, and its grammar is
the one that it was written from, because escaping a name that is usable changes nothing.
-/

namespace VoiceIntents

open Identifier (escape Usable)

namespace Outline
variable {o : Outline} {entry : String × List String}

/-- The same outline with every slot under its identifier. -/
def escaped (o : Outline) : Outline :=
  { o with slots := o.slots.map fun entry => (escape entry.1, entry.2) }

/-- The name of a slot that keeps the rules is escaped once and for all. -/
theorem SlotRules.escape_escape (h : SlotRules entry) : escape (escape entry.1) = escape entry.1 :=
  h.name_usable.escape_eq

theorem SlotRules.escaped (h : SlotRules entry) : SlotRules (escape entry.1, entry.2) where
  name_usable := by
    rw [h.escape_escape]
    exact h.name_usable
  words_usable := h.words_usable
  words_allowed := h.words_allowed
  words_distinct := h.words_distinct

theorem SlotRules.toSlot_escaped (h : SlotRules entry) :
    toSlot (escape entry.1, entry.2) = toSlot entry := by
  simp only [toSlot, h.escape_escape]

theorem WellDeclared.map_toSlot_escaped (h : o.WellDeclared) :
    o.escaped.slots.map toSlot = o.slots.map toSlot := by
  rw [escaped, List.map_map]
  apply List.map_congr_left
  intro entry hentry
  exact (h.slots entry hentry).toSlot_escaped

theorem WellDeclared.slotNames_escaped (h : o.WellDeclared) :
    o.escaped.slotNames = o.slotNames := by
  calc o.escaped.slotNames
      = (o.escaped.slots.map toSlot).map (·.name) := (Grammar.map_toSlot_name _).symm
    _ = (o.slots.map toSlot).map (·.name) := by rw [h.map_toSlot_escaped]
    _ = o.slotNames := Grammar.map_toSlot_name _

/-- The rules hold for the identifiers of the slots if they hold for the names as written. -/
theorem WellDeclared.escaped (h : o.WellDeclared) : o.escaped.WellDeclared where
  slots_distinct := by
    rw [h.slotNames_escaped]
    exact h.slots_distinct
  slots := by
    intro entry hentry
    obtain ⟨original, horiginal, rfl⟩ := List.mem_map.mp hentry
    exact (h.slots original horiginal).escaped
  has_intents := h.has_intents
  intents := by
    rw [h.slotNames_escaped]
    exact h.intents
  slots_free := by
    rw [h.slotNames_escaped]
    exact h.slots_free
  intents_free := h.intents_free
  intents_apart := by
    rw [h.slotNames_escaped]
    exact h.intents_apart

theorem WellDeclared.grammar_escaped (h : o.WellDeclared) (source : Option String) :
    o.escaped.grammar source = o.grammar source := by
  simp only [grammar, h.map_toSlot_escaped]
  rfl

end Outline

namespace Grammar

/-- The names and texts of a grammar. -/
def outline (g : Grammar) : Outline :=
  { slots := g.slots.map fun s => (s.name, s.words)
    intents := g.intents.map fun i => (i.name, i.phrases) }

/-- A name with texts as an entry of a document. -/
def toEntry (named : String × List String) : Scalar × Value :=
  (.text named.1, .list (named.2.map Value.text))

/-- The document that has the slots and intents of a grammar in their order. -/
def toDocument (g : Grammar) : Value :=
  contextWith (g.outline.slots.map toEntry) (g.outline.intents.map toEntry)

theorem readsEntry_toEntry (named : String × List String) : ReadsEntry (toEntry named) named := by
  refine ⟨rfl, .list ?_⟩
  rw [List.forall₂_map_left_iff]
  exact List.forall₂_same.mpr fun text _ => ⟨rfl, rfl⟩

theorem reads_toDocument (g : Grammar) : Reads g.toDocument g.outline := by
  have hentries (named : List (String × List String)) :
      List.Forall₂ ReadsEntry (named.map toEntry) named := by
    rw [List.forall₂_map_left_iff]
    exact List.forall₂_same.mpr fun n _ => readsEntry_toEntry n
  exact ⟨_, _, _, rfl, rfl, .map (hentries _), rfl, hentries _⟩

theorem words_toSlot (entry : String × List String) : (Outline.toSlot entry).words = entry.2 := by
  simp [Slot.words, Outline.toSlot, Function.comp_def]

/-- The grammar of an outline keeps the words and phrases, and escapes the names of slots. -/
theorem outline_grammar (o : Outline) (source : Option String) :
    (o.grammar source).outline = o.escaped := by
  simp only [outline, Outline.grammar, Outline.escaped, List.map_map, Function.comp_def,
    words_toSlot]
  simp [Outline.toSlot, Outline.toIntent]

theorem outline_wellDeclared {source : Option String} {document : Value} {g : Grammar}
    (h : ofValue source document = .ok g) :
    g.outline.WellDeclared ∧ g.outline.grammar source = g := by
  obtain ⟨o, _, hrules, rfl⟩ := ofValue_eq_ok_iff.mp h
  rw [outline_grammar]
  exact ⟨hrules.escaped, hrules.grammar_escaped source⟩

theorem expressionKeys_toDocument (g : Grammar) :
    Context.expressionKeys g.toDocument = g.intents.map fun i => .text i.name := by
  change (g.outline.intents.map toEntry).map (·.1) = _
  simp [outline, toEntry]

/-- A key that is a text is the name that it is read as. -/
theorem keys_of_reads {entries : List (Scalar × Value)} {named : List (String × List String)}
    (h : List.Forall₂ ReadsEntry entries named)
    (hkeys : ∀ entry ∈ entries, ∃ name, entry.1 = .text name) :
    entries.map (·.1) = named.map fun n => .text n.1 := by
  induction h with
  | nil => rfl
  | @cons entry n entries named hentry _ ih =>
      obtain ⟨⟨name, hname⟩, hrest⟩ := List.forall_mem_cons.mp hkeys
      have hdisplay : (Scalar.text name).display = .ok n.1 := hname ▸ hentry.1
      have htext : name = n.1 := Except.ok.inj hdisplay
      rw [List.map_cons, List.map_cons, hname, htext, ih hrest]

theorem expressionKeys_eq {source : Option String} {document : Value} {g : Grammar}
    (h : ofValue source document = .ok g)
    (hkeys : ∀ key ∈ Context.expressionKeys document, ∃ name, key = .text name) :
    Context.expressionKeys document = g.intents.map fun i => .text i.name := by
  obtain ⟨o, ⟨root, context, entries, rfl, hcontext, _, hexpressions, hread⟩, _, rfl⟩ :=
    ofValue_eq_ok_iff.mp h
  have hentries : Context.expressionKeys (.map root) = entries.map (·.1) := by
    simp only [Context.expressionKeys, hcontext, hexpressions]
  rw [hentries, List.forall_mem_map] at hkeys
  rw [hentries, keys_of_reads hread hkeys, Outline.grammar, List.map_map]
  rfl

end Grammar

/-- The document of a grammar that was built is accepted, and the grammar is built from it again.
If the intents of the original document are declared under texts, they keep these for keys. -/
theorem rebuilt_same (source : Option String) (document : Value) (g : Grammar)
    (h : Grammar.ofValue source document = .ok g) :
    Grammar.ofValue source g.toDocument = .ok g ∧
    ((∀ key ∈ Context.expressionKeys document, ∃ name, key = .text name) →
      Context.expressionKeys g.toDocument = Context.expressionKeys document) := by
  obtain ⟨hrules, hgrammar⟩ := Grammar.outline_wellDeclared h
  constructor
  · apply Grammar.ofValue_eq_ok_iff.mpr
    exact ⟨g.outline, Grammar.reads_toDocument g, hrules, hgrammar.symm⟩
  · intro hkeys
    rw [Grammar.expressionKeys_toDocument, Grammar.expressionKeys_eq h hkeys]

/-- The grammar of the context of loops, where keywords are escaped and the number is a text. -/
def loopGrammar : Grammar :=
  let kinds : Slot := ⟨"For", [⟨"If", "if"⟩, ⟨"While", "while"⟩]⟩
  { intents :=
      [⟨"Loop", [⟨"Class", "class", kinds, false⟩], ["loop $for:class now", "7"]⟩,
        ⟨"Stop", [], ["stop"]⟩]
    slots := [kinds, ⟨"Unused", []⟩]
    source := none }

/-- The phrase still refers to the slot as `for`, and is bound to the slot that is now written
as `For`. -/
theorem loopContext_rebuilt :
    Grammar.ofValue none loopContext = .ok loopGrammar ∧
      Grammar.ofValue none loopGrammar.toDocument = .ok loopGrammar ∧
      Context.expressionKeys loopGrammar.toDocument = [.text "Loop", .text "Stop"] := by
  have hbuilt : Grammar.ofValue none loopContext = .ok loopGrammar := rfl
  obtain ⟨hagain, hkeys⟩ := rebuilt_same none loopContext loopGrammar hbuilt
  refine ⟨hbuilt, hagain, hkeys ?_⟩
  intro key hkey
  have hname : key = .text "Loop" ∨ key = .text "Stop" := by
    simpa [Context.expressionKeys, loopContext, lookup] using hkey
  rcases hname with rfl | rfl
  · exact ⟨"Loop", rfl⟩
  · exact ⟨"Stop", rfl⟩

end VoiceIntents
