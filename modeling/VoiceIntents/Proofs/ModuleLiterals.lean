import VoiceIntents.Proofs.ModuleText

/-!
# The texts that a module holds as literals

The values of enumerations, the names of intents and the keys of arguments stand in the text of a
module as literals. Any text may be one of them. Each is quoted as one literal on one line that
stands for it, and modules that differ in nothing but such texts have different texts.
-/

namespace VoiceIntents

open Text

/-- A member of an enumeration with its value left out. -/
def EnumMember.blanked (m : EnumMember) : EnumMember := { m with value := "" }

def EnumType.blanked (e : EnumType) : EnumType :=
  { e with members := e.members.map EnumMember.blanked }

/-- An argument with its keys left out; their number is kept. -/
def Argument.blanked (a : Argument) : Argument :=
  { a with key := "", aliases := a.aliases.map fun _ => "" }

def Case.blanked (c : Case) : Case :=
  { c with intentName := "", arguments := c.arguments.map Argument.blanked }

def Decoder.blanked (d : Decoder) : Decoder := { d with cases := d.cases.map Case.blanked }

/-- A module with the texts left out that it holds as literals. -/
def TypedModule.blanked (m : TypedModule) : TypedModule :=
  { m with enums := m.enums.map EnumType.blanked, decoder := m.decoder.blanked }

namespace Text

/-- What is written, and what follows it, can be told from the two together by one who knows it
with its literals left out. -/
def Legible {α : Type} (blank : α → α) (write : α → List Char) : Prop :=
  ∀ ⦃a b r s⦄, blank a = blank b → write a ++ r = write b ++ s → a = b ∧ r = s

theorem Legible.flatMap {α : Type} {blank : α → α} {write : α → List Char}
    (h : Legible blank write) : Legible (List.map blank) (List.flatMap write) := by
  intro as
  induction as with
  | nil =>
      intro bs r s hblank htext
      cases bs with
      | nil => exact ⟨rfl, htext⟩
      | cons b bs => cases hblank
  | cons a as ih =>
      intro bs r s hblank htext
      cases bs with
      | nil => cases hblank
      | cons b bs =>
          obtain ⟨ha, has⟩ := List.cons.inj hblank
          rw [List.flatMap_cons, List.flatMap_cons, List.append_assoc, List.append_assoc] at htext
          obtain ⟨rfl, hmore⟩ := h ha htext
          obtain ⟨rfl, hrest⟩ := ih has hmore
          exact ⟨rfl, hrest⟩

/-- A block that says something else where it has nothing to list. -/
theorem Legible.block {α : Type} {blank : α → α} {write : α → List Char} (h : Legible blank write)
    (nothing before after : List Char) :
    Legible (List.map blank) fun items =>
      if items.isEmpty then nothing else before ++ (items.flatMap write ++ after) := by
  intro as bs r s hblank htext
  have hempty : as.isEmpty = bs.isEmpty := by
    rw [← List.isEmpty_map, hblank, List.isEmpty_map]
  dsimp only at htext
  rw [hempty] at htext
  by_cases hbs : bs.isEmpty
  · rw [if_pos hbs, if_pos hbs] at htext
    refine ⟨?_, List.append_cancel_left htext⟩
    rw [List.isEmpty_iff.mp hbs, List.isEmpty_iff.mp (hempty.trans hbs)]
  · simp only [if_neg hbs, List.append_assoc, List.append_cancel_left_eq] at htext
    obtain ⟨rfl, hrest⟩ := h.flatMap hblank htext
    exact ⟨rfl, List.append_cancel_left hrest⟩

/-- A literal is told from any text behind a fixed one. -/
theorem legible_quote (before : List Char) :
    Legible (fun _ => "") fun text => before ++ (quote text).toList := by
  intro a b r s _ htext
  rw [List.append_assoc, List.append_assoc] at htext
  exact quote_append_inj (List.append_cancel_left htext)

end Text

namespace TypedModule

section Parts

theorem legible_memberText : Legible EnumMember.blanked fun m => (memberText m).toList := by
  rintro ⟨name, value⟩ ⟨name', value'⟩ r s hblank htext
  simp only [EnumMember.blanked, EnumMember.mk.injEq, and_true] at hblank
  subst hblank
  simp only [memberText, String.toList_append, List.append_assoc,
    List.append_cancel_left_eq] at htext
  obtain ⟨rfl, hrest⟩ := quote_append_inj htext
  exact ⟨rfl, List.append_cancel_left hrest⟩

theorem legible_enumText : Legible EnumType.blanked fun e => (enumText e).toList := by
  have hbody := legible_memberText.block "    pass\n".toList [] []
  rintro ⟨name, members⟩ ⟨name', members'⟩ r s hblank htext
  simp only [EnumType.blanked, EnumType.mk.injEq] at hblank
  obtain ⟨rfl, hmembers⟩ := hblank
  simp only [toList_enumText, List.append_assoc, List.append_cancel_left_eq,
    apply_ite String.toList, toList_join_map] at htext
  simp only [List.nil_append, List.append_nil] at hbody
  obtain ⟨rfl, hrest⟩ := hbody hmembers htext
  exact ⟨rfl, hrest⟩

theorem legible_argumentText : Legible Argument.blanked fun a => (argumentText a).toList := by
  rintro ⟨field, key, aliases, enum, required⟩ ⟨field', key', aliases', enum', required'⟩ r s
    hblank htext
  simp only [Argument.blanked, Argument.mk.injEq, true_and] at hblank
  obtain ⟨rfl, haliases, rfl, rfl⟩ := hblank
  simp only [toList_argumentText, Argument.lookupKeys, toList_keys, List.append_assoc,
    List.append_cancel_left_eq] at htext
  obtain ⟨rfl, hmore⟩ := quote_append_inj htext
  obtain ⟨rfl, hrest⟩ := (legible_quote ", ".toList).flatMap haliases hmore
  exact ⟨rfl, List.append_cancel_left hrest⟩

theorem legible_caseText : Legible Case.blanked fun c => (caseText c).toList := by
  have harguments := legible_argumentText.block ")\n".toList "\n".toList "            )\n".toList
  rintro ⟨intent, variant, arguments⟩ ⟨intent', variant', arguments'⟩ r s hblank htext
  simp only [Case.blanked, Case.mk.injEq, true_and] at hblank
  obtain ⟨rfl, hblanks⟩ := hblank
  simp only [toList_caseText, List.append_assoc, List.append_cancel_left_eq] at htext
  obtain ⟨rfl, hlines⟩ := quote_append_inj htext
  simp only [List.append_cancel_left_eq] at hlines
  obtain ⟨rfl, hrest⟩ := harguments hblanks hlines
  exact ⟨rfl, hrest⟩

end Parts

/-- A module is told from its text by one who knows it with its literals left out. -/
theorem eq_of_render {m m' : TypedModule} (hblank : m.blanked = m'.blanked)
    (htext : m.render = m'.render) : m = m' := by
  obtain ⟨source, project, sumType, enums, ⟨name, type, sentinel, cases⟩⟩ := m
  obtain ⟨source', project', sumType', enums', ⟨name', type', sentinel', cases'⟩⟩ := m'
  simp only [blanked, Decoder.blanked, mk.injEq, Decoder.mk.injEq] at hblank
  obtain ⟨rfl, rfl, rfl, henums, rfl, rfl, rfl, hcases⟩ := hblank
  -- All text around the enumerations and the cases is made of what is not left out.
  have hchars := congrArg String.toList htext
  simp only [render, heading, decoderText, adapterText, matchStart, String.toList_append,
    toList_join_map, List.append_assoc, List.append_cancel_left_eq] at hchars
  obtain ⟨rfl, hdecoder⟩ := legible_enumText.flatMap henums hchars
  simp only [List.append_cancel_left_eq] at hdecoder
  obtain ⟨rfl, _⟩ := legible_caseText.flatMap hcases hdecoder
  rfl

/-- Any text is quoted as one literal on one line. The literal has no line end and no NUL, its
first quote that is not escaped, after the one that opens it, is its last character, and by the
rules for escapes it stands for the text; so it is read wherever no quote follows. No two texts have
one literal, and modules that differ in their enumeration values, intent names and lookup keys
alone have different texts. -/
theorem literals_faithful (text : String) (m m' : TypedModule) :
    (∀ c ∈ (quote text).toList, c ≠ '\n' ∧ c ≠ '\r' ∧ c ≠ '\x00') ∧
      (∃ body, (quote text).toList = '"' :: (body ++ ['"']) ∧
        Quoted.closing (body ++ ['"']) = some (body, []) ∧
        Quoted.decode body = some text.toList) ∧
      (∀ rest, rest.head? ≠ some '"' →
        Quoted.read ((quote text).toList ++ rest) = some (text.toList, rest)) ∧
      (∀ other, quote other = quote text ↔ other = text) ∧
      (m.blanked = m'.blanked ∧ m.render = m'.render ↔ m = m') := by
  refine ⟨?_, ⟨Quoted.encode text.toList, toList_quote text, Quoted.closing_encode _ [],
    Quoted.decode_encode _⟩, ?_, ?_, ?_⟩
  · intro c hc
    have hbreak := Quoted.not_breaks_of_le (le_toNat_of_mem_quote hc)
    simpa only [Quoted.Breaks, not_or] using hbreak
  · intro rest hrest
    rw [toList_quote, List.cons_append, List.append_assoc, List.singleton_append]
    exact Quoted.read_encode text.toList hrest
  · intro other
    refine ⟨fun h => ?_, congrArg quote⟩
    have htexts : (quote other).toList ++ [] = (quote text).toList ++ [] := by rw [h]
    exact (quote_append_inj htexts).1
  · refine ⟨fun h => eq_of_render h.1 h.2, ?_⟩
    rintro rfl
    exact ⟨rfl, rfl⟩

/-- A module with one enumeration, of one value. -/
def holding (text : String) : TypedModule := { bare with enums := [⟨"Word", [⟨"word", text⟩]⟩] }

theorem outcry_faithful :
    ":\n".toList.head? ≠ some '"' ∧
      Quoted.read "\"\\\"no\\\"\\n\\u0000\\\\\":\n".toList =
        some ("\"no\"\n\x00\\".toList, ":\n".toList) ∧
      (holding "\"no\"\n\x00\\").render ≠ (holding "no").render := by
  have hspelled : (quote "\"no\"\n\x00\\").toList ++ ":\n".toList =
      "\"\\\"no\\\"\\n\\u0000\\\\\":\n".toList := by decide
  obtain ⟨_, _, hread, _, hmodules⟩ := literals_faithful "\"no\"\n\x00\\"
    (holding "\"no\"\n\x00\\") (holding "no")
  refine ⟨by decide, ?_, ?_⟩
  · rw [← hspelled]
    exact hread _ (by decide)
  · intro hrender
    have hsame := hmodules.mp ⟨rfl, hrender⟩
    exact absurd (congrArg TypedModule.enums hsame) (by decide)

end TypedModule

end VoiceIntents
