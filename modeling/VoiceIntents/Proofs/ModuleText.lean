import VoiceIntents.Proofs.Delimited

/-!
# The text of a module, part by part

The variants, the enumerations and the cases of a module stand in its text one after another.
Each part ends where it is seen to end, so the code of a module determines what it declares.
-/

namespace VoiceIntents

open Text
open Identifier (Usable)

/-- Names that end where the text goes on. -/
def Field.Named (f : Field) : Prop := Usable f.name ∧ Usable f.typeName

def Variant.Named (v : Variant) : Prop := Usable v.name ∧ ∀ f ∈ v.fields, f.Named

def EnumType.Named (e : EnumType) : Prop := Usable e.name ∧ ∀ m ∈ e.members, Usable m.name

def Argument.Named (a : Argument) : Prop := Usable a.field ∧ Usable a.enumName

def Case.Named (c : Case) : Prop := Usable c.variant ∧ ∀ a ∈ c.arguments, a.Named

namespace TypedModule

theorem toList_join_map {α : Type} (write : α → String) (items : List α) :
    (String.join (items.map write)).toList = items.flatMap fun a => (write a).toList := by
  induction items with
  | nil => rfl
  | cons a items ih => rw [List.map_cons, String.join_cons, String.toList_append, ih,
      List.flatMap_cons]

section Bodies

/-- The body of a class ends where a line is not indented. -/
def BodyEnd (rest : List Char) : Prop := rest.head? ≠ some ' '

/-- The lines of a class, each of which begins with a name; without any there is one that does
nothing. -/
theorem delimited_body {α : Type} {P : α → Prop} {write : α → String} (name : α → String)
    (hwrite : Delimited P (fun a => (write a).toList) fun _ => True)
    (hname : ∀ a, P a → Usable (name a))
    (hbegin : ∀ a, ∃ c rest, isIdentifierContinue c = false ∧
      (write a).toList = "    ".toList ++ ((name a).toList ++ c :: rest)) :
    Delimited (fun items : List α => ∀ a ∈ items, P a)
      (fun items => (if items.isEmpty then "    pass\n" else String.join (items.map write)).toList)
      BodyEnd := by
  have hlines : Delimited (fun items : List α => ∀ a ∈ items, P a)
      (fun items => items.flatMap fun a => (write a).toList) BodyEnd := by
    refine hwrite.flatMap (fun _ _ _ => trivial) (fun _ _ => trivial) ?_
    intro a r _ hend
    obtain ⟨c, rest, _, hline⟩ := hbegin a
    exact hend (by rw [hline]; rfl)
  -- No line of a usable name is the one that does nothing.
  have hpass (a : α) (items : List α) (ha : P a) (r s : List Char) :
      "    pass\n".toList ++ r ≠ (String.join ((a :: items).map write)).toList ++ s := by
    intro h
    obtain ⟨c, rest, hc, hline⟩ := hbegin a
    rw [toList_join_map, List.flatMap_cons, hline] at h
    have hrest : "pass".toList ++ '\n' :: r = (name a).toList ++ c :: (rest ++
        (items.flatMap fun a => (write a).toList) ++ s) := by
      have hindented : "    ".toList ++ ("pass".toList ++ '\n' :: r) = "    ".toList ++
          ((name a).toList ++ c :: (rest ++ (items.flatMap fun a => (write a).toList) ++ s)) := by
        simpa using h
      exact List.append_cancel_left hindented
    have hsame : "pass".toList = (name a).toList := by
      have htaken := congrArg (List.takeWhile isIdentifierContinue) hrest
      rwa [takeWhile_name (by decide) (nameEnd_cons (by decide)),
        takeWhile_name (Identifier.usable_iff.mp (hname a ha)).1 (nameEnd_cons hc)] at htaken
    have hreserved := (Identifier.usable_iff.mp (hname a ha)).2.1
    rw [← String.toList_injective hsame] at hreserved
    exact hreserved (by decide)
  intro as bs r s h has hbs hr hs
  cases as with
  | nil =>
      cases bs with
      | nil => exact ⟨rfl, List.append_cancel_left h⟩
      | cons b bs => exact absurd h (hpass b bs (hbs b (by simp)) r s)
  | cons a as =>
      cases bs with
      | nil => exact absurd h.symm (hpass a as (has a (by simp)) s r)
      | cons b bs =>
          refine hlines ?_ has hbs hr hs
          simpa only [List.isEmpty_cons, Bool.false_eq_true, if_false, toList_join_map] using h

theorem toList_annotation (f : Field) :
    f.annotation.toList = f.typeName.toList ++ if f.optional then " | None".toList else [] := by
  unfold Field.annotation
  cases f.optional <;> simp

theorem delimited_fieldText :
    Delimited Field.Named (fun f => (fieldText f).toList) fun _ => True := by
  rintro ⟨name, type, optional⟩ ⟨name', type', optional'⟩ r s h ⟨hname, htype⟩ ⟨hname', htype'⟩ _ _
  simp only [fieldText, toList_annotation, String.toList_append, List.append_assoc] at h
  have hend (optional : Bool) (r : List Char) :
      NameEnd ((if optional then " | None".toList else []) ++ ("\n".toList ++ r)) := by
    cases optional
    · exact nameEnd_cons (c := '\n') (by decide)
    · exact nameEnd_cons (c := ' ') (by decide)
  obtain ⟨rfl, hcolon⟩ := delimited_name (List.append_cancel_left h) hname hname'
    (nameEnd_cons (c := ':') (by decide)) (nameEnd_cons (c := ':') (by decide))
  obtain ⟨rfl, hoptional⟩ := delimited_name (List.append_cancel_left hcolon) htype htype'
    (hend optional r) (hend optional' s)
  cases optional <;> cases optional' <;> simp at hoptional ⊢
  · exact hoptional
  · exact hoptional

theorem toList_variantText (base : String) (v : Variant) : (variantText base v).toList =
    "\n\n@dataclass(frozen=True)\nclass ".toList ++ (v.name.toList ++ ('(' :: (base.toList ++
      ("):\n".toList ++ (if v.fields.isEmpty then "    pass\n"
        else String.join (v.fields.map fieldText)).toList)))) := by
  simp [variantText, classHead, unlines]

/-- A variant's class goes on to the end of its body. -/
theorem delimited_variantText (base : String) :
    Delimited Variant.Named (fun v => (variantText base v).toList) BodyEnd := by
  have hbody := delimited_body Field.name delimited_fieldText (fun f hf => hf.1)
    fun f => ⟨':', ' ' :: (f.annotation.toList ++ ['\n']), by decide, by simp [fieldText]⟩
  rintro ⟨name, fields⟩ ⟨name', fields'⟩ r s h ⟨hname, hfields⟩ ⟨hname', hfields'⟩ hr hs
  simp only [toList_variantText, List.append_assoc, List.cons_append] at h
  obtain ⟨rfl, hhead⟩ := delimited_name (List.append_cancel_left h) hname hname'
    (nameEnd_cons (by decide)) (nameEnd_cons (by decide))
  have hbodies := List.append_cancel_left (List.append_cancel_left (List.cons.inj hhead).2)
  obtain ⟨rfl, hrest⟩ := hbody hbodies hfields hfields' hr hs
  exact ⟨rfl, hrest⟩

theorem delimited_memberText : Delimited (fun m : EnumMember => Usable m.name)
    (fun m => (memberText m).toList) fun _ => True := by
  rintro ⟨name, value⟩ ⟨name', value'⟩ r s h hname hname' _ _
  simp only [memberText, String.toList_append, List.append_assoc] at h
  obtain ⟨rfl, hequals⟩ := delimited_name (List.append_cancel_left h) hname hname'
    (nameEnd_cons (c := ' ') (by decide)) (nameEnd_cons (c := ' ') (by decide))
  obtain ⟨rfl, hrest⟩ :=
    delimited_quote (List.append_cancel_left hequals) trivial trivial trivial trivial
  exact ⟨rfl, List.append_cancel_left hrest⟩

theorem toList_enumText (e : EnumType) : (enumText e).toList =
    "\n\nclass ".toList ++ (e.name.toList ++ ("(Enum):\n".toList ++
      (if e.members.isEmpty then "    pass\n"
        else String.join (e.members.map memberText)).toList)) := by
  unfold enumText
  generalize (if e.members.isEmpty then "    pass\n"
    else String.join (e.members.map memberText)) = body
  simp only [String.toList_append, List.append_assoc]

theorem delimited_enumText : Delimited EnumType.Named (fun e => (enumText e).toList) BodyEnd := by
  have hbody := delimited_body EnumMember.name delimited_memberText (fun m hm => hm)
    fun m => ⟨' ', "= ".toList ++ ((Text.quote m.value).toList ++ ['\n']), by decide,
      by simp [memberText]⟩
  rintro ⟨name, members⟩ ⟨name', members'⟩ r s h ⟨hname, hmembers⟩ ⟨hname', hmembers'⟩ hr hs
  simp only [toList_enumText, List.append_assoc] at h
  obtain ⟨rfl, hhead⟩ := delimited_name (List.append_cancel_left h) hname hname'
    (nameEnd_cons (c := '(') (by decide)) (nameEnd_cons (c := '(') (by decide))
  obtain ⟨rfl, hrest⟩ := hbody (List.append_cancel_left hhead) hmembers hmembers' hr hs
  exact ⟨rfl, hrest⟩

end Bodies

section Cases

theorem toList_keys (key : String) (aliases : List String) :
    (", ".intercalate ((key :: aliases).map Text.quote)).toList =
      (Text.quote key).toList ++ aliases.flatMap fun a => ", ".toList ++ (Text.quote a).toList := by
  induction aliases generalizing key with
  | nil => simp
  | cons a aliases ih =>
      rw [List.map_cons, List.map_cons, String.intercalate_cons_cons, ← List.map_cons,
        String.toList_append, ih]
      simp

/-- The keys of an argument go on while a comma follows. -/
theorem delimited_keys : Delimited (fun _ : String × List String => True)
    (fun keys => (", ".intercalate ((keys.1 :: keys.2).map Text.quote)).toList)
    fun rest => rest.head? ≠ some ',' := by
  have hmore : Delimited (fun aliases : List String => ∀ a ∈ aliases, True)
      (fun aliases => aliases.flatMap fun a => ", ".toList ++ (Text.quote a).toList)
      fun rest => rest.head? ≠ some ',' := by
    have hone : Delimited (fun _ : String => True)
        (fun a => ", ".toList ++ (Text.quote a).toList) fun _ => True := by
      intro a b r s h _ _ _ _
      rw [List.append_assoc, List.append_assoc] at h
      exact delimited_quote (List.append_cancel_left h) trivial trivial trivial trivial
    exact hone.flatMap (fun _ _ _ => trivial) (fun _ _ => trivial) (fun a r _ hend => hend rfl)
  rintro ⟨key, aliases⟩ ⟨key', aliases'⟩ r s h _ _ hr hs
  simp only [toList_keys, List.append_assoc] at h
  obtain ⟨rfl, haliases⟩ := delimited_quote h trivial trivial trivial trivial
  obtain ⟨rfl, hrest⟩ := hmore haliases (by simp) (by simp) hr hs
  exact ⟨rfl, hrest⟩

/-- The parts of an argument. Its keys are kept apart: they are no fixed text. -/
theorem toList_argumentText (a : Argument) : (argumentText a).toList =
    "                ".toList ++ (a.field.toList ++ ("=".toList ++
      ((if a.required then "_required_slot" else "_optional_slot").toList ++
        ("(_slots, _intent, ".toList ++ (a.enumName.toList ++ (", ".toList ++
          ((", ".intercalate (a.lookupKeys.map Text.quote)).toList ++ "),\n".toList))))))) := by
  unfold argumentText
  generalize ", ".intercalate (a.lookupKeys.map Text.quote) = keys
  generalize (if a.required then "_required_slot" else "_optional_slot") = reader
  simp only [String.toList_append, List.append_assoc]

theorem toList_caseText (c : Case) : (caseText c).toList =
    "        case ".toList ++ ((Text.quote c.intentName).toList ++
      (":\n            return ".toList ++ (c.variant.toList ++ ("(".toList ++
        if c.arguments.isEmpty then ")\n".toList else "\n".toList ++
          ((c.arguments.flatMap fun a => (argumentText a).toList) ++
            "            )\n".toList))))) := by
  unfold caseText
  rw [← toList_join_map]
  generalize Text.quote c.intentName = intent
  generalize String.join (c.arguments.map argumentText) = arguments
  split <;> simp only [String.toList_append, List.append_assoc]

theorem delimited_argumentText :
    Delimited Argument.Named (fun a => (argumentText a).toList) fun _ => True := by
  rintro ⟨field, key, aliases, enum, required⟩ ⟨field', key', aliases', enum', required'⟩ r s h
    ⟨hfield, henum⟩ ⟨hfield', henum'⟩ _ _
  simp only [toList_argumentText, List.append_assoc] at h
  obtain ⟨rfl, hequals⟩ := delimited_name (List.append_cancel_left h) hfield hfield'
    (nameEnd_cons (c := '=') (by decide)) (nameEnd_cons (c := '=') (by decide))
  have hreader := List.append_cancel_left hequals
  obtain rfl : required = required' := by
    cases required <;> cases required'
    · rfl
    · simp at hreader
    · simp at hreader
    · rfl
  have henums := List.append_cancel_left (List.append_cancel_left hreader)
  obtain ⟨rfl, hcomma⟩ := delimited_name henums henum henum'
    (nameEnd_cons (c := ',') (by decide)) (nameEnd_cons (c := ',') (by decide))
  obtain ⟨hsame, hrest⟩ := @delimited_keys (key, aliases) (key', aliases') _ _
    (List.append_cancel_left hcomma) trivial trivial (by simp) (by simp)
  obtain ⟨rfl, rfl⟩ := Prod.mk.inj hsame
  exact ⟨rfl, List.append_cancel_left hrest⟩

/-- The arguments of a case end where a line is indented less. -/
def ArgumentsEnd (rest : List Char) : Prop := ¬List.replicate 13 ' ' <+: rest

theorem delimited_arguments :
    Delimited (fun arguments : List Argument => ∀ a ∈ arguments, a.Named)
      (fun arguments => arguments.flatMap fun a => (argumentText a).toList) ArgumentsEnd := by
  refine delimited_argumentText.flatMap (fun _ _ _ => trivial) (fun _ _ => trivial) ?_
  intro a r _ hend
  apply hend
  rw [toList_argumentText, List.append_assoc]
  exact List.IsPrefix.trans (by decide) (List.prefix_append "                ".toList _)

/-- The case of an intent goes on to the bracket that ends its arguments. -/
theorem delimited_caseText :
    Delimited Case.Named (fun c => (caseText c).toList) fun _ => True := by
  rintro ⟨intent, variant, arguments⟩ ⟨intent', variant', arguments'⟩ r s h
    ⟨hvariant, hnamed⟩ ⟨hvariant', hnamed'⟩ _ _
  simp only [toList_caseText, List.append_assoc] at h
  obtain ⟨rfl, hreturn⟩ :=
    delimited_quote (List.append_cancel_left h) trivial trivial trivial trivial
  obtain ⟨rfl, hbracket⟩ := delimited_name (List.append_cancel_left hreturn) hvariant hvariant'
    (nameEnd_cons (c := '(') (by decide)) (nameEnd_cons (c := '(') (by decide))
  have hlines := List.append_cancel_left hbracket
  cases arguments with
  | nil =>
      cases arguments' with
      | nil => exact ⟨rfl, List.append_cancel_left hlines⟩
      | cons b arguments' => simp at hlines
  | cons a arguments =>
      cases arguments' with
      | nil => simp at hlines
      | cons b arguments' =>
          simp only [List.isEmpty_cons, Bool.false_eq_true, if_false, List.append_assoc] at hlines
          have hend (r : List Char) : ArgumentsEnd ("            )\n".toList ++ r) := by
            simp [ArgumentsEnd]
          obtain ⟨hsame, hrest⟩ := delimited_arguments (List.append_cancel_left hlines) hnamed
            hnamed' (hend r) (hend s)
          exact ⟨by rw [hsame], List.append_cancel_left hrest⟩

end Cases

section Code

/-- A module that declares nothing. Its texts between the declarations are those of every
module. -/
def bare : TypedModule := (⟨[], [], none⟩ : Grammar).toModule none

def openingText : String :=
  importsText ++ errorsText ++ baseText bare.sumType ++ sentinelText bare.sumType

def decodingText : String :=
  decoderText bare.decoder ++ adapterText bare.decoder ++ matchStart bare.decoder

def closingText : String := matchEnd ++ readersText

/-- The variants, the enumerations and the cases of a module stand between fixed texts. -/
theorem toList_code (g : Grammar) (project : Option String) :
    (g.toModule project).code.toList =
      openingText.toList ++
        (((g.intents.map Intent.toVariant).flatMap fun v => (variantText sumTypeName v).toList) ++
        (((g.slots.map Slot.toEnum).flatMap fun e => (enumText e).toList) ++
        (decodingText.toList ++
        (((g.intents.map Intent.toCase).flatMap fun c => (caseText c).toList) ++
        closingText.toList)))) := by
  have hcode : (g.toModule project).code = openingText ++
      (String.join ((g.intents.map Intent.toVariant).map (variantText sumTypeName)) ++
      (String.join ((g.slots.map Slot.toEnum).map enumText) ++
      (decodingText ++ (String.join ((g.intents.map Intent.toCase).map caseText) ++
      closingText)))) := by
    simp only [code, openingText, decodingText, closingText, String.append_assoc]
    rfl
  rw [hcode, ← toList_join_map, ← toList_join_map, ← toList_join_map]
  generalize String.join ((g.intents.map Intent.toVariant).map _) = variants
  generalize String.join ((g.slots.map Slot.toEnum).map _) = enums
  generalize String.join ((g.intents.map Intent.toCase).map _) = cases
  generalize openingText = opening, decodingText = decoding, closingText = closing
  simp only [String.toList_append]

/-- Texts of one length at one front are the same. -/
theorem not_front_of_ne {a b text : List Char} (ha : a <+: text)
    (hlength : a.length = b.length) (hne : a ≠ b) : ¬b <+: text := by
  intro hb
  have hfront := List.prefix_of_prefix_length_le ha hb (Nat.le_of_eq hlength)
  exact hne (hfront.eq_of_length hlength)

theorem bodyEnd_of_front {front text : List Char} (h : '\n' :: front <+: text) : BodyEnd text := by
  obtain ⟨rest, rfl⟩ := h
  simp [BodyEnd]

/-- The variants of a module end where no class of data begins. -/
def VariantsEnd (rest : List Char) : Prop := BodyEnd rest ∧ ¬['\n', '\n', '@'] <+: rest

/-- The enumerations of a module end where no class begins. -/
def EnumsEnd (rest : List Char) : Prop := BodyEnd rest ∧ ¬['\n', '\n', 'c'] <+: rest

/-- The cases of a decoder end where no literal comes next. -/
def CasesEnd (rest : List Char) : Prop := ¬"        case ".toList ++ ['"'] <+: rest

theorem delimited_variants (base : String) :
    Delimited (fun variants : List Variant => ∀ v ∈ variants, v.Named)
      (fun variants => variants.flatMap fun v => (variantText base v).toList) VariantsEnd := by
  have hfront (v : Variant) (r : List Char) :
      ['\n', '\n', '@'] <+: (variantText base v).toList ++ r := by
    rw [toList_variantText, List.append_assoc]
    exact List.IsPrefix.trans (by decide) (List.prefix_append _ _)
  exact (delimited_variantText base).flatMap (fun v r _ => bodyEnd_of_front (hfront v r))
    (fun _ hend => hend.1) fun v r _ hend => hend.2 (hfront v r)

theorem prefix_enumText (e : EnumType) (r : List Char) :
    ['\n', '\n', 'c'] <+: (enumText e).toList ++ r := by
  rw [toList_enumText, List.append_assoc]
  exact List.IsPrefix.trans (by decide) (List.prefix_append _ _)

theorem delimited_enums :
    Delimited (fun enums : List EnumType => ∀ e ∈ enums, e.Named)
      (fun enums => enums.flatMap fun e => (enumText e).toList) EnumsEnd :=
  delimited_enumText.flatMap (fun e r _ => bodyEnd_of_front (prefix_enumText e r))
    (fun _ hend => hend.1) fun e r _ hend => hend.2 (prefix_enumText e r)

theorem delimited_cases :
    Delimited (fun cases : List Case => ∀ c ∈ cases, c.Named)
      (fun cases => cases.flatMap fun c => (caseText c).toList) CasesEnd := by
  refine delimited_caseText.flatMap (fun _ _ _ => trivial) (fun _ _ => trivial) ?_
  intro c r _ hend
  apply hend
  rw [toList_caseText, List.append_assoc, List.prefix_append_right_inj, Text.quote,
    String.toList_ofList]
  exact ⟨_, rfl⟩

theorem prefix_decoderText (d : Decoder) (r : List Char) :
    ['\n', '\n', 'd'] <+: (decoderText d).toList ++ r := by
  rw [decoderText, unlines_cons, unlines_cons, unlines_cons]
  generalize unlines _ = lines
  simp

theorem prefix_decodingText (r : List Char) :
    ['\n', '\n', 'd'] <+: decodingText.toList ++ r := by
  have hfront := prefix_decoderText bare.decoder
  unfold decodingText
  generalize decoderText bare.decoder = decoder at hfront ⊢
  rw [String.toList_append, String.toList_append, List.append_assoc, List.append_assoc]
  exact hfront _

theorem variantsEnd_enums (enums : List EnumType) (r : List Char) :
    VariantsEnd ((enums.flatMap fun e => (enumText e).toList) ++ (decodingText.toList ++ r)) := by
  cases enums with
  | nil =>
      rw [List.flatMap_nil, List.nil_append]
      have hfront := prefix_decodingText r
      exact ⟨bodyEnd_of_front hfront, not_front_of_ne hfront rfl (by decide)⟩
  | cons e enums =>
      rw [List.flatMap_cons, List.append_assoc]
      have hfront := prefix_enumText e
        ((enums.flatMap fun e => (enumText e).toList) ++ (decodingText.toList ++ r))
      exact ⟨bodyEnd_of_front hfront, not_front_of_ne hfront rfl (by decide)⟩

theorem enumsEnd_decodingText (r : List Char) : EnumsEnd (decodingText.toList ++ r) :=
  ⟨bodyEnd_of_front (prefix_decodingText r),
    not_front_of_ne (prefix_decodingText r) rfl (by decide)⟩

theorem casesEnd_closingText : CasesEnd closingText.toList := by
  have hfront : "        case _".toList <+: closingText.toList := by
    rw [closingText, matchEnd, unlines_cons]
    generalize unlines _ = lines, readersText = readers
    simp
  exact not_front_of_ne hfront (by simp) (by simp)

end Code

section Declarations
variable {g g' : Grammar} {project project' : Option String}

theorem named_variants (hg : g.WellFormed) : ∀ v ∈ g.intents.map Intent.toVariant, v.Named := by
  rw [List.forall_mem_map]
  intro i hi
  refine ⟨hg.intents_usable i hi, ?_⟩
  rw [Intent.toVariant, List.forall_mem_map]
  exact fun v hv => ⟨hg.vars_usable i hi v hv, hg.slots_usable _ (hg.vars_slot i hi v hv)⟩

theorem named_enums (hg : g.WellFormed) : ∀ e ∈ g.slots.map Slot.toEnum, e.Named := by
  rw [List.forall_mem_map]
  intro s hs
  refine ⟨hg.slots_usable s hs, ?_⟩
  rw [Slot.toEnum, List.forall_mem_map]
  exact hg.elements_usable s hs

theorem named_cases (hg : g.WellFormed) : ∀ c ∈ g.intents.map Intent.toCase, c.Named := by
  rw [List.forall_mem_map]
  intro i hi
  refine ⟨hg.intents_usable i hi, ?_⟩
  rw [Intent.toCase, List.forall_mem_map]
  exact fun v hv => ⟨hg.vars_usable i hi v hv, hg.slots_usable _ (hg.vars_slot i hi v hv)⟩

/-- One text after the docstring has one reading as declarations. -/
theorem declarations_of_code (hg : g.WellFormed) (hg' : g'.WellFormed)
    (h : (g.toModule project).code = (g'.toModule project').code) :
    g.intents.map Intent.toVariant = g'.intents.map Intent.toVariant ∧
      g.slots.map Slot.toEnum = g'.slots.map Slot.toEnum ∧
      g.intents.map Intent.toCase = g'.intents.map Intent.toCase := by
  have htext := congrArg String.toList h
  rw [toList_code, toList_code] at htext
  obtain ⟨hvariants, henums⟩ := delimited_variants sumTypeName (List.append_cancel_left htext)
    (named_variants hg) (named_variants hg') (variantsEnd_enums _ _) (variantsEnd_enums _ _)
  obtain ⟨henums, hcases⟩ := delimited_enums henums (named_enums hg) (named_enums hg')
    (enumsEnd_decodingText _) (enumsEnd_decodingText _)
  obtain ⟨hcases, _⟩ := delimited_cases (List.append_cancel_left hcases) (named_cases hg)
    (named_cases hg') casesEnd_closingText casesEnd_closingText
  exact ⟨hvariants, henums, hcases⟩

end Declarations

end TypedModule

end VoiceIntents
