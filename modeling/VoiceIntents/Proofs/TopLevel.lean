import VoiceIntents.Proofs.Literals
import VoiceIntents.Proofs.WellFormed
import VoiceIntents.TypedModule.Render

/-!
# Names that a module binds

The names that the text of a module binds at its left margin are read off the text, line by
line: what it imports, and its classes and functions. They are the module's own names, then
those of the intents and of the slots, and nothing of what stands inside a class or a function.
-/

namespace VoiceIntents

open Identifier (Usable)

namespace Text

/-- The longest run of identifier characters at the start of a text. -/
def leadingName (text : List Char) : String :=
  String.ofList (text.takeWhile isIdentifierContinue)

/-- What stands after the last blank of a text. -/
def lastWord (text : List Char) : String :=
  String.ofList (text.reverse.takeWhile (· ≠ ' ')).reverse

/-- The name that a line binds if it begins a class, a function or the import of one name. -/
def boundName : List Char → Option String
  | 'c' :: 'l' :: 'a' :: 's' :: 's' :: ' ' :: rest | 'd' :: 'e' :: 'f' :: ' ' :: rest =>
      some (leadingName rest)
  | 'i' :: 'm' :: 'p' :: 'o' :: 'r' :: 't' :: ' ' :: rest
  | 'f' :: 'r' :: 'o' :: 'm' :: ' ' :: rest => some (lastWord rest)
  | _ => none

@[simp] theorem boundName_nil : boundName [] = none := rfl

/-- The names that the lines of a text bind. -/
def boundNames (text : String) : List String := (text.toList.splitOn '\n').filterMap boundName

/-- A text of whole lines: it is empty or ends with a line feed. -/
def WholeLines (text : String) : Prop := text.toList = [] ∨ text.toList.getLast? = some '\n'

section Lines
variable {a b line : String}

theorem wholeLines_of_toList (start : List Char) (h : line.toList = start ++ ['\n']) :
    WholeLines line := by
  right
  rw [h, List.getLast?_concat]

theorem WholeLines.append (ha : WholeLines a) (hb : WholeLines b) : WholeLines (a ++ b) := by
  unfold WholeLines at ha hb ⊢
  rw [String.toList_append, List.getLast?_append]
  rcases hb with hb | hb
  · simpa [hb] using ha
  · simp [hb]

theorem boundNames_append (h : WholeLines a) :
    boundNames (a ++ b) = boundNames a ++ boundNames b := by
  rcases h with hempty | hlast
  · have hboth : (a ++ b).toList = b.toList := by simp [hempty]
    simp [boundNames, hboth, hempty]
  · obtain ⟨start, hstart⟩ := List.getLast?_eq_some_iff.mp hlast
    have hboth : (a ++ b).toList = start ++ '\n' :: b.toList := by simp [hstart]
    simp [boundNames, hboth, hstart, List.splitOn_append_cons_self]

theorem wholeLines_join {texts : List String} (h : ∀ text ∈ texts, WholeLines text) :
    WholeLines (String.join texts) := by
  induction texts with
  | nil => exact .inl rfl
  | cons text rest ih =>
      obtain ⟨htext, hrest⟩ := List.forall_mem_cons.mp h
      rw [String.join_cons]
      exact htext.append (ih hrest)

theorem boundNames_join {texts : List String} (h : ∀ text ∈ texts, WholeLines text) :
    boundNames (String.join texts) = texts.flatMap boundNames := by
  induction texts with
  | nil => rfl
  | cons text rest ih =>
      obtain ⟨htext, hrest⟩ := List.forall_mem_cons.mp h
      rw [String.join_cons, boundNames_append htext, ih hrest, List.flatMap_cons]

/-- Texts that bind a name each bind these names together. -/
theorem boundNames_join_map {α : Type} {text name : α → String} {items : List α}
    (h : ∀ a ∈ items, WholeLines (text a) ∧ boundNames (text a) = [name a]) :
    WholeLines (String.join (items.map text)) ∧
      boundNames (String.join (items.map text)) = items.map name := by
  have hwhole : ∀ t ∈ items.map text, WholeLines t := by
    rw [List.forall_mem_map]
    exact fun a ha => (h a ha).1
  refine ⟨wholeLines_join hwhole, ?_⟩
  rw [boundNames_join hwhole, List.flatMap_map, List.map_eq_flatMap]
  exact List.flatMap_congr fun a ha => (h a ha).2

/-- A single line binds what it begins with. -/
theorem boundNames_line (chars : List Char) (h : line.toList = chars ++ ['\n'])
    (hchars : '\n' ∉ chars) : boundNames line = (boundName chars).toList := by
  rw [boundNames, h, List.splitOn_append_cons_self_of_not_mem hchars]
  cases hbound : boundName chars <;> simp [hbound]

end Lines

/-- Whole lines that bind nothing. -/
def Silent (text : String) : Prop := WholeLines text ∧ boundNames text = []

section Silent
variable {a b line : String}

theorem Silent.append (ha : Silent a) (hb : Silent b) : Silent (a ++ b) := by
  refine ⟨ha.1.append hb.1, ?_⟩
  rw [boundNames_append ha.1, ha.2, hb.2, List.nil_append]

theorem silent_join {texts : List String} (h : ∀ text ∈ texts, Silent text) :
    Silent (String.join texts) := by
  have hlines : ∀ text ∈ texts, WholeLines text := fun text htext => (h text htext).1
  refine ⟨wholeLines_join hlines, ?_⟩
  rw [boundNames_join hlines, List.flatMap_eq_nil_iff]
  exact fun text htext => (h text htext).2

/-- A line that begins with a blank is silent. -/
theorem silent_indented (rest : List Char) (h : line.toList = ' ' :: rest ++ ['\n'])
    (hrest : '\n' ∉ rest) : Silent line :=
  ⟨wholeLines_of_toList _ h, boundNames_line _ h (by simpa using hrest)⟩

end Silent

section Names
variable {name rest : List Char}

theorem isIdentifierContinue_of_start {c : Char} (h : isIdentifierStart c = true) :
    isIdentifierContinue c = true := by
  unfold isIdentifierStart at h
  unfold isIdentifierContinue
  by_cases hascii : c.toNat < 128
  · simp only [hascii, if_true] at h ⊢
    simp [h]
  · simp only [hascii, if_false] at h ⊢
    simp [h]

theorem isIdentifierContinue_of_mem {c : Char} (h : isIdentifier name = true) (hc : c ∈ name) :
    isIdentifierContinue c = true := by
  cases name with
  | nil => cases hc
  | cons first tail =>
      rw [isIdentifier, Bool.and_eq_true, List.all_eq_true] at h
      rcases List.mem_cons.mp hc with rfl | hc
      · exact isIdentifierContinue_of_start h.1
      · exact h.2 c hc

/-- A name is read up to the first character that cannot continue it. -/
theorem leadingName_append {c : Char} (hname : isIdentifier name = true)
    (hc : isIdentifierContinue c = false) :
    leadingName (name ++ c :: rest) = String.ofList name := by
  rw [leadingName, List.takeWhile_append_of_pos fun _ => isIdentifierContinue_of_mem hname,
    List.takeWhile_cons_of_neg (by simp [hc]), List.append_nil]

end Names

end Text

open Text

theorem le_toNat_of_mem_encodeChar (c : Char) : ∀ d ∈ Text.Quoted.encodeChar c, 32 ≤ d.toNat := by
  obtain ⟨letter, hletter, _, hc⟩ | ⟨_, hc⟩ | ⟨hplain, hc⟩ := Text.Quoted.encodeChar_cases c
  · rw [hc, List.forall_mem_cons, List.forall_mem_singleton]
    exact ⟨by decide, hletter⟩
  · rw [hc, List.forall_mem_cons, List.forall_mem_cons]
    exact ⟨by decide, by decide, fun d hd => (Text.Quoted.plain_of_mem_hexDigits hd).1⟩
  · rw [hc, List.forall_mem_singleton]
    exact hplain.1

/-- A literal has no control characters. -/
theorem le_toNat_of_mem_quote {text : String} {d : Char} (h : d ∈ (Text.quote text).toList) :
    32 ≤ d.toNat := by
  rw [Text.quote, String.toList_ofList, List.mem_append, List.mem_cons, List.mem_singleton,
    Text.Quoted.encode, List.mem_flatMap] at h
  rcases h with (rfl | ⟨c, _, hc⟩) | rfl
  · decide
  · exact le_toNat_of_mem_encodeChar c d hc
  · decide

/-- A literal stands on one line. -/
theorem newline_not_mem_quote (text : String) : '\n' ∉ (Text.quote text).toList :=
  fun h => absurd (le_toNat_of_mem_quote h) (by decide)

/-- A usable name has only characters of identifiers. -/
theorem Identifier.Usable.not_mem {name : String} (h : Identifier.Usable name) {c : Char}
    (hc : Text.isIdentifierContinue c = false) : c ∉ name.toList := by
  intro hmem
  have hcontinue := Text.isIdentifierContinue_of_mem (Identifier.usable_iff.mp h).1 hmem
  simp [hc] at hcontinue

theorem unlines_cons (line : String) (lines : List String) :
    unlines (line :: lines) = line ++ "\n" ++ unlines lines := by
  simp [unlines]

theorem unlines_append (first second : List String) :
    unlines (first ++ second) = unlines first ++ unlines second := by
  simp [unlines]

theorem wholeLines_unlines (lines : List String) : WholeLines (unlines lines) := by
  apply wholeLines_join
  intro text htext
  obtain ⟨line, _, rfl⟩ := List.mem_map.mp htext
  exact wholeLines_of_toList line.toList (by simp)

/-- Lines with the names that they bind, one line after another. -/
inductive LinesBind : List String → List String → Prop
  | nil : LinesBind [] []
  | skip {line : List Char} {lines names : List String} (hline : '\n' ∉ line)
      (hnone : boundName line = none) (hrest : LinesBind lines names) :
      LinesBind (String.ofList line :: lines) names
  | take {line : List Char} {lines names : List String} {name : String} (hline : '\n' ∉ line)
      (hsome : boundName line = some name) (hrest : LinesBind lines names) :
      LinesBind (String.ofList line :: lines) (name :: names)

theorem LinesBind.boundNames_eq {lines names : List String} (h : LinesBind lines names) :
    boundNames (unlines lines) = names := by
  have hcons {line : List Char} (hline : '\n' ∉ line) (lines : List String) :
      boundNames (unlines (String.ofList line :: lines)) =
        (boundName line).toList ++ boundNames (unlines lines) := by
    have htext : (String.ofList line ++ "\n").toList = line ++ ['\n'] := by simp
    rw [unlines_cons, boundNames_append (wholeLines_of_toList _ htext),
      boundNames_line _ htext hline]
  induction h with
  | nil => rfl
  | skip hline hnone _ ih =>
      rw [hcons hline, hnone, ih]
      rfl
  | take hline hsome _ ih =>
      rw [hcons hline, hsome, ih]
      rfl

namespace TypedModule

/-- The text of a module after its docstring. -/
def code (m : TypedModule) : String :=
  importsText ++ errorsText ++ baseText m.sumType ++ sentinelText m.sumType
    ++ String.join (m.sumType.variants.map (variantText m.sumType.name))
    ++ String.join (m.enums.map enumText)
    ++ decoderText m.decoder ++ adapterText m.decoder
    ++ matchStart m.decoder ++ String.join (m.decoder.cases.map caseText) ++ matchEnd
    ++ readersText

theorem render_eq_heading_append_code (m : TypedModule) : m.render = m.heading ++ m.code := by
  simp only [render, code, String.append_assoc]

section Classes
variable {base : String}

/-- The first line of a class binds its name. -/
theorem boundNames_classLine {text name : String} (hname : Usable name) (tail : List Char)
    (h : text.toList = "class ".toList ++ name.toList ++ '(' :: tail ++ ['\n'])
    (htail : '\n' ∉ tail) : boundNames text = [name] := by
  have hidentifier : isIdentifier name.toList = true := (Identifier.usable_iff.mp hname).1
  have hbreak : '\n' ∉ name.toList := hname.not_mem (by decide)
  have hbound : boundName ("class ".toList ++ name.toList ++ '(' :: tail) = some name := by
    change some (leadingName (name.toList ++ '(' :: tail)) = some name
    rw [leadingName_append hidentifier (by decide), String.ofList_toList]
  rw [boundNames_line _ h (by simp [hbreak, htail]), hbound]
  rfl

theorem wholeLines_classHead (base name : String) : WholeLines (classHead base name) :=
  wholeLines_unlines _

theorem boundNames_classHead (hbase : '\n' ∉ base.toList) {name : String} (hname : Usable name) :
    boundNames (classHead base name) = [name] := by
  have hblank : LinesBind ["", "", "@dataclass(frozen=True)"] [] :=
    .skip (by decide) rfl (.skip (by decide) rfl (.skip (by decide) rfl .nil))
  have hhead : classHead base name = unlines ["", "", "@dataclass(frozen=True)"] ++
      unlines ["class " ++ name ++ "(" ++ base ++ "):"] := by
    rw [← unlines_append]
    rfl
  rw [hhead, boundNames_append (wholeLines_unlines _), hblank.boundNames_eq, List.nil_append]
  exact boundNames_classLine hname (base.toList ++ [')', ':']) (by simp [unlines])
    (by simpa using hbase)

/-- The body of a class with nothing in it. -/
theorem silent_pass : Silent "    pass\n" :=
  silent_indented ("   pass".toList) (by decide) (by decide)

theorem silent_fieldText {f : Field} (hname : Usable f.name) (htype : Usable f.typeName) :
    Silent (fieldText f) := by
  have hannotation : '\n' ∉ f.annotation.toList := by
    have hbreak : '\n' ∉ f.typeName.toList := htype.not_mem (by decide)
    unfold Field.annotation
    split <;> simp [hbreak]
  have hbreak : '\n' ∉ f.name.toList := hname.not_mem (by decide)
  exact silent_indented ("   ".toList ++ f.name.toList ++ ": ".toList ++ f.annotation.toList)
    (by simp [fieldText]) (by simp [hbreak, hannotation])

theorem silent_memberText {m : EnumMember} (hname : Usable m.name) : Silent (memberText m) := by
  have hbreak : '\n' ∉ m.name.toList := hname.not_mem (by decide)
  have hquote := newline_not_mem_quote m.value
  exact silent_indented
    ("   ".toList ++ m.name.toList ++ " = ".toList ++ (Text.quote m.value).toList)
    (by simp [memberText]) (by simp [hbreak, hquote])

/-- The text of a variant binds its name alone. -/
theorem boundNames_variantText (hbase : '\n' ∉ base.toList) {v : Variant} (hname : Usable v.name)
    (hfields : ∀ f ∈ v.fields, Usable f.name ∧ Usable f.typeName) :
    WholeLines (variantText base v) ∧ boundNames (variantText base v) = [v.name] := by
  have hbody : Silent (if v.fields.isEmpty then "    pass\n"
      else String.join (v.fields.map fieldText)) := by
    split
    · exact silent_pass
    · apply silent_join
      intro text htext
      obtain ⟨f, hf, rfl⟩ := List.mem_map.mp htext
      exact silent_fieldText (hfields f hf).1 (hfields f hf).2
  refine ⟨(wholeLines_classHead base v.name).append hbody.1, ?_⟩
  rw [variantText, boundNames_append (wholeLines_classHead base v.name),
    boundNames_classHead hbase hname, hbody.2, List.append_nil]

/-- The text of an enumeration binds its name alone. -/
theorem boundNames_enumText {e : EnumType} (hname : Usable e.name)
    (hmembers : ∀ m ∈ e.members, Usable m.name) :
    WholeLines (enumText e) ∧ boundNames (enumText e) = [e.name] := by
  have hbody : Silent (if e.members.isEmpty then "    pass\n"
      else String.join (e.members.map memberText)) := by
    split
    · exact silent_pass
    · apply silent_join
      intro text htext
      obtain ⟨m, hm, rfl⟩ := List.mem_map.mp htext
      exact silent_memberText (hmembers m hm)
  have hblank : LinesBind ["", ""] [] := .skip (by decide) rfl (.skip (by decide) rfl .nil)
  have hhead : "\n\nclass " ++ e.name ++ "(Enum):\n" =
      unlines ["", ""] ++ ("class " ++ e.name ++ "(Enum):\n") := by
    apply String.toList_injective
    simp [unlines]
  have hline : ("class " ++ e.name ++ "(Enum):\n").toList =
      "class ".toList ++ e.name.toList ++ '(' :: "Enum):".toList ++ ['\n'] := by simp
  have hwhole := (wholeLines_unlines ["", ""]).append (wholeLines_of_toList _ hline)
  rw [enumText, hhead]
  refine ⟨hwhole.append hbody.1, ?_⟩
  rw [boundNames_append hwhole, boundNames_append (wholeLines_unlines _), hblank.boundNames_eq,
    boundNames_classLine hname _ hline (by decide), hbody.2]
  rfl

end Classes

section Cases

theorem newline_not_mem_keys (keys : List String) :
    '\n' ∉ (", ".intercalate (keys.map Text.quote)).toList := by
  induction keys with
  | nil => simp
  | cons key rest ih =>
      have hkey := newline_not_mem_quote key
      cases rest with
      | nil => simpa using hkey
      | cons other rest =>
          rw [List.map_cons, List.map_cons, String.intercalate_cons_cons]
          simp only [String.toList_append, List.mem_append, not_or]
          exact ⟨⟨hkey, by decide⟩, ih⟩

theorem silent_argumentText {a : Argument} (hfield : Usable a.field) (henum : Usable a.enumName) :
    Silent (argumentText a) := by
  have hfield' : '\n' ∉ a.field.toList := hfield.not_mem (by decide)
  have henum' : '\n' ∉ a.enumName.toList := henum.not_mem (by decide)
  have hkeys := newline_not_mem_keys a.lookupKeys
  have hreader : '\n' ∉ (if a.required then "_required_slot" else "_optional_slot").toList := by
    split <;> decide
  unfold argumentText
  generalize ", ".intercalate (a.lookupKeys.map Text.quote) = keys at hkeys
  generalize (if a.required then "_required_slot" else "_optional_slot") = reader at hreader
  exact silent_indented ("               ".toList ++ a.field.toList ++ "=".toList ++
    reader.toList ++ "(_slots, _intent, ".toList ++ a.enumName.toList ++ ", ".toList ++
    keys.toList ++ "),".toList) (by simp) (by simp [hfield', henum', hkeys, hreader])

/-- The text of a case of the decoder binds nothing. -/
theorem silent_caseText {c : Case} (hvariant : Usable c.variant)
    (harguments : ∀ a ∈ c.arguments, Usable a.field ∧ Usable a.enumName) :
    Silent (caseText c) := by
  have hbreak : '\n' ∉ c.variant.toList := hvariant.not_mem (by decide)
  have hcase : Silent ("        case " ++ Text.quote c.intentName ++ ":\n") := by
    have hquote := newline_not_mem_quote c.intentName
    exact silent_indented
      ("       case ".toList ++ (Text.quote c.intentName).toList ++ ":".toList)
      (by simp) (by simp [hquote])
  have hreturn (tail : String) (htail : '\n' ∉ tail.toList) :
      Silent ("            return " ++ c.variant ++ "(" ++ tail ++ "\n") :=
    silent_indented
      ("           return ".toList ++ c.variant.toList ++ "(".toList ++ tail.toList)
      (by simp) (by simp [hbreak, htail])
  have hclose : Silent "            )\n" :=
    silent_indented ("           )".toList) (by decide) (by decide)
  have hbody : Silent (String.join (c.arguments.map argumentText)) := by
    apply silent_join
    intro text htext
    obtain ⟨a, ha, rfl⟩ := List.mem_map.mp htext
    exact silent_argumentText (harguments a ha).1 (harguments a ha).2
  unfold caseText
  split
  · have htext := hcase.append (hreturn ")" (by decide))
    convert htext using 1
    apply String.toList_injective
    simp
  · have htext := ((hcase.append (hreturn "" (by decide))).append hbody).append hclose
    convert htext using 1
    apply String.toList_injective
    simp

end Cases

section Fixed
variable (g : Grammar) (project : Option String)

/-- The text before the variants, and the names that it binds. -/
theorem boundNames_opening :
    WholeLines (importsText ++ errorsText ++ baseText (g.toModule project).sumType
        ++ sentinelText (g.toModule project).sumType) ∧
      boundNames (importsText ++ errorsText ++ baseText (g.toModule project).sumType
        ++ sentinelText (g.toModule project).sumType) =
      ["annotations", "builtins", "Mapping", "dataclass", "Enum", "Any", "InferenceError",
        "UnknownIntentKind", "MissingRequiredSlot", "InvalidSlotValue", "Intent",
        "NotUnderstood"] := by
  have hsentinel : sentinelText (g.toModule project).sumType =
      unlines ["", "", "@dataclass(frozen=True)", "class NotUnderstood(Intent):", "    pass"] := by
    apply String.toList_injective
    simp [sentinelText, classHead, unlines, Grammar.toModule, sumTypeName, sentinelName]
  rw [hsentinel, importsText, errorsText, baseText, ← unlines_append, ← unlines_append,
    ← unlines_append]
  refine ⟨wholeLines_unlines _, LinesBind.boundNames_eq ?_⟩
  simp only [Grammar.toModule, sumTypeName, String.reduceAppend]
  repeat first
    | exact .nil
    | refine .skip (by decide) rfl ?_
    | refine .take (by decide) rfl ?_

/-- The text between the enumerations and the cases, and the names that it binds. -/
theorem boundNames_decoder :
    WholeLines (decoderText (g.toModule project).decoder
        ++ adapterText (g.toModule project).decoder ++ matchStart (g.toModule project).decoder) ∧
      boundNames (decoderText (g.toModule project).decoder
        ++ adapterText (g.toModule project).decoder ++ matchStart (g.toModule project).decoder) =
      ["decode", "from_inference", "_decode"] := by
  rw [decoderText, adapterText, matchStart, ← unlines_append, ← unlines_append]
  refine ⟨wholeLines_unlines _, LinesBind.boundNames_eq ?_⟩
  simp only [Grammar.toModule, decoderName, sumTypeName, sentinelName, String.reduceAppend]
  repeat first
    | exact .nil
    | refine .skip (by decide) rfl ?_
    | refine .take (by decide) rfl ?_

theorem boundNames_readers :
    boundNames (matchEnd ++ readersText) = ["_optional_slot", "_required_slot"] := by
  rw [matchEnd, readersText, ← unlines_append]
  apply LinesBind.boundNames_eq
  repeat first
    | exact .nil
    | refine .skip (by decide) rfl ?_
    | refine .take (by decide) rfl ?_

end Fixed

section Code
variable {g : Grammar} (hg : g.WellFormed) (project : Option String)
include hg

theorem boundNames_variants :
    WholeLines (String.join ((g.toModule project).sumType.variants.map
        (variantText (g.toModule project).sumType.name))) ∧
      boundNames (String.join ((g.toModule project).sumType.variants.map
        (variantText (g.toModule project).sumType.name))) = g.intents.map (·.name) := by
  have hmap : (g.toModule project).sumType.variants.map
      (variantText (g.toModule project).sumType.name) =
        g.intents.map fun i => variantText sumTypeName i.toVariant := List.map_map
  rw [hmap]
  apply boundNames_join_map
  intro i hi
  refine boundNames_variantText (by decide) (hg.intents_usable i hi) ?_
  intro f hf
  obtain ⟨v, hv, rfl⟩ := List.mem_map.mp hf
  exact ⟨hg.vars_usable i hi v hv, hg.slots_usable _ (hg.vars_slot i hi v hv)⟩

theorem boundNames_enums :
    WholeLines (String.join ((g.toModule project).enums.map enumText)) ∧
      boundNames (String.join ((g.toModule project).enums.map enumText)) =
        g.slots.map (·.name) := by
  have hmap : (g.toModule project).enums.map enumText =
      g.slots.map fun s => enumText s.toEnum := List.map_map
  rw [hmap]
  apply boundNames_join_map
  intro s hs
  refine boundNames_enumText (hg.slots_usable s hs) ?_
  intro m hm
  obtain ⟨e, he, rfl⟩ := List.mem_map.mp hm
  exact hg.elements_usable s hs e he

theorem silent_cases :
    Silent (String.join ((g.toModule project).decoder.cases.map caseText)) := by
  apply silent_join
  intro text htext
  obtain ⟨_, hcase, rfl⟩ := List.mem_map.mp htext
  obtain ⟨i, hi, rfl⟩ := List.mem_map.mp hcase
  refine silent_caseText (hg.intents_usable i hi) ?_
  intro a ha
  obtain ⟨v, hv, rfl⟩ := List.mem_map.mp ha
  exact ⟨hg.vars_usable i hi v hv, hg.slots_usable _ (hg.vars_slot i hi v hv)⟩

/-- The module of a grammar binds its own names, and between them those of the intents and of
the slots, in their order. -/
theorem boundNames_code :
    boundNames (g.toModule project).code =
      ["annotations", "builtins", "Mapping", "dataclass", "Enum", "Any", "InferenceError",
        "UnknownIntentKind", "MissingRequiredSlot", "InvalidSlotValue", "Intent",
        "NotUnderstood"] ++ (g.intents.map (·.name) ++ (g.slots.map (·.name) ++
      ["decode", "from_inference", "_decode", "_optional_slot", "_required_slot"])) := by
  obtain ⟨hopening, hopeningNames⟩ := boundNames_opening g project
  obtain ⟨hvariants, hvariantNames⟩ := boundNames_variants hg project
  obtain ⟨henums, henumNames⟩ := boundNames_enums hg project
  obtain ⟨hdecoder, hdecoderNames⟩ := boundNames_decoder g project
  obtain ⟨hcases, hcaseNames⟩ := silent_cases hg project
  have hcode : (g.toModule project).code = (importsText ++ errorsText
      ++ baseText (g.toModule project).sumType ++ sentinelText (g.toModule project).sumType) ++
      (String.join ((g.toModule project).sumType.variants.map
          (variantText (g.toModule project).sumType.name)) ++
        (String.join ((g.toModule project).enums.map enumText) ++
          ((decoderText (g.toModule project).decoder ++ adapterText (g.toModule project).decoder
              ++ matchStart (g.toModule project).decoder) ++
            (String.join ((g.toModule project).decoder.cases.map caseText) ++
              (matchEnd ++ readersText))))) := by
    simp only [code, String.append_assoc]
  rw [hcode, boundNames_append hopening, boundNames_append hvariants, boundNames_append henums,
    boundNames_append hdecoder, boundNames_append hcases, hopeningNames, hvariantNames,
    henumNames, hdecoderNames, hcaseNames, boundNames_readers]
  rfl

end Code

end TypedModule

end VoiceIntents
