import VoiceIntents.Command.Plan
import VoiceIntents.Proofs.Docstrings
import VoiceIntents.Proofs.ModuleText

/-!
# Stray characters in the text of a module

What is written to a file comes back as it was unless it has a carriage return, and a text with a
null character is not read as a module. The code of a module has neither; its docstring has those
of the source and of the project that it names.
-/

namespace VoiceIntents.TypedModule

open Text
open Identifier (Usable)

/-- Characters that a text loses in a file, or that keep it from being read as a module. -/
def strays : List Char := ['\r', '\x00']

theorem mem_strays_iff {c : Char} : c ∈ strays ↔ c = '\r' ∨ c = '\x00' := by
  simp [strays]

variable {g : Grammar} {project : Option String} {c : Char}

theorem stray_not_mem {text : List Char} (h : strays.all (· ∉ text) = true) (hc : c ∈ strays) :
    c ∉ text :=
  of_decide_eq_true (List.all_eq_true.mp h c hc)

theorem stray_not_mem_ofList {line : List Char} (h : strays.all (· ∉ line) = true)
    (hc : c ∈ strays) : c ∉ (String.ofList line).toList := by
  rw [String.toList_ofList]
  exact stray_not_mem h hc

/-- Lines without stray characters. The characters of a fixed line are given as a list. -/
inductive Strayless : List String → Prop
  | nil : Strayless []
  | cons {line : List Char} {lines : List String} (hline : strays.all (· ∉ line) = true)
      (hlines : Strayless lines) : Strayless (String.ofList line :: lines)

theorem Strayless.not_mem_unlines {lines : List String} (h : Strayless lines) (hc : c ∈ strays) :
    c ∉ (unlines lines).toList := by
  induction h with
  | nil => simp [unlines]
  | cons hline _ ih =>
      rw [unlines_cons, String.toList_append, String.toList_append, List.mem_append,
        List.mem_append]
      rintro ((hmem | hmem) | hmem)
      · exact stray_not_mem_ofList hline hc hmem
      · have hbreak : strays.all (· ∉ "\n".toList) = true := by decide
        exact stray_not_mem hbreak hc hmem
      · exact ih hmem

theorem stray_not_mem_banner (hc : c ∈ strays) : c ∉ Command.banner.toList := by
  unfold Command.banner
  exact stray_not_mem_ofList (by decide) hc

theorem stray_not_mem_body {α : Type} {write : α → String} {items : List α}
    (h : ∀ a ∈ items, c ∉ (write a).toList) (hc : c ∈ strays) :
    c ∉ (if items.isEmpty then "    pass\n" else String.join (items.map write)).toList := by
  split
  · exact stray_not_mem_ofList (by decide) hc
  · rw [toList_join_map, List.mem_flatMap]
    rintro ⟨a, ha, hmem⟩
    exact h a ha hmem

theorem stray_not_mem_quote (text : String) (hc : c ∈ strays) : c ∉ (Text.quote text).toList := by
  intro hmem
  have hall : strays.all (·.toNat < 32) = true := by decide
  have hcontrol : c.toNat < 32 := of_decide_eq_true (List.all_eq_true.mp hall c hc)
  exact absurd (le_toNat_of_mem_quote hmem) (Nat.not_le.mpr hcontrol)

theorem stray_not_mem_of_usable {name : String} (h : Usable name) (hc : c ∈ strays) :
    c ∉ name.toList := by
  have hall : strays.all (Text.isIdentifierContinue · = false) = true := by decide
  exact h.not_mem (of_decide_eq_true (List.all_eq_true.mp hall c hc))

section Declarations
variable (hc : c ∈ strays)
include hc

theorem stray_not_mem_variantText {v : Variant} (h : v.Named) :
    c ∉ (variantText sumTypeName v).toList := by
  have hfields : ∀ f ∈ v.fields, c ∉ (fieldText f).toList := by
    intro f hf
    have hname := stray_not_mem_of_usable (h.2 f hf).1 hc
    have htype := stray_not_mem_of_usable (h.2 f hf).2 hc
    obtain rfl | rfl := mem_strays_iff.mp hc <;> cases hoptional : f.optional <;>
      simp [fieldText, Field.annotation, hoptional, hname, htype]
  have hname := stray_not_mem_of_usable h.1 hc
  have hbody := stray_not_mem_body hfields hc
  rw [toList_variantText]
  generalize (if v.fields.isEmpty then "    pass\n"
    else String.join (v.fields.map fieldText)) = body at hbody ⊢
  obtain rfl | rfl := mem_strays_iff.mp hc <;> simp [hname, hbody, sumTypeName]

theorem stray_not_mem_enumText {e : EnumType} (h : e.Named) : c ∉ (enumText e).toList := by
  have hmembers : ∀ m ∈ e.members, c ∉ (memberText m).toList := by
    intro m hm
    have hname := stray_not_mem_of_usable (h.2 m hm) hc
    have hvalue := stray_not_mem_quote m.value hc
    obtain rfl | rfl := mem_strays_iff.mp hc <;> simp [memberText, hname, hvalue]
  have hname := stray_not_mem_of_usable h.1 hc
  have hbody := stray_not_mem_body hmembers hc
  rw [toList_enumText]
  generalize (if e.members.isEmpty then "    pass\n"
    else String.join (e.members.map memberText)) = body at hbody ⊢
  obtain rfl | rfl := mem_strays_iff.mp hc <;> simp [hname, hbody]

theorem stray_not_mem_argumentText {a : Argument} (h : a.Named) : c ∉ (argumentText a).toList := by
  have hfield := stray_not_mem_of_usable h.1 hc
  have henum := stray_not_mem_of_usable h.2 hc
  have hkey := stray_not_mem_quote a.key hc
  have haliases : ∀ x ∈ a.aliases, c ∉ (Text.quote x).toList :=
    fun x _ => stray_not_mem_quote x hc
  have hreader : c ∉ (if a.required then "_required_slot" else "_optional_slot").toList := by
    split
    · exact stray_not_mem_ofList (by decide) hc
    · exact stray_not_mem_ofList (by decide) hc
  rw [toList_argumentText, Argument.lookupKeys, toList_keys]
  obtain rfl | rfl := mem_strays_iff.mp hc <;>
    simp [hfield, henum, hkey, hreader] <;> exact haliases

theorem stray_not_mem_caseText {d : Case} (h : d.Named) : c ∉ (caseText d).toList := by
  have hintent := stray_not_mem_quote d.intentName hc
  have hvariant := stray_not_mem_of_usable h.1 hc
  have harguments : ∀ a ∈ d.arguments, c ∉ (argumentText a).toList :=
    fun a ha => stray_not_mem_argumentText hc (h.2 a ha)
  rw [toList_caseText]
  split <;> obtain rfl | rfl := mem_strays_iff.mp hc <;> simp [hintent, hvariant] <;>
    exact harguments

theorem stray_not_mem_fixed :
    c ∉ openingText.toList ∧ c ∉ decodingText.toList ∧ c ∉ closingText.toList := by
  have hsentinel : sentinelText bare.sumType =
      unlines ["", "", "@dataclass(frozen=True)", "class NotUnderstood(Intent):", "    pass"] := by
    apply String.toList_injective
    simp [sentinelText, classHead, unlines, bare, Grammar.toModule, sumTypeName, sentinelName]
  rw [openingText, decodingText, closingText, hsentinel, importsText, errorsText, baseText,
    decoderText, adapterText, matchStart, matchEnd, readersText]
  simp only [← unlines_append, bare, Grammar.toModule, decoderName, sumTypeName, sentinelName,
    String.reduceAppend]
  refine ⟨Strayless.not_mem_unlines ?_ hc, Strayless.not_mem_unlines ?_ hc,
    Strayless.not_mem_unlines ?_ hc⟩
  all_goals
    repeat first
      | exact .nil
      | refine .cons (by decide) ?_

theorem stray_not_mem_code (hg : g.WellFormed) (project : Option String) :
    c ∉ (g.toModule project).code.toList := by
  obtain ⟨hopening, hdecoding, hclosing⟩ := stray_not_mem_fixed hc
  rw [toList_code]
  simp only [List.mem_append, List.mem_flatMap, not_or, not_exists, not_and]
  exact ⟨hopening, fun v hv => stray_not_mem_variantText hc (named_variants hg v hv),
    fun e he => stray_not_mem_enumText hc (named_enums hg e he), hdecoding,
    fun d hd => stray_not_mem_caseText hc (named_cases hg d hd), hclosing⟩

theorem stray_mem_encode_iff (text : List Char) : c ∈ Text.Docstring.encode text ↔ c ∈ text := by
  have hplain : c ≠ '\\' ∧ c ≠ '"' := by
    obtain rfl | rfl := mem_strays_iff.mp hc <;> decide
  fun_induction Text.Docstring.encode text with
  | case1 text ih => simpa [hplain] using ih
  | case2 text _ ih => simpa [hplain] using ih
  | case3 d text _ _ ih =>
      rw [List.mem_cons, List.mem_cons]
      exact or_congr_right ih
  | case4 => rfl

theorem stray_mem_headingPart_iff (label : String) (hlabel : c ∉ label.toList)
    (name : Option String) :
    c ∈ (headingPart label name).toList ↔ ∃ text, name = some text ∧ c ∈ text.toList := by
  cases name with
  | none => simp [headingPart]
  | some name =>
      by_cases hempty : name = ""
      · simp [headingPart, Option.filter, hempty]
      · have hquote : c ≠ '\'' := by
          obtain rfl | rfl := mem_strays_iff.mp hc <;> decide
        simp [headingPart, Option.filter, hempty, Text.docstring, hlabel, hquote,
          stray_mem_encode_iff hc]

/-- A stray character comes into the text of a module with its source or its project alone. -/
theorem stray_mem_render_iff (hg : g.WellFormed) :
    c ∈ (g.toModule project).render.toList ↔
      (∃ text, g.source = some text ∧ c ∈ text.toList) ∨
        ∃ text, project = some text ∧ c ∈ text.toList := by
  have hstart : c ∉ headingStart.toList := by
    unfold headingStart
    exact stray_not_mem_ofList (by decide) hc
  have hend : c ∉ headingEnd.toList := by
    unfold headingEnd
    exact Strayless.not_mem_unlines
      (.cons (by decide) (.cons (by decide) (.cons (by decide) (.cons (by decide) .nil)))) hc
  have hcode := stray_not_mem_code hc hg project
  have hsource := stray_mem_headingPart_iff hc " " (stray_not_mem_ofList (by decide) hc)
    (g.toModule project).source
  have hproject := stray_mem_headingPart_iff hc " of project "
    (stray_not_mem_ofList (by decide) hc) (g.toModule project).project
  rw [render_eq_heading_append_code, heading]
  generalize (g.toModule project).code = code at hcode ⊢
  simp only [String.toList_append, List.mem_append, hstart, hend, hcode, hsource, hproject,
    false_or, or_false]
  rfl

theorem stray_mem_content_iff (hg : g.WellFormed) (wanted : Bool) :
    c ∈ (Command.bannered wanted (g.toModule project).render).toList ↔
      (∃ text, g.source = some text ∧ c ∈ text.toList) ∨
        ∃ text, project = some text ∧ c ∈ text.toList := by
  rw [← stray_mem_render_iff hc hg]
  cases wanted with
  | false => rfl
  | true =>
      rw [Command.bannered, if_pos rfl, String.toList_append, List.mem_append]
      simp only [stray_not_mem_banner hc, false_or]

end Declarations

/-- The text of a module, read with its line ends joined, has the same code. -/
theorem code_of_universalLines {g' : Grammar} {project' : Option String} (hg : g.WellFormed)
    (h : universalLines (g.toModule project).render = (g'.toModule project').render) :
    (g.toModule project).code = (g'.toModule project').code := by
  obtain ⟨body, hrender, hcode⟩ := exists_toList_render (g.toModule project)
  obtain ⟨body', hrender', hcode'⟩ := exists_toList_render (g'.toModule project')
  have htext := congrArg String.toList h
  rw [universalLines, String.toList_ofList, hrender, hrender', joinLines_cons (by simp),
    joinLines_cons (by simp), joinLines_cons (by simp)] at htext
  have hbody : joinLines body = body' := by simpa using htext
  have hjoined := Text.Docstring.afterEnd_joinLines body
  rw [hbody, hcode, hcode', joinLines_cons (by simp),
    joinLines_eq_self (stray_not_mem_code (by decide) hg project)] at hjoined
  exact String.toList_injective (List.cons.inj hjoined).2.symm

end VoiceIntents.TypedModule
