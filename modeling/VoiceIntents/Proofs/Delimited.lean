import VoiceIntents.Proofs.FileText
import VoiceIntents.Proofs.TopLevel

/-!
# Texts that mark their end

A text that is written in front of others is delimited if both it and what follows can be told
from the whole. Names end where no character continues them, literals end at their quote, and a
sequence of delimited texts is delimited if what follows it cannot be taken for one more. Free
text in a docstring does not hide where the docstring ends.
-/

namespace VoiceIntents

open Identifier (Usable)

namespace Text

/-- What is written, and what follows it, can be told from the two together, as long as what
follows is a possible end. -/
def Delimited {α : Type} (P : α → Prop) (write : α → List Char) (End : List Char → Prop) : Prop :=
  ∀ ⦃a b r s⦄, write a ++ r = write b ++ s → P a → P b → End r → End s → a = b ∧ r = s

section Sequences
variable {α : Type} {P : α → Prop} {write : α → List Char} {Between End : List Char → Prop}

/-- Delimited texts one after another, before something that begins like none of them. -/
theorem Delimited.flatMap (h : Delimited P write Between)
    (hbetween : ∀ a r, P a → Between (write a ++ r)) (hend : ∀ r, End r → Between r)
    (hapart : ∀ a r, P a → ¬End (write a ++ r)) :
    Delimited (fun items : List α => ∀ a ∈ items, P a) (fun items => items.flatMap write) End := by
  have hrest {items : List α} (hitems : ∀ a ∈ items, P a) {r : List Char} (hr : End r) :
      Between (items.flatMap write ++ r) := by
    cases items with
    | nil => exact hend r hr
    | cons a items =>
        rw [List.flatMap_cons, List.append_assoc]
        exact hbetween a _ (hitems a (by simp))
  intro as
  induction as with
  | nil =>
      intro bs r s heq _ hbs hr _
      cases bs with
      | nil => exact ⟨rfl, heq⟩
      | cons b bs =>
          dsimp only at heq
          rw [List.flatMap_nil, List.nil_append, List.flatMap_cons, List.append_assoc] at heq
          exact absurd (heq ▸ hr) (hapart b _ (hbs b (by simp)))
  | cons a as ih =>
      intro bs r s heq has hbs hr hs
      dsimp only at heq
      rw [List.flatMap_cons, List.append_assoc] at heq
      cases bs with
      | nil =>
          rw [List.flatMap_nil, List.nil_append] at heq
          exact absurd (heq ▸ hs) (hapart a _ (has a (by simp)))
      | cons b bs =>
          rw [List.flatMap_cons, List.append_assoc] at heq
          obtain ⟨ha, has⟩ := List.forall_mem_cons.mp has
          obtain ⟨hb, hbs'⟩ := List.forall_mem_cons.mp hbs
          obtain ⟨rfl, hmore⟩ := h heq ha hb (hrest has hr) (hrest hbs' hs)
          obtain ⟨rfl, hsame⟩ := ih hmore has hbs' hr hs
          exact ⟨rfl, hsame⟩

end Sequences

section Names

/-- What may follow a name: nothing that continues it. -/
def NameEnd (rest : List Char) : Prop := ∀ c ∈ rest.head?, isIdentifierContinue c = false

theorem nameEnd_cons {c : Char} {rest : List Char} (h : isIdentifierContinue c = false) :
    NameEnd (c :: rest) := by
  intro d hd
  rw [List.head?_cons, Option.mem_def, Option.some.injEq] at hd
  rw [← hd, h]

theorem takeWhile_name {name rest : List Char} (hname : isIdentifier name = true)
    (hrest : NameEnd rest) : (name ++ rest).takeWhile isIdentifierContinue = name := by
  rw [List.takeWhile_append_of_pos fun _ => isIdentifierContinue_of_mem hname]
  cases rest with
  | nil => simp
  | cons c rest =>
      rw [List.takeWhile_cons_of_neg (by simp [hrest c rfl]), List.append_nil]

theorem delimited_name : Delimited Usable String.toList NameEnd := by
  intro a b r s h ha hb hr hs
  have hname : a.toList = b.toList := by
    rw [← takeWhile_name (Identifier.usable_iff.mp ha).1 hr, h,
      takeWhile_name (Identifier.usable_iff.mp hb).1 hs]
  refine ⟨String.toList_injective hname, ?_⟩
  rw [hname] at h
  exact List.append_cancel_left h

end Names

theorem delimited_quote :
    Delimited (fun _ => True) (fun text => (quote text).toList) fun _ => True :=
  fun _ _ _ _ h _ _ _ _ => quote_append_inj h

namespace Docstring

/-- What stands behind the end of a docstring that has begun. A character after a backslash
does not count. -/
def afterEnd : List Char → List Char
  | '\\' :: _ :: rest => afterEnd rest
  | '"' :: '"' :: '"' :: rest => rest
  | _ :: rest => afterEnd rest
  | [] => []

theorem afterEnd_cons {c : Char} {rest : List Char} (hbackslash : c ≠ '\\')
    (hquotes : c = '"' → ¬['"', '"'] <+: rest) : afterEnd (c :: rest) = afterEnd rest := by
  rw [afterEnd.eq_def]
  split
  · next heq => simp_all
  · next heq =>
      obtain ⟨rfl, rfl⟩ := List.cons.inj heq
      exact absurd (List.prefix_append ['"', '"'] _) (hquotes rfl)
  · next heq =>
      obtain ⟨rfl, rfl⟩ := List.cons.inj heq
      rfl
  · next heq => cases heq

/-- Quotes at the front of a text are left there only if the text begins with them. -/
theorem quote_of_encode {text rest : List Char} (h : ['"'] <+: encode text ++ '\'' :: rest) :
    ['"'] <+: text := by
  fun_cases encode text with
  | case1 text => exact List.prefix_append ['"'] _
  | case2 text hquotes => simp [encode] at h
  | case3 c text hquotes hbackslash =>
      rw [encode.eq_2 _ _ hquotes, if_neg hbackslash] at h
      rw [List.cons_append, List.cons_prefix_cons] at h
      exact List.cons_prefix_cons.mpr ⟨h.1, List.nil_prefix⟩
  | case4 => simp [encode] at h

theorem quotes_of_encode {text rest : List Char}
    (h : ['"', '"'] <+: encode text ++ '\'' :: rest) : ['"', '"'] <+: text := by
  fun_cases encode text with
  | case1 text => exact List.prefix_append ['"', '"'] _
  | case2 text hquotes => simp [encode] at h
  | case3 c text hquotes hbackslash =>
      rw [encode.eq_2 _ _ hquotes, if_neg hbackslash] at h
      rw [List.cons_append, List.cons_prefix_cons] at h
      exact List.cons_prefix_cons.mpr ⟨h.1, quote_of_encode h.2⟩
  | case4 => simp [encode] at h

end Docstring

section JoinedLines

theorem exists_of_joinLines_eq_quote {text more : List Char} (h : joinLines text = '"' :: more) :
    ∃ rest, text = '"' :: rest ∧ joinLines rest = more := by
  fun_cases joinLines text with
  | case1 rest => simp [joinLines] at h
  | case2 c rest hpair =>
      rw [joinLines.eq_2 _ _ hpair, List.cons.injEq] at h
      obtain ⟨hc, hmore⟩ := h
      refine ⟨rest, ?_, hmore⟩
      split at hc
      · exact absurd hc (by decide)
      · rw [hc]
  | case3 => simp [joinLines] at h

/-- Line ends do not move the end of a docstring. -/
theorem Docstring.afterEnd_joinLines (text : List Char) :
    afterEnd (joinLines text) = joinLines (afterEnd text) := by
  fun_induction afterEnd text with
  | case1 c rest ih =>
      rw [joinLines_cons (by simp)]
      by_cases hpair : c = '\r' ∧ rest.head? = some '\n'
      · -- The backslash takes the line feed that is left of the two.
        obtain ⟨more, rfl⟩ := List.head?_eq_some_iff.mp hpair.2
        rw [joinLines_cons (by simp), afterEnd_cons (by decide) (by simp)] at ih
        rw [joinLines_pair hpair, joinLines_cons (by simp)]
        exact ih
      · rw [joinLines_cons hpair]
        exact ih
  | case2 rest =>
      rw [joinLines_cons (by simp), joinLines_cons (by simp), joinLines_cons (by simp)]
      rfl
  | case3 c rest hbackslash hquotes ih =>
      by_cases hpair : c = '\r' ∧ rest.head? = some '\n'
      · rw [joinLines_pair hpair, ih]
      rw [joinLines_cons hpair]
      by_cases hc : c = '\\'
      · cases rest with
        | nil => simp [hc, joinLines, afterEnd]
        | cons d rest => exact absurd rfl (hbackslash d rest hc)
      · rw [afterEnd_cons, ih]
        · split
          · decide
          · exact hc
        · rintro hquote ⟨more, hmore⟩
          obtain ⟨first, rfl, hfirst⟩ := exists_of_joinLines_eq_quote hmore.symm
          obtain ⟨second, rfl, _⟩ := exists_of_joinLines_eq_quote hfirst
          refine hquotes second ?_ rfl
          split at hquote
          · exact absurd hquote (by decide)
          · exact hquote
  | case4 => rfl

end JoinedLines

end Text

end VoiceIntents
