import Mathlib.Algebra.Group.Nat.Defs
import Mathlib.Tactic.SplitIfs
import VoiceIntents.Text.Encoding
import VoiceIntents.Text.Literal

/-!
# Literals on one line

A literal between double quotes ends at the first quote that no backslash escapes, on the line
where it began. What stands between its quotes is read by the rules for escapes. A text that is
quoted is read back as it was, and what follows the literal stays as it is.
-/

namespace VoiceIntents.Text

/-- The number that hexadecimal digits spell. -/
def hexNumber? (digits : List Char) : Option Nat :=
  digits.foldlM (fun n c => (hexValue? c).map (n * 16 + ·)) 0

section Hexadecimal

theorem hexValue?_hexDigit : ∀ n < 16, hexValue? (hexDigit n) = some n := by decide

theorem hexNumber?_concat (digits : List Char) (c : Char) :
    hexNumber? (digits ++ [c]) =
      (hexNumber? digits).bind fun n => (hexValue? c).map (n * 16 + ·) := by
  simp [hexNumber?, List.foldlM_append]

theorem hexNumber?_hexDigits (width n : Nat) :
    hexNumber? (hexDigits width n) = some (n % 16 ^ width) := by
  induction width generalizing n with
  | zero =>
      rw [Nat.pow_zero, Nat.mod_one]
      rfl
  | succ width ih =>
      have hdigit := hexValue?_hexDigit (n % 16) (Nat.mod_lt n (by decide))
      rw [hexDigits, hexNumber?_concat, ih, hdigit, Option.bind_some, Option.map_some,
        Nat.pow_succ, Nat.mul_comm (16 ^ width), Nat.mod_mul]
      congr 1
      omega

theorem exists_of_mem_hexDigits {width n : Nat} {c : Char} (h : c ∈ hexDigits width n) :
    ∃ d < 16, c = hexDigit d := by
  induction width generalizing n with
  | zero => cases h
  | succ width ih =>
      rw [hexDigits, List.mem_append, List.mem_singleton] at h
      rcases h with h | rfl
      · exact ih h
      · exact ⟨n % 16, Nat.mod_lt n (by decide), rfl⟩

end Hexadecimal

namespace Quoted

/-- The character that a single letter stands for after a backslash. -/
def ofLetter (letter : Char) : Option Char :=
  [('"', '"'), ('\\', '\\'), ('n', '\n'), ('r', '\r'), ('t', '\t'), ('b', '\x08'),
    ('f', '\x0c')].lookup letter

/-- The text that the characters between the quotes of a literal stand for. There are more escapes
than these; a text that has one of them is not read. -/
def decode : List Char → Option (List Char)
  | '\\' :: 'u' :: a :: b :: c :: d :: rest => do
      let code ← hexNumber? [a, b, c, d]
      if code.isValidChar then (decode rest).map (Char.ofNat code :: ·) else none
  | '\\' :: letter :: rest => do
      let c ← ofLetter letter
      (decode rest).map (c :: ·)
  | c :: rest => if c = '\\' then none else (decode rest).map (c :: ·)
  | [] => some []

/-- The line ends, which a literal on one line does not hold, and NUL, which no source may hold. -/
def Breaks (c : Char) : Prop := c = '\n' ∨ c = '\r' ∨ c = '\x00'

instance : DecidablePred Breaks := fun c => inferInstanceAs (Decidable (c = '\n' ∨ _))

/-- What stands between the quotes of a literal and what stands behind it, for a text that begins
behind the opening quote. The literal is closed by the first quote that no backslash escapes. -/
def closing : List Char → Option (List Char × List Char)
  | '"' :: rest => some ([], rest)
  | '\\' :: c :: rest =>
      if Breaks c then none else (closing rest).map fun r => ('\\' :: c :: r.1, r.2)
  | c :: rest =>
      if c = '\\' ∨ Breaks c then none else (closing rest).map fun r => (c :: r.1, r.2)
  | [] => none

/-- Reads the literal that a text begins with: the text that it stands for, and what follows it.
Three quotes would begin a literal that goes over lines. -/
def read : List Char → Option (List Char × List Char)
  | '"' :: '"' :: '"' :: _ => none
  | '"' :: rest => do
      let (body, after) ← closing rest
      (decode body).map (·, after)
  | _ => none

/-- A character that stands for itself in a literal. -/
def Plain (c : Char) : Prop := 32 ≤ c.toNat ∧ c ≠ '"' ∧ c ≠ '\\'

instance : DecidablePred Plain := fun c => inferInstanceAs (Decidable (32 ≤ c.toNat ∧ _))

section Characters
variable {c : Char}

theorem not_breaks_of_le (h : 32 ≤ c.toNat) : ¬Breaks c := by
  rintro (rfl | rfl | rfl) <;> exact absurd h (by decide)

theorem plain_of_mem_hexDigits {width n : Nat} (h : c ∈ hexDigits width n) : Plain c := by
  have hplain : ∀ d < 16, Plain (hexDigit d) := by decide
  obtain ⟨d, hd, rfl⟩ := exists_of_mem_hexDigits h
  exact hplain d hd

/-- How a character is written: by a letter that has a meaning after a backslash, by its number, or
as it is. -/
theorem encodeChar_cases (c : Char) :
    (∃ letter, 32 ≤ letter.toNat ∧ ofLetter letter = some c ∧ encodeChar c = ['\\', letter]) ∨
      (c.toNat < 32 ∧ encodeChar c = '\\' :: 'u' :: hexDigits 4 c.toNat) ∨
      (Plain c ∧ encodeChar c = [c]) := by
  unfold encodeChar
  split_ifs with hquote hbackslash hfeed hreturn htab hback hform hcontrol
  case pos => exact .inl ⟨'"', by decide, by rw [hquote]; rfl, rfl⟩
  case pos => exact .inl ⟨'\\', by decide, by rw [hbackslash]; rfl, rfl⟩
  case pos => exact .inl ⟨'n', by decide, by rw [hfeed]; rfl, rfl⟩
  case pos => exact .inl ⟨'r', by decide, by rw [hreturn]; rfl, rfl⟩
  case pos => exact .inl ⟨'t', by decide, by rw [htab]; rfl, rfl⟩
  case pos => exact .inl ⟨'b', by decide, by rw [hback]; rfl, rfl⟩
  case pos => exact .inl ⟨'f', by decide, by rw [hform]; rfl, rfl⟩
  case pos => exact .inr (.inl ⟨hcontrol, rfl⟩)
  case neg => exact .inr (.inr ⟨⟨Nat.le_of_not_lt hcontrol, hquote, hbackslash⟩, rfl⟩)

end Characters

section Decoding
variable {c : Char}

theorem decode_letter {letter : Char} (h : ofLetter letter = some c) (more : List Char) :
    decode ('\\' :: letter :: more) = (decode more).map (c :: ·) := by
  -- The letter of numbers is none of those that stand for a character.
  have hnumber : letter ≠ 'u' := by
    rintro rfl
    cases h
  rw [decode.eq_def]
  split
  · next heq => exact absurd (List.cons.inj (List.cons.inj heq).2).1 hnumber
  · next heq =>
      obtain ⟨rfl, rfl⟩ := List.cons.inj (List.cons.inj heq).2
      rw [h]
      rfl
  · next hescape heq =>
      obtain ⟨rfl, rfl⟩ := List.cons.inj heq
      exact absurd rfl (hescape letter more rfl)
  · next heq => cases heq

theorem decode_number (h : c.toNat < 16 ^ 4) (more : List Char) :
    decode ('\\' :: 'u' :: hexDigits 4 c.toNat ++ more) = (decode more).map (c :: ·) := by
  have hnumber : hexNumber? (hexDigits 4 c.toNat) = some c.toNat := by
    rw [hexNumber?_hexDigits, Nat.mod_eq_of_lt h]
  have hopen : decode ('\\' :: 'u' :: hexDigits 4 c.toNat ++ more) =
      (hexNumber? (hexDigits 4 c.toNat)).bind fun code =>
        if code.isValidChar then (decode more).map (Char.ofNat code :: ·) else none := rfl
  have hvalid : c.toNat.isValidChar := c.valid
  rw [hopen, hnumber, Option.bind_some, if_pos hvalid, Char.ofNat_toNat]

theorem decode_plain (h : c ≠ '\\') (more : List Char) :
    decode (c :: more) = (decode more).map (c :: ·) := by
  rw [decode.eq_def]
  split
  · next heq => exact absurd (List.cons.inj heq).1 h
  · next heq => exact absurd (List.cons.inj heq).1 h
  · next heq =>
      obtain ⟨rfl, rfl⟩ := List.cons.inj heq
      rw [if_neg h]
  · next heq => cases heq

theorem decode_encodeChar_append (c : Char) (more : List Char) :
    decode (encodeChar c ++ more) = (decode more).map (c :: ·) := by
  obtain ⟨letter, _, hletter, hc⟩ | ⟨hcontrol, hc⟩ | ⟨hplain, hc⟩ := encodeChar_cases c
  · rw [hc]
    exact decode_letter hletter more
  · rw [hc]
    exact decode_number (Nat.lt_of_lt_of_le hcontrol (by decide)) more
  · rw [hc]
    exact decode_plain hplain.2.2 more

/-- What is written between the quotes stands for the text. -/
theorem decode_encode (text : List Char) : decode (encode text) = some text := by
  induction text with
  | nil => rfl
  | cons c text ih =>
      rw [encode] at ih
      rw [encode, List.flatMap_cons, decode_encodeChar_append, ih]
      rfl

end Decoding

section Closing
variable {front back : List Char} {c : Char}

/-- A text that may stand in a literal: it neither closes it nor escapes what follows. -/
def Inert (front : List Char) : Prop :=
  ∀ more, closing (front ++ more) = (closing more).map fun r => (front ++ r.1, r.2)

theorem inert_nil : Inert [] := by
  intro more
  exact Option.map_id'.symm

theorem Inert.append (hfront : Inert front) (hback : Inert back) : Inert (front ++ back) := by
  intro more
  rw [List.append_assoc, hfront, hback, Option.map_map]
  simp only [Function.comp_def, List.append_assoc]

theorem inert_plain (h : Plain c) : Inert [c] := by
  intro more
  obtain ⟨hle, hquote, hbackslash⟩ := h
  rw [List.singleton_append, closing.eq_def]
  split
  · next heq => exact absurd (List.cons.inj heq).1 hquote
  · next heq => exact absurd (List.cons.inj heq).1 hbackslash
  · next heq =>
      obtain ⟨rfl, rfl⟩ := List.cons.inj heq
      rw [if_neg (not_or_intro hbackslash (not_breaks_of_le hle))]
      rfl
  · next heq => cases heq

theorem inert_escape (h : 32 ≤ c.toNat) : Inert ['\\', c] := by
  intro more
  have hopen : closing ('\\' :: c :: more) =
      if Breaks c then none else (closing more).map fun r => ('\\' :: c :: r.1, r.2) := rfl
  rw [List.cons_append, List.singleton_append, hopen, if_neg (not_breaks_of_le h)]
  rfl

theorem inert_of_forall_plain {text : List Char} (h : ∀ c ∈ text, Plain c) : Inert text := by
  induction text with
  | nil => exact inert_nil
  | cons c text ih =>
      obtain ⟨hc, htext⟩ := List.forall_mem_cons.mp h
      exact (inert_plain hc).append (ih htext)

theorem inert_encodeChar (c : Char) : Inert (encodeChar c) := by
  obtain ⟨letter, hle, _, hc⟩ | ⟨_, hc⟩ | ⟨hplain, hc⟩ := encodeChar_cases c
  · rw [hc]
    exact inert_escape hle
  · rw [hc]
    have hletter : Inert ['\\', 'u'] := inert_escape (by decide)
    have hdigits : Inert (hexDigits 4 c.toNat) :=
      inert_of_forall_plain fun _ => plain_of_mem_hexDigits
    exact hletter.append hdigits
  · rw [hc]
    exact inert_plain hplain

theorem inert_encode (text : List Char) : Inert (encode text) := by
  induction text with
  | nil => exact inert_nil
  | cons c text ih =>
      rw [encode, List.flatMap_cons]
      exact (inert_encodeChar c).append ih

/-- A literal is closed by the quote behind its text. -/
theorem closing_encode (text rest : List Char) :
    closing (encode text ++ '"' :: rest) = some (encode text, rest) := by
  rw [inert_encode]
  simp [closing]

/-- The characters of a literal end at its quote. -/
theorem encode_append_inj {a b r s : List Char}
    (h : encode a ++ '"' :: r = encode b ++ '"' :: s) : a = b ∧ r = s := by
  have hclosing := congrArg closing h
  rw [closing_encode, closing_encode, Option.some.injEq, Prod.mk.injEq] at hclosing
  obtain ⟨hbody, hrest⟩ := hclosing
  have hdecode := congrArg decode hbody
  rw [decode_encode, decode_encode, Option.some.injEq] at hdecode
  exact ⟨hdecode, hrest⟩

end Closing

section Reading
variable {text rest : List Char}

/-- No character of a literal is written with a quote in front. -/
theorem head?_encode_append_ne (h : text ≠ []) (more : List Char) :
    (encode text ++ more).head? ≠ some '"' := by
  obtain ⟨c, text, rfl⟩ := List.exists_cons_of_ne_nil h
  rw [encode, List.flatMap_cons]
  obtain ⟨letter, _, _, hc⟩ | ⟨_, hc⟩ | ⟨hplain, hc⟩ := encodeChar_cases c
  · simp [hc]
  · simp [hc]
  · simp [hc, hplain.2.1]

theorem read_quote_cons (h : ¬['"', '"'] <+: rest) :
    read ('"' :: rest) = (closing rest).bind fun r => (decode r.1).map (·, r.2) := by
  rw [read.eq_def]
  split
  · next more heq =>
      rw [(List.cons.inj heq).2] at h
      exact absurd (List.prefix_append ['"', '"'] more) h
  · next heq =>
      rw [(List.cons.inj heq).2]
      rfl
  · next hquote => exact absurd rfl (hquote rest)

/-- A literal is read back where no quote follows it. -/
theorem read_encode (text : List Char) (h : rest.head? ≠ some '"') :
    read ('"' :: (encode text ++ '"' :: rest)) = some (text, rest) := by
  have hquotes : ¬['"', '"'] <+: encode text ++ '"' :: rest := by
    rintro ⟨more, hmore⟩
    by_cases htext : text = []
    · -- The empty literal has both its quotes there, and one more would follow.
      rw [htext, encode, List.flatMap_nil, List.nil_append] at hmore
      rw [← (List.cons.inj hmore).2] at h
      exact h rfl
    · refine head?_encode_append_ne htext ('"' :: rest) ?_
      rw [← hmore]
      rfl
  rw [read_quote_cons hquotes, closing_encode, Option.bind_some, decode_encode]
  rfl

end Reading

end Quoted

section Quoting

theorem toList_quote (text : String) :
    (quote text).toList = '"' :: (Quoted.encode text.toList ++ ['"']) := by
  rw [quote, String.toList_ofList, List.cons_append]

/-- A literal and what follows it are told from the two together. -/
theorem quote_append_inj {a b : String} {r s : List Char}
    (h : (quote a).toList ++ r = (quote b).toList ++ s) : a = b ∧ r = s := by
  simp only [toList_quote, List.cons_append, List.append_assoc, List.nil_append,
    List.cons.injEq, true_and] at h
  obtain ⟨htext, hrest⟩ := Quoted.encode_append_inj h
  exact ⟨String.toList_injective htext, hrest⟩

end Quoting

end VoiceIntents.Text
