import Mathlib.Data.List.Infix
import Mathlib.Tactic.MkIffOfInductiveProp
import VoiceIntents.Proofs.ValuelessScalars
import VoiceIntents.Toml.Document

/-!
# TOML texts that are too large

A TOML text is read from its beginning on, and what is left is always an end of it. Two things
have no value though they are well formed: an integer with too many digits, and collections inside
one another for which there is no room. The text then holds those digits, or opens that many
collections.
-/

namespace VoiceIntents.Toml

/-- The room that the collections of a text would take inside one another. -/
def bracketRoom (text : List Char) : Nat :=
  arrayRoom * text.count '[' + tableRoom * text.count '\x7b'

/-- What a text holds that is too large, with the reason that is given for it. -/
inductive Oversized (room : Nat) (text : List Char) : Unreadable → Prop
  | digits {before spelled after : List Char} (htext : text = before ++ spelled ++ after)
      (hchars : ∀ c ∈ spelled, c.isDigit = true ∨ c = '_')
      (hlong : Numeral.digitLimit < spelled.countP Char.isDigit) :
      Oversized room text .tooManyDigits
  | nested (h : room < bracketRoom text) : Oversized room text .tooDeep

section Brackets
variable {room : Nat} {text whole : List Char} {cause : Unreadable}

theorem bracketRoom_mono (h : text <:+ whole) : bracketRoom text ≤ bracketRoom whole := by
  have harrays := h.sublist.count_le '['
  have htables := h.sublist.count_le '\x7b'
  unfold bracketRoom
  exact Nat.add_le_add (Nat.mul_le_mul_left _ harrays) (Nat.mul_le_mul_left _ htables)

theorem Oversized.mono (h : Oversized room text cause) (hend : text <:+ whole) :
    Oversized room whole cause := by
  cases h with
  | digits htext hchars hlong =>
      obtain ⟨start, rfl⟩ := hend
      exact .digits (by rw [htext, ← List.append_assoc, ← List.append_assoc]) hchars hlong
  | nested hroom => exact .nested (hroom.trans_le (bracketRoom_mono hend))

/-- What is too large inside a collection is too large around it. -/
theorem Oversized.around {bracket : Char} {taken : Nat}
    (hroom : bracketRoom (bracket :: text) = taken + bracketRoom text) (htaken : taken ≤ room)
    (h : Oversized (room - taken) text cause) : Oversized room (bracket :: text) cause := by
  cases h with
  | digits htext hchars hlong =>
      exact (Oversized.digits htext hchars hlong).mono (List.suffix_cons bracket text)
  | nested hinside => exact .nested (by omega)

theorem bracketRoom_array (text : List Char) :
    bracketRoom ('[' :: text) = arrayRoom + bracketRoom text := by
  simp [bracketRoom, Nat.mul_add]
  omega

theorem bracketRoom_table (text : List Char) :
    bracketRoom ('\x7b' :: text) = tableRoom + bracketRoom text := by
  simp [bracketRoom, Nat.mul_add]
  omega

end Brackets

/-!
## Ends of a text

What each reader of a number, date or time leaves.
-/

section Ends
variable {text : List Char}

theorem digits?_suffix {least most : Nat} {taken : Taken (List Char)}
    (h : Text.digits? least most text = some taken) : taken.2 <:+ text := by
  unfold Text.digits? at h
  dsimp only at h
  split at h
  · cases h
  · cases h
    exact List.drop_suffix _ _

theorem expect?_suffix {c : Char} {rest : List Char} (h : Text.expect? c text = some rest) :
    rest <:+ text := by
  unfold Text.expect? at h
  split at h
  · split at h
    · cases h
      exact List.suffix_cons _ _
    · cases h
  · cases h

theorem twoDigits?_suffix {low high : Nat} {taken : Taken Nat}
    (h : twoDigits? low high text = some taken) : taken.2 <:+ text := by
  obtain ⟨⟨digits, rest⟩, hdigits, h⟩ := Option.bind_eq_some_iff.mp h
  dsimp only at h
  split at h
  · cases h
    exact digits?_suffix hdigits
  · cases h

/-- Two digits after a separator. -/
theorem separated_suffix {c : Char} {low high : Nat} {after : List Char} {taken : Taken Nat}
    (hmark : Text.expect? c text = some after) (hdigits : twoDigits? low high after = some taken) :
    taken.2 <:+ text :=
  (twoDigits?_suffix hdigits).trans (expect?_suffix hmark)

theorem fraction_suffix (text : List Char) : (fraction text).2 <:+ text := by
  unfold fraction
  split
  · dsimp only
    split
    · exact List.suffix_rfl
    · exact (List.drop_suffix _ _).trans (List.suffix_cons _ _)
  · exact List.suffix_rfl

theorem time?_suffix {taken : Taken TimeOfDay} (h : time? text = some taken) :
    taken.2 <:+ text := by
  obtain ⟨⟨hour, rest⟩, hhour, h⟩ := Option.bind_eq_some_iff.mp h
  obtain ⟨after, hafter, h⟩ := Option.bind_eq_some_iff.mp h
  obtain ⟨⟨minute, rest'⟩, hminute, h⟩ := Option.bind_eq_some_iff.mp h
  obtain ⟨after', hafter', h⟩ := Option.bind_eq_some_iff.mp h
  obtain ⟨⟨second, rest''⟩, hsecond, h⟩ := Option.bind_eq_some_iff.mp h
  cases h
  calc (fraction rest'').2 <:+ rest'' := fraction_suffix rest''
    _ <:+ rest' := separated_suffix hafter' hsecond
    _ <:+ rest := separated_suffix hafter hminute
    _ <:+ text := twoDigits?_suffix hhour

theorem dateParts?_suffix {taken : Taken (Nat × Nat × Nat)} (h : dateParts? text = some taken) :
    taken.2 <:+ text := by
  obtain ⟨⟨year, rest⟩, hyear, h⟩ := Option.bind_eq_some_iff.mp h
  obtain ⟨after, hafter, h⟩ := Option.bind_eq_some_iff.mp h
  obtain ⟨⟨month, rest'⟩, hmonth, h⟩ := Option.bind_eq_some_iff.mp h
  obtain ⟨after', hafter', h⟩ := Option.bind_eq_some_iff.mp h
  obtain ⟨⟨day, rest''⟩, hday, h⟩ := Option.bind_eq_some_iff.mp h
  cases h
  calc rest'' <:+ rest' := separated_suffix hafter' hday
    _ <:+ rest := separated_suffix hafter hmonth
    _ <:+ text := digits?_suffix hyear

theorem zoneSeconds?_suffix {taken : Taken Int} (h : zoneSeconds? text = some taken) :
    taken.2 <:+ text := by
  obtain ⟨⟨hours, rest⟩, hhours, h⟩ := Option.bind_eq_some_iff.mp h
  obtain ⟨after, hafter, h⟩ := Option.bind_eq_some_iff.mp h
  obtain ⟨⟨minutes, rest'⟩, hminutes, h⟩ := Option.bind_eq_some_iff.mp h
  cases h
  exact (separated_suffix hafter hminutes).trans (twoDigits?_suffix hhours)

/-- A reader with something else to give where it finds nothing. -/
theorem getD_suffix {α β : Type} {found : Option (Taken α)} {f : Taken α → Taken β}
    {other : Taken β} (h : ∀ taken, found = some taken → taken.2 <:+ text)
    (hf : ∀ taken, (f taken).2 = taken.2) (hother : other.2 <:+ text) :
    ((found.map f).getD other).2 <:+ text := by
  cases found with
  | none => exact hother
  | some taken =>
      change (f taken).2 <:+ text
      rw [hf]
      exact h taken rfl

theorem zone_suffix (text : List Char) : (zone text).2 <:+ text := by
  unfold zone
  split
  · next c rest =>
      have hseconds : ∀ taken, zoneSeconds? rest = some taken → taken.2 <:+ c :: rest :=
        fun taken h => (zoneSeconds?_suffix h).trans (List.suffix_cons c rest)
      split
      · exact List.suffix_cons c rest
      · split
        · exact getD_suffix hseconds (fun _ => rfl) List.suffix_rfl
        · split
          · exact getD_suffix hseconds (fun _ => rfl) List.suffix_rfl
          · exact List.suffix_rfl
  · exact List.suffix_rfl

theorem timeAfter?_suffix {taken : Taken TimeOfDay} (h : timeAfter? text = some taken) :
    taken.2 <:+ text := by
  unfold timeAfter? at h
  split at h
  · split at h
    · exact (time?_suffix h).trans (List.suffix_cons _ _)
    · cases h
  · cases h

theorem dateOrMoment?_suffix {taken : Taken Scalar} (h : dateOrMoment? text = some (some taken)) :
    taken.2 <:+ text := by
  obtain ⟨⟨⟨year, month, day⟩, rest⟩, hparts, h⟩ := Option.bind_eq_some_iff.mp h
  have hrest : rest <:+ text := dateParts?_suffix hparts
  dsimp only at h
  split at h
  · obtain ⟨date, _, rfl⟩ := Option.map_eq_some_iff.mp (Option.some.inj h)
    exact hrest
  · next time after htime =>
      obtain ⟨date, _, rfl⟩ := Option.map_eq_some_iff.mp (Option.some.inj h)
      exact ((zone_suffix after).trans (timeAfter?_suffix htime)).trans hrest

theorem spelledSign_suffix (text : List Char) : (spelledSign text).2 <:+ text := by
  unfold spelledSign
  split
  · split
    · exact List.suffix_cons _ _
    · exact List.suffix_rfl
  · exact List.suffix_rfl

theorem word?_suffix {taken : Taken Scalar} (h : word? text = some taken) : taken.2 <:+ text := by
  have hsign := spelledSign_suffix text
  unfold word? at h
  split at h
  · next sign rest hspelled =>
      cases h
      rw [hspelled] at hsign
      exact (List.suffix_append ['i', 'n', 'f'] rest).trans hsign
  · next sign rest hspelled =>
      cases h
      rw [hspelled] at hsign
      exact (List.suffix_append ['n', 'a', 'n'] rest).trans hsign
  · cases h

end Ends

/-!
## Digits

The digits of a number stand in the text, with underscores between them.
-/

section Digits
variable {isDigit : Char → Bool}

/-- A run of digits and underscores at the start of a text, with its digits and the rest. -/
structure Spells (isDigit : Char → Bool) (text spelled : List Char) (taken : Taken (List Char)) :
    Prop where
  text_eq : text = spelled ++ taken.2
  digits_eq : taken.1 = spelled.filter isDigit
  chars : ∀ c ∈ spelled, isDigit c = true ∨ c = '_'

theorem Spells.cons {text spelled : List Char} {taken : Taken (List Char)} {c : Char}
    (h : Spells isDigit text spelled taken) (hc : isDigit c = true) :
    Spells isDigit (c :: text) (c :: spelled) (c :: taken.1, taken.2) where
  text_eq := by rw [h.text_eq, List.cons_append]
  digits_eq := by rw [h.digits_eq, List.filter_cons_of_pos hc]
  chars := List.forall_mem_cons.mpr ⟨.inl hc, h.chars⟩

theorem Spells.underscore {text spelled : List Char} {taken : Taken (List Char)}
    (h : Spells isDigit text spelled taken) (hunderscore : isDigit '_' = false) :
    Spells isDigit ('_' :: text) ('_' :: spelled) taken where
  text_eq := by rw [h.text_eq, List.cons_append]
  digits_eq := by rw [h.digits_eq, List.filter_cons_of_neg (by simp [hunderscore])]
  chars := List.forall_mem_cons.mpr ⟨.inr rfl, h.chars⟩

theorem spells_digitRun (hunderscore : isDigit '_' = false) (text : List Char) :
    ∃ spelled, Spells isDigit text spelled (digitRun isDigit text) := by
  fun_induction digitRun isDigit text with
  | case1 c rest hc run after hrun ih =>
      rw [hrun] at ih
      obtain ⟨spelled, h⟩ := ih
      exact ⟨'_' :: c :: spelled, (h.cons hc).underscore hunderscore⟩
  | case2 c rest hc => exact ⟨[], rfl, rfl, by simp⟩
  | case3 c rest hother hc run after hrun ih =>
      rw [hrun] at ih
      obtain ⟨spelled, h⟩ := ih
      exact ⟨c :: spelled, h.cons hc⟩
  | case4 c rest hother hc => exact ⟨[], rfl, rfl, by simp⟩
  | case5 => exact ⟨[], rfl, rfl, by simp⟩

/-- A run that starts with a digit has one. -/
theorem spells_digitRun? (hunderscore : isDigit '_' = false) {text : List Char}
    {taken : Taken (List Char)} (h : digitRun? isDigit text = some taken) :
    taken.1 ≠ [] ∧ ∃ spelled, Spells isDigit text spelled taken := by
  unfold digitRun? at h
  split at h
  · next c rest =>
      split at h
      · next hc =>
          cases h
          refine ⟨?_, spells_digitRun hunderscore _⟩
          unfold digitRun
          split
          · next hrest =>
              obtain ⟨rfl, rfl⟩ := List.cons.inj hrest
              simp [hunderscore] at hc
          · next hrest =>
              obtain ⟨rfl, rfl⟩ := List.cons.inj hrest
              simp [hc]
          · next hrest => cases hrest
      · cases h
  · cases h

theorem Spells.suffix {text spelled : List Char} {taken : Taken (List Char)}
    (h : Spells isDigit text spelled taken) : taken.2 <:+ text := by
  rw [h.text_eq]
  exact List.suffix_append spelled taken.2

theorem digitRun?_suffix {text : List Char} {taken : Taken (List Char)}
    (h : digitRun? Char.isDigit text = some taken) : taken.2 <:+ text := by
  obtain ⟨_, spelled, hspells⟩ := spells_digitRun? (by decide) h
  exact hspells.suffix

theorem wholeDigits?_spells {text : List Char} {taken : Taken (List Char)}
    (h : wholeDigits? text = some taken) :
    taken.1 ≠ [] ∧ ∃ spelled, Spells Char.isDigit text spelled taken := by
  unfold wholeDigits? at h
  split at h
  · cases h
    exact ⟨by simp, ['0'], rfl, rfl, by simp⟩
  · exact spells_digitRun? (by decide) h

theorem spelledFraction_suffix (text : List Char) : (spelledFraction text).2 <:+ text := by
  unfold spelledFraction
  split
  · next rest =>
      exact getD_suffix (fun taken h => (digitRun?_suffix h).trans (List.suffix_cons '.' rest))
        (fun _ => rfl) List.suffix_rfl
  · exact List.suffix_rfl

theorem spelledExponent_suffix (text : List Char) : (spelledExponent text).2 <:+ text := by
  unfold spelledExponent
  split
  · next c rest =>
      split
      · have hsign := (spelledSign_suffix rest).trans (List.suffix_cons c rest)
        exact getD_suffix (fun taken h => (digitRun?_suffix h).trans hsign) (fun _ => rfl)
          List.suffix_rfl
      · exact List.suffix_rfl
  · exact List.suffix_rfl

end Digits

/-!
## Integers

Digits that were found are read, unless there are too many of them in base ten.
-/

section Integers
variable {base : Nat} {c : Char}

/-- A digit of a base, where it is neither a blank nor a sign nor the letter of the base. -/
@[mk_iff] structure PlainDigit (base : Nat) (c : Char) : Prop where
  digit : Numeral.IsDigit base c
  blank : Numeral.isBlank c = false
  minus : c ≠ '-'
  plus : c ≠ '+'
  letter : ¬(base = 16 ∧ c.toLower = 'x' ∨ base = 8 ∧ c.toLower = 'o' ∨ base = 2 ∧ c.toLower = 'b')

instance (base : Nat) (c : Char) : Decidable (Numeral.IsDigit base c) :=
  inferInstanceAs (Decidable (∃ d, Numeral.digit? c = some d ∧ d < base))

instance (base : Nat) (c : Char) : Decidable (PlainDigit base c) :=
  decidable_of_iff _ (plainDigit_iff base c).symm

theorem plainDigit_of_ascii (isDigit : Char → Bool)
    (hall : ∀ n < 128, isDigit (Char.ofNat n) = true → PlainDigit base (Char.ofNat n))
    (hascii : c.toNat < 128) (hc : isDigit c = true) : PlainDigit base c := by
  have h := hall c.toNat hascii
  rw [Char.ofNat_toNat] at h
  exact h hc

theorem plainDigit_of_isDigit (h : c.isDigit = true) : PlainDigit 10 c := by
  have hcode : 48 ≤ c.toNat ∧ c.toNat ≤ 57 := by
    simpa [Char.isDigit, UInt32.le_iff_toNat_le] using h
  exact plainDigit_of_ascii Char.isDigit (by decide +kernel) (by omega) h

theorem plainDigit_of_hexValue? (h : (Text.hexValue? c).isSome = true) : PlainDigit 16 c := by
  have hcode : c.toNat < 128 := by
    unfold Text.hexValue? at h
    simp only [Char.le_def, UInt32.le_iff_toNat_le] at h
    split_ifs at h <;> simp_all <;> omega
  exact plainDigit_of_ascii (fun c => (Text.hexValue? c).isSome) (by decide +kernel) hcode h

theorem plainDigit_of_octal (h : ('0' ≤ c && c ≤ '7') = true) : PlainDigit 8 c := by
  have hcode : 48 ≤ c.toNat ∧ c.toNat ≤ 55 := by
    simpa [Char.le_def, UInt32.le_iff_toNat_le] using h
  exact plainDigit_of_ascii (fun c => '0' ≤ c && c ≤ '7') (by decide +kernel) (by omega) h

theorem plainDigit_of_binary (h : (c = '0' || c = '1') = true) : PlainDigit 2 c := by
  rw [Bool.or_eq_true, decide_eq_true_eq, decide_eq_true_eq] at h
  rcases h with rfl | rfl <;> decide

theorem trim_of_no_blank {text : List Char} (h : ∀ c ∈ text, Numeral.isBlank c = false) :
    Numeral.trim text = text := by
  have hdrop {chars : List Char} (hchars : ∀ c ∈ chars, Numeral.isBlank c = false) :
      chars.dropWhile Numeral.isBlank = chars := by
    cases chars with
    | nil => rfl
    | cons c rest => simp [hchars c (List.mem_cons_self ..)]
  have hback : ∀ c ∈ text.reverse, Numeral.isBlank c = false := fun c hc =>
    h c (List.mem_reverse.mp hc)
  rw [Numeral.trim, hdrop h, hdrop hback, List.reverse_reverse]

/-- The sign of a number, where it has one. -/
def IsSign (sign : List Char) : Prop := sign = [] ∨ sign = ['+'] ∨ sign = ['-']

theorem isSign_spelledSign (text : List Char) : IsSign (spelledSign text).1 := by
  unfold spelledSign
  split
  · split
    · next hc =>
        rw [Bool.or_eq_true, decide_eq_true_eq, decide_eq_true_eq] at hc
        rcases hc with rfl | rfl
        · exact .inr (.inl rfl)
        · exact .inr (.inr rfl)
    · exact .inl rfl
  · exact .inl rfl

theorem digitsOf_plain {sign digits : List Char} (hsign : IsSign sign)
    (hdigits : ∀ c ∈ digits, PlainDigit base c) (hne : digits ≠ []) :
    Numeral.digitsOf base (sign ++ digits) = digits := by
  have htrim : Numeral.trim (sign ++ digits) = sign ++ digits := by
    apply trim_of_no_blank
    intro c hc
    rcases List.mem_append.mp hc with hc | hc
    · rcases hsign with rfl | rfl | rfl
      · cases hc
      · obtain rfl := List.mem_singleton.mp hc
        decide
      · obtain rfl := List.mem_singleton.mp hc
        decide
    · exact (hdigits c hc).blank
  obtain ⟨first, rest, rfl⟩ := List.exists_cons_of_ne_nil hne
  have hfirst := hdigits first (List.mem_cons_self ..)
  have hspelled : (Numeral.sign (sign ++ first :: rest)).2 = first :: rest := by
    rcases hsign with rfl | rfl | rfl
    · unfold Numeral.sign
      split
      · next h => exact absurd (List.cons.inj h).1 hfirst.minus
      · next h => exact absurd (List.cons.inj h).1 hfirst.plus
      · rfl
    · rfl
    · rfl
  rw [Numeral.digitsOf, htrim, hspelled, Numeral.dropBaseMark.eq_def]
  split
  · next zero c more h =>
      have hc := hdigits c (by simp [h])
      refine (if_neg ?_).trans h.symm
      simp only [Bool.and_eq_true, Bool.or_eq_true, decide_eq_true_eq, not_and]
      intro _ hmark
      exact hc.letter (by simpa [or_assoc] using hmark)
  · rfl

/-- An integer of found digits is read, unless it is a decimal with too many. -/
theorem long_of_integer {sign digits : List Char} (hsign : IsSign sign)
    (hdigits : ∀ c ∈ digits, PlainDigit base c) (hne : digits ≠ []) {e : Error}
    (h : integer base (sign ++ digits) = .error e) :
    e = .unreadable .tooManyDigits ∧ base = 10 ∧ Numeral.digitLimit < digits.length := by
  unfold integer at h
  split at h
  · cases h
  · next fault hfault =>
      cases h
      refine ⟨rfl, ?_⟩
      have hplain := digitsOf_plain hsign hdigits hne
      cases Numeral.integer_eq_error_iff.mp hfault with
      | noDigits hnone => exact absurd (hplain.symm.trans hnone) hne
      | noDigit hc hother =>
          rw [hplain] at hc
          exact absurd (hdigits _ hc).digit hother
      | tooMany hbase _ hlong =>
          rw [hplain] at hlong
          exact ⟨hbase, hlong⟩

end Integers

/-!
## Readers

Each reader leaves an end of the text, and the text is to blame where there is no value.
-/

/-- An error that is one of form, or that something too large in the text is to blame for. -/
def Blames (room : Nat) (text : List Char) (e : Error) : Prop :=
  ∀ cause, e = .unreadable cause → Oversized room text cause

/-- A reader that leaves an end of a text, and that fails, other than for its form, for something
too large in the text. -/
abbrev Takes {α : Type} (room : Nat) (text : List Char) (rest : α → List Char) :
    Except Error α → Prop :=
  Stepwise.Yields (fun a => rest a <:+ text) (Blames room text)

section Readers
variable {α : Type} {room : Nat} {text whole : List Char} {rest : α → List Char}

theorem takes_fail (cause : Malformed) (left : List Char) :
    Takes room text rest (fail cause left) :=
  .error fun _ h => by cases h

theorem Blames.mono {e : Error} (h : Blames room text e) (hend : text <:+ whole) :
    Blames room whole e :=
  fun cause he => (h cause he).mono hend

theorem takes_mono {x : Except Error α} (h : Takes room text rest x) (hend : text <:+ whole) :
    Takes room whole rest x :=
  h.mono (fun _ ha => ha.trans hend) fun _ he => he.mono hend

theorem basedDigits?_plain {base : Nat} {taken : Taken (List Char)}
    (h : basedDigits? text = some (base, taken)) :
    base ≠ 10 ∧ taken.1 ≠ [] ∧ (∀ c ∈ taken.1, PlainDigit base c) ∧ taken.2 <:+ text := by
  have hrun {isDigit : Char → Bool} {zero letter : Char} {digits : List Char} {n : Nat}
      (hn : n ≠ 10) (hunderscore : isDigit '_' = false)
      (hplain : ∀ c, isDigit c = true → PlainDigit n c)
      (h : (digitRun? isDigit digits).map (n, ·) = some (base, taken)) :
      base ≠ 10 ∧ taken.1 ≠ [] ∧ (∀ c ∈ taken.1, PlainDigit base c) ∧
        taken.2 <:+ zero :: letter :: digits := by
    obtain ⟨found, hfound, heq⟩ := Option.map_eq_some_iff.mp h
    cases heq
    obtain ⟨hne, spelled, hspells⟩ := spells_digitRun? hunderscore hfound
    refine ⟨hn, hne, ?_, hspells.suffix.trans (List.suffix_append [zero, letter] digits)⟩
    intro c hc
    rw [hspells.digits_eq] at hc
    exact hplain c (List.of_mem_filter hc)
  unfold basedDigits? at h
  split at h
  · exact hrun (by decide) (by decide) (fun _ => plainDigit_of_hexValue?) h
  · exact hrun (by decide) (by decide) (fun _ => plainDigit_of_octal) h
  · exact hrun (by decide) (by decide) (fun _ => plainDigit_of_binary) h
  · cases h

/-- The digits of a decimal integer stand in the text after its sign. -/
theorem takes_integer {digits after : List Char} {left : List Char}
    (hdigits : wholeDigits? (spelledSign text).2 = some (digits, left)) (hafter : after <:+ text) :
    Takes room text Prod.snd ((integer 10 ((spelledSign text).1 ++ digits)).map (·, after)) := by
  obtain ⟨hne, spelled, hspells⟩ := wholeDigits?_spells hdigits
  have hfilter : digits = spelled.filter Char.isDigit := hspells.digits_eq
  cases hread : integer 10 ((spelledSign text).1 ++ digits) with
  | ok s => exact .ok hafter
  | error e =>
      have hplain : ∀ c ∈ digits, PlainDigit 10 c := by
        intro c hc
        rw [hfilter] at hc
        exact plainDigit_of_isDigit (List.of_mem_filter hc)
      obtain ⟨rfl, _, hlong⟩ := long_of_integer (isSign_spelledSign text) hplain hne hread
      obtain ⟨before, hbefore⟩ := spelledSign_suffix text
      have htext : text = before ++ spelled ++ left := by
        rw [← hbefore, hspells.text_eq, List.append_assoc]
      rw [hfilter, ← List.countP_eq_length_filter] at hlong
      refine .error ?_
      intro cause hcause
      cases hcause
      exact .digits htext hspells.chars hlong

theorem takes_decimal? {x : Except Error (Taken Scalar)} (h : decimal? text = some x) :
    Takes room text Prod.snd x := by
  obtain ⟨⟨digits, left⟩, hdigits, h⟩ := Option.bind_eq_some_iff.mp h
  obtain ⟨_, spelled, hspells⟩ := wholeDigits?_spells hdigits
  have hend : (spelledExponent (spelledFraction left).2).2 <:+ text :=
    calc (spelledExponent (spelledFraction left).2).2 <:+ (spelledFraction left).2 :=
          spelledExponent_suffix _
      _ <:+ left := spelledFraction_suffix left
      _ <:+ (spelledSign text).2 := hspells.suffix
      _ <:+ text := spelledSign_suffix text
  dsimp only at h
  split at h
  · rw [← Option.some.inj h]
    exact takes_integer hdigits hend
  · obtain ⟨n, _, h⟩ := Option.bind_eq_some_iff.mp h
    rw [← Option.some.inj h]
    exact .ok hend

theorem takes_number? {x : Except Error (Taken Scalar)} (h : number? text = some x) :
    Takes room text Prod.snd x := by
  unfold number? at h
  split at h
  · next base digits rest hbased =>
      cases h
      obtain ⟨hbase, hne, hplain, hend⟩ := basedDigits?_plain hbased
      cases hread : integer base digits with
      | ok s => exact .ok hend
      | error e => exact absurd (long_of_integer (.inl rfl) hplain hne hread).2.1 hbase
  · exact takes_decimal? h

theorem takes_readAtom (text : List Char) : Takes room text Prod.snd (readAtom text) := by
  unfold readAtom
  split
  · next h => exact .ok (dateOrMoment?_suffix h)
  · exact takes_fail _ _
  · split
    · next h => exact .ok (time?_suffix h)
    · split
      · next h => exact takes_number? h
      · split
        · next h => exact .ok (word?_suffix h)
        · exact takes_fail _ _

theorem skipBlanks_suffix (text : List Char) : skipBlanks text <:+ text :=
  List.dropWhile_suffix _

theorem takes_skipComment (text : List Char) : Takes room text id (skipComment text) := by
  unfold skipComment
  split
  · dsimp only
    split
    · exact takes_fail _ _
    · exact .ok ((List.drop_suffix _ _).trans (List.suffix_cons _ _))
  · exact .ok List.suffix_rfl

theorem takes_skipFiller (fuel : Nat) (text : List Char) :
    Takes room text id (skipFiller fuel text) := by
  induction fuel generalizing text with
  | zero => exact .ok List.suffix_rfl
  | succ fuel ih =>
      unfold skipFiller
      refine (takes_mono (takes_skipComment _) (List.dropWhile_suffix _)).bind ?_
      intro after hafter
      exact .ite (fun _ => .ok List.suffix_rfl) fun _ => takes_mono (ih after) hafter

theorem takes_skipToItem (text : List Char) : Takes room text id (skipToItem text) :=
  takes_skipFiller _ _

theorem takes_body (e : Enclosure) (taken text : List Char) :
    Takes room text Prod.snd (e.body taken text) := by
  -- An escape takes two characters at once, so the induction is on the length.
  induction hlength : text.length using Nat.strong_induction_on generalizing taken text with
  | _ n ih =>
      cases text with
      | nil => exact takes_fail _ _
      | cons c rest =>
          have hnext (taken : List Char) : Takes room (c :: rest) Prod.snd (e.body taken rest) :=
            takes_mono (ih rest.length (by simp [← hlength]) taken rest rfl)
              (List.suffix_cons c rest)
          unfold Enclosure.body
          refine .ite (fun _ => ?_) fun _ => ?_
          · refine .ite (fun _ => .ok (List.suffix_cons c rest)) fun _ => ?_
            split
            · next a b after =>
                refine .ite (fun _ => .ok (List.suffix_append [c, a, b] after)) fun _ => ?_
                exact hnext _
            · exact takes_fail _ _
          · refine .ite (fun _ => ?_) fun _ => .ite (fun _ => takes_fail _ _) fun _ => hnext _
            split
            · exact takes_fail _ _
            · next d after =>
                have hlt : after.length < n := by
                  rw [← hlength, List.length_cons, List.length_cons]
                  omega
                have hafter := ih after.length hlt (d :: c :: taken) after rfl
                exact takes_mono hafter (List.suffix_append [c, d] after)

theorem takes_text (e : Enclosure) (text : List Char) :
    Takes room text Prod.snd (e.text text) := by
  unfold Enclosure.text
  refine (takes_body e [] text).bind ?_
  rintro ⟨body, after⟩ hafter
  refine .ite (fun _ => ?_) fun _ => .ok hafter
  split
  · exact .ok hafter
  · exact takes_fail _ _

theorem takes_quotedText (quote : Char) (text : List Char) :
    Takes room text Prod.snd (quotedText quote text) := by
  unfold quotedText
  split
  · next a b more =>
      refine .ite (fun _ => ?_) fun _ => takes_text _ _
      refine Stepwise.Yields.bind (takes_mono (takes_text _ _) ?_) ?_
      · split
        · next more => exact List.suffix_append [a, b, '\n'] more
        · exact List.suffix_append [a, b] more
      · rintro ⟨body, after⟩ hafter
        exact .ok ((List.drop_suffix _ _).trans hafter)
  · exact takes_text _ _

theorem takes_readName (text : List Char) : Takes room text Prod.snd (readName text) := by
  unfold readName
  split
  · exact takes_fail _ _
  · next c rest =>
      refine .ite (fun _ => .ok (List.drop_suffix _ _)) fun _ => ?_
      refine .ite (fun _ => ?_) fun _ => takes_fail _ _
      refine (takes_mono (takes_text _ _) (List.suffix_cons c rest)).bind ?_
      rintro ⟨name, after⟩ hafter
      exact .ok hafter

theorem takes_readNames (fuel : Nat) (text : List Char) :
    Takes room text Prod.snd (readNames fuel text) := by
  induction fuel generalizing text with
  | zero => exact takes_fail _ _
  | succ fuel ih =>
      unfold readNames
      refine (takes_readName text).bind ?_
      rintro ⟨name, after⟩ hafter
      have hblanks : skipBlanks after <:+ text := (skipBlanks_suffix after).trans hafter
      dsimp only
      split
      · next rest hrest =>
          rw [hrest] at hblanks
          have hnext : skipBlanks rest <:+ text :=
            (skipBlanks_suffix rest).trans ((List.suffix_cons '.' rest).trans hblanks)
          refine (takes_mono (ih _) hnext).bind ?_
          rintro ⟨names, last⟩ hlast
          exact .ok hlast
      · exact .ok hblanks

theorem takes_readKey (text : List Char) : Takes room text Prod.snd (readKey text) :=
  takes_readNames _ _

theorem word_suffix {name : String} {after : List Char} (h : word name text = some after) :
    after <:+ text := by
  unfold word at h
  split at h
  · cases h
    exact List.drop_suffix _ _
  · cases h

/-- Inside a collection there is less room, and outside it one more bracket. -/
theorem takes_inside {bracket : Char} {taken : Nat} {left : List Char}
    {x : Nat → Except Error α} (hroom : bracketRoom (bracket :: left) = taken + bracketRoom left)
    (hx : ∀ inside, Takes inside left rest (x inside)) :
    Takes room (bracket :: left) rest (enter room taken >>= x) := by
  unfold enter
  split
  · next hsmall =>
      refine .error ?_
      intro cause hcause
      cases hcause
      exact .nested (by omega)
  · next hlarge =>
      refine (hx (room - taken)).mono (fun _ ha => ha.trans (List.suffix_cons bracket left)) ?_
      intro e he cause hcause
      exact (he cause hcause).around hroom (by omega)

/-- What the readers of values do with so much fuel. -/
structure ValuesTake (fuel : Nat) : Prop where
  value : ∀ room text, Takes room text Prod.snd (readValue room fuel text)
  items : ∀ room text, Takes room text Prod.snd (readItems room fuel text)
  pairs : ∀ room entries text, Takes room text Prod.snd (readPairs room fuel entries text)

theorem ValuesTake.readValue {fuel : Nat} (h : ValuesTake fuel) (room : Nat) (text : List Char) :
    Takes room text Prod.snd (readValue room (fuel + 1) text) := by
  unfold Toml.readValue
  split
  · exact takes_fail _ _
  · next c left =>
      refine .ite (fun _ => ?_) fun _ => ?_
      · refine (takes_mono (takes_quotedText c left) (List.suffix_cons c left)).bind ?_
        rintro ⟨body, after⟩ hafter
        exact .ok hafter
      refine .ite (fun hc => ?_) fun _ => ?_
      · subst hc
        refine takes_inside (bracketRoom_array left) fun inside => ?_
        refine (takes_skipToItem left).bind fun first hfirst => ?_
        refine (takes_mono (h.items inside first) hfirst).bind ?_
        rintro ⟨items, after⟩ hafter
        exact .ok hafter
      refine .ite (fun hc => ?_) fun _ => ?_
      · subst hc
        refine takes_inside (bracketRoom_table left) fun inside => ?_
        have hblanks := skipBlanks_suffix left
        dsimp only
        split
        · next after hafter =>
            rw [hafter] at hblanks
            exact .ok ((List.suffix_cons _ after).trans hblanks)
        · refine (takes_mono (h.pairs inside [] _) hblanks).bind ?_
          rintro ⟨entries, after⟩ hafter
          exact .ok hafter
      split
      · next hword => exact .ok (word_suffix hword)
      · split
        · next hword => exact .ok (word_suffix hword)
        · refine (takes_readAtom (c :: left)).bind ?_
          rintro ⟨s, after⟩ hafter
          exact .ok hafter

theorem ValuesTake.readItems {fuel : Nat} (h : ValuesTake fuel) (room : Nat) (text : List Char) :
    Takes room text Prod.snd (readItems room (fuel + 1) text) := by
  unfold Toml.readItems
  split
  · exact .ok (List.suffix_cons _ _)
  · exact takes_fail _ _
  · next text _ _ more hmore _ =>
      obtain rfl := Nat.succ.inj hmore
      refine (h.value room text).bind ?_
      rintro ⟨item, left⟩ hleft
      refine (takes_mono (takes_skipToItem left) hleft).bind fun next hnext => ?_
      split
      · next more =>
          have hmore := (List.suffix_cons ',' more).trans hnext
          refine (takes_mono (takes_skipToItem more) hmore).bind fun first hfirst => ?_
          refine (takes_mono (h.items room first) hfirst).bind ?_
          rintro ⟨items, after⟩ hafter
          exact .ok hafter
      · next after => exact .ok ((List.suffix_cons ']' after).trans hnext)
      · exact takes_fail _ _

theorem ValuesTake.readPairs {fuel : Nat} (h : ValuesTake fuel) (room : Nat) (entries : Entries)
    (text : List Char) : Takes room text Prod.snd (readPairs room (fuel + 1) entries text) := by
  unfold Toml.readPairs
  refine (takes_readKey text).bind ?_
  rintro ⟨key, left⟩ hleft
  dsimp only at hleft ⊢
  split
  · next more =>
      have hmore : skipBlanks more <:+ text :=
        (skipBlanks_suffix more).trans ((List.suffix_cons '=' more).trans hleft)
      refine (takes_mono (h.value room _) hmore).bind ?_
      rintro ⟨value, after⟩ hafter
      have hblanks : skipBlanks after <:+ text := (skipBlanks_suffix after).trans hafter
      dsimp only
      split
      · exact takes_fail _ _
      · split
        · next last hlast =>
            rw [hlast] at hblanks
            exact .ok ((List.suffix_cons _ last).trans hblanks)
        · next last hlast =>
            rw [hlast] at hblanks
            have hnext : skipBlanks last <:+ text :=
              (skipBlanks_suffix last).trans ((List.suffix_cons ',' last).trans hblanks)
            exact takes_mono (h.pairs room _ _) hnext
        · exact takes_fail _ _
  · exact takes_fail _ _

theorem valuesTake (fuel : Nat) : ValuesTake fuel := by
  induction fuel with
  | zero =>
      refine ⟨fun room text => ?_, fun room text => ?_, fun room entries text => ?_⟩
      · unfold readValue
        exact takes_fail _ _
      · unfold readItems
        split
        · exact .ok (List.suffix_cons _ _)
        · exact takes_fail _ _
        · next h _ => cases h
      · unfold readPairs
        exact takes_fail _ _
  | succ fuel ih => exact ⟨ih.readValue, ih.readItems, ih.readPairs⟩

end Readers

/-!
## Documents

An entry is read with all the room there is, and a document line by line.
-/

section Documents

theorem takes_readHeader {room : Nat} (text : List Char) :
    Takes room text Prod.snd (readHeader text) := by
  unfold readHeader
  refine (takes_mono (takes_readKey _) (skipBlanks_suffix text)).bind ?_
  rintro ⟨path, left⟩ hleft
  dsimp only at hleft ⊢
  split
  · next after => exact .ok ((List.suffix_cons ']' after).trans hleft)
  · exact takes_fail _ _

theorem takes_readArrayHeader {room : Nat} (text : List Char) :
    Takes room text Prod.snd (readArrayHeader text) := by
  unfold readArrayHeader
  refine (takes_mono (takes_readKey _) (skipBlanks_suffix text)).bind ?_
  rintro ⟨path, left⟩ hleft
  dsimp only at hleft ⊢
  split
  · next after => exact .ok ((List.suffix_append [']', ']'] after).trans hleft)
  · exact takes_fail _ _

variable [Host]

theorem takes_readEntry (text : List Char) :
    Takes Host.nestingRoom text Prod.snd (readEntry text) := by
  unfold readEntry
  refine (takes_readKey text).bind ?_
  rintro ⟨path, left⟩ hleft
  dsimp only at hleft ⊢
  split
  · next more =>
      have hmore : skipBlanks more <:+ text :=
        (skipBlanks_suffix more).trans ((List.suffix_cons '=' more).trans hleft)
      refine (takes_mono ((valuesTake _).value _ _) hmore).bind ?_
      rintro ⟨value, after⟩ hafter
      exact .ok hafter
  · exact takes_fail _ _

theorem takes_readStatement (text : List Char) :
    Takes Host.nestingRoom text Prod.snd (readStatement text) := by
  unfold readStatement
  split
  · exact .ok List.suffix_rfl
  · next left =>
      have hleft : left <:+ '[' :: '[' :: left := List.suffix_append ['[', '['] left
      exact (takes_mono (takes_readArrayHeader left) hleft).map fun _ h => h
  · next left _ =>
      exact (takes_mono (takes_readHeader left) (List.suffix_cons '[' left)).map fun _ h => h
  · next c left _ _ =>
      refine .ite (fun _ => (takes_readEntry _).map fun _ h => h) fun _ => ?_
      exact .ite (fun _ => .ok List.suffix_rfl) fun _ => takes_fail _ _

theorem yields_applyLine {text : List Char} (d : Document) (statement : Option Statement)
    (left : List Char) :
    Stepwise.Yields (fun _ => True) (Blames Host.nestingRoom text)
      (d.applyLine statement left) := by
  unfold Document.applyLine
  split
  · exact .ok trivial
  · split
    · exact .ok trivial
    · exact .error fun _ h => by cases h

/-- Reading line after line fails, other than for the form of the text, for something too large. -/
theorem yields_readLines (text : List Char) (fuel : Nat) (d : Document) :
    Stepwise.Yields (fun _ => True) (Blames Host.nestingRoom text)
      (Document.readLines fuel d text) := by
  induction fuel generalizing d text with
  | zero => exact .ok trivial
  | succ fuel ih =>
      unfold Document.readLines
      refine (takes_mono (takes_readStatement _) (skipBlanks_suffix text)).bind ?_
      rintro ⟨statement, left⟩ hleft
      have hblanks : skipBlanks left <:+ text := (skipBlanks_suffix left).trans hleft
      refine (yields_applyLine d statement left).bind fun d' _ => ?_
      refine (takes_mono (takes_skipComment _) hblanks).bind fun after hafter => ?_
      split
      · exact .ok trivial
      · next more =>
          have hmore : more <:+ text := (List.suffix_cons '\n' more).trans hafter
          exact (ih more d').mono (fun _ h => h) fun _ he => he.mono hmore
      · exact .error fun _ h => by cases h

/-- A TOML text that is well formed and has no value holds something that is too large. -/
theorem oversized_of_readDocument {text : String} {cause : Unreadable}
    (h : readDocument text = .error (.unreadable cause)) :
    Oversized Host.nestingRoom (Text.dropReturns text.toList) cause := by
  have hread : Stepwise.Yields (fun _ => True)
      (Blames Host.nestingRoom (Text.dropReturns text.toList)) (readDocument text) :=
    (yields_readLines _ _ _).map fun _ h => h
  exact hread.of_eq_error h cause rfl

end Documents

end VoiceIntents.Toml
