import VoiceIntents.Proofs.WellFormed

/-!
# Scalars as names

Which scalars have a name as their text. Numbers, dates and times begin with a digit or a sign,
bytes hold a quote, and the words for null and the truth values are reserved; so besides texts
there are the positive infinity and the not-a-number.
-/

namespace VoiceIntents

open Identifier (Usable)

/-- A text in front of which stands a digit or a sign. -/
def Text.startsNumeral : List Char → Bool
  | [] => false
  | c :: _ => c.isDigit || c = '-'

section StartsNumeral
open Text

theorem startsNumeral_append {text : List Char} (h : startsNumeral text = true)
    (rest : List Char) : startsNumeral (text ++ rest) = true := by
  cases text with
  | nil => cases h
  | cons c text => exact h

theorem startsNumeral_of_isDigit {text : List Char} (hne : text ≠ [])
    (h : ∀ c ∈ text, c.isDigit = true) : startsNumeral text = true := by
  cases text with
  | nil => exact absurd rfl hne
  | cons c text => simp [startsNumeral, h c List.mem_cons_self]

theorem startsNumeral_toDigits (n : Nat) : startsNumeral (Nat.toDigits 10 n) = true :=
  startsNumeral_of_isDigit Nat.toDigits_ne_nil fun _ =>
    Nat.isDigit_of_mem_toDigits (by decide) (by decide)

theorem startsNumeral_padded (width n : Nat) :
    startsNumeral (padded width n).toList = true := by
  rw [padded, String.toList_ofList]
  apply startsNumeral_of_isDigit
  · simp [Nat.toDigits_ne_nil]
  · intro c hc
    rcases List.mem_append.mp hc with hzero | hdigit
    · rw [List.eq_of_mem_replicate hzero]
      rfl
    · exact Nat.isDigit_of_mem_toDigits (by decide) (by decide) hdigit

theorem isIdentifierStart_of_isDigit {c : Char} (h : c.isDigit = true) :
    isIdentifierStart c = false := by
  have hall : ∀ n < 58, 48 ≤ n → isIdentifierStart (Char.ofNat n) = false := by decide
  have hrange : 48 ≤ c.toNat ∧ c.toNat ≤ 57 := by
    simpa [Char.isDigit, UInt32.le_iff_toNat_le] using h
  rw [← Char.ofNat_toNat c]
  exact hall c.toNat (by omega) hrange.1

/-- A digit or a sign begins no identifier. -/
theorem not_isIdentifier_of_startsNumeral {text : List Char} (h : startsNumeral text = true) :
    isIdentifier text = false := by
  cases text with
  | nil => rfl
  | cons c text =>
      have hstart : isIdentifierStart c = false := by
        rcases Bool.or_eq_true_iff.mp h with hdigit | hsign
        · exact isIdentifierStart_of_isDigit hdigit
        · rw [of_decide_eq_true hsign]
          decide
      rw [isIdentifier, hstart, Bool.false_and]

theorem startsNumeral_decimalText (digits : Nat) (power : Int) :
    startsNumeral (Binary64.decimalText digits power) = true := by
  unfold Binary64.decimalText
  generalize Binary64.trimZeros 20 digits power = trimmed
  obtain ⟨digits, power⟩ := trimmed
  have hdigits := startsNumeral_toDigits digits
  dsimp only
  generalize Nat.toDigits 10 digits = text at hdigits ⊢
  cases text with
  | nil => cases hdigits
  | cons d text =>
      have hfirst (rest : List Char) : startsNumeral (d :: rest) = true := hdigits
      split
      · cases text <;> exact hfirst _
      · split
        · exact hfirst _
        · split
          · -- The point stands behind the first digit at the earliest.
            obtain ⟨count, hcount⟩ : ∃ count, (power + (d :: text).length - 1 + 1).toNat = count + 1 :=
              ⟨(power + (d :: text).length - 1).toNat, by omega⟩
            rw [hcount]
            exact hfirst _
          · rfl

end StartsNumeral

section Display
open Text

theorem displayInt_startsNumeral {n : Int} {text : String} (h : displayInt n = .ok text) :
    startsNumeral text.toList = true := by
  unfold displayInt at h
  dsimp only at h
  split at h
  · cases h
    rw [String.toList_append]
    split
    · rfl
    · simpa using startsNumeral_toDigits n.natAbs
  · cases h

theorem finite_toText_startsNumeral (negative : Bool) (significand : Nat) (exponent : Int) :
    startsNumeral (Binary64.finite negative significand exponent).toText.toList = true := by
  rw [Binary64.toText, String.toList_ofList]
  obtain ⟨digits, power⟩ := Binary64.shortest significand exponent
  have hdecimal := startsNumeral_decimalText digits power
  dsimp only
  generalize Binary64.decimalText digits power = decimal at hdecimal ⊢
  split
  · rfl
  · split
    · rfl
    · exact hdecimal

theorem date_toText_startsNumeral (d : Date) : startsNumeral d.toText.toList = true := by
  simp only [Date.toText, String.toList_append, List.append_assoc]
  exact startsNumeral_append (startsNumeral_padded 4 d.year) _

theorem time_toText_startsNumeral (t : TimeOfDay) : startsNumeral t.toText.toList = true := by
  unfold TimeOfDay.toText
  dsimp only
  split <;>
  · simp only [String.toList_append, List.append_assoc]
    exact startsNumeral_append (startsNumeral_padded 2 t.hour) _

theorem moment_toText_startsNumeral (m : Moment) : startsNumeral m.toText.toList = true := by
  simp only [Moment.toText, String.toList_append, List.append_assoc]
  exact startsNumeral_append (date_toText_startsNumeral m.date) _

/-- The quote after the mark of bytes continues no identifier. -/
theorem not_isIdentifier_inspectBytes (data : List UInt8) :
    isIdentifier (inspectBytes data).toList = false := by
  have hquote (text : List Char) : isIdentifierContinue (chooseQuote text) = false := by
    unfold chooseQuote
    split <;> decide
  simp [inspectBytes, isIdentifier, hquote]

end Display

/-- A scalar that stands for a name: the name itself, or a number that is not finite. -/
inductive Scalar.Names : Scalar → String → Prop
  | text (name : String) : Names (.text name) name
  | infinity : Names (.float (.infinity false)) "inf"
  | nan : Names (.float .nan) "nan"

/-- The scalars whose text is a usable name. -/
theorem display_eq_ok_iff_names {s : Scalar} {name : String} (hname : Usable name) :
    s.display = .ok name ↔ s.Names name := by
  obtain ⟨hidentifier, hreserved, _⟩ := Identifier.usable_iff.mp hname
  have hnumeral (h : Text.startsNumeral name.toList = true) : s.Names name := by
    rw [not_isIdentifier_of_startsNumeral h] at hidentifier
    cases hidentifier
  constructor
  · intro h
    cases s with
    | null =>
        obtain rfl : "None" = name := Except.ok.inj h
        exact absurd (by decide) hreserved
    | bool b =>
        obtain rfl : (if b then "True" else "False") = name := Except.ok.inj h
        cases b <;> exact absurd (by decide) hreserved
    | int n => exact hnumeral (displayInt_startsNumeral h)
    | float x =>
        obtain rfl : x.toText = name := Except.ok.inj h
        cases x with
        | finite negative significand exponent =>
            exact hnumeral (finite_toText_startsNumeral negative significand exponent)
        | infinity negative =>
            cases negative with
            | true => exact hnumeral rfl
            | false => exact .infinity
        | nan => exact .nan
    | text text =>
        obtain rfl : text = name := Except.ok.inj h
        exact .text text
    | bytes data =>
        obtain rfl : Text.inspectBytes data = name := Except.ok.inj h
        rw [not_isIdentifier_inspectBytes] at hidentifier
        cases hidentifier
    | date d =>
        obtain rfl : d.toText = name := Except.ok.inj h
        exact hnumeral (date_toText_startsNumeral d)
    | time t =>
        obtain rfl : t.toText = name := Except.ok.inj h
        exact hnumeral (time_toText_startsNumeral t)
    | moment m =>
        obtain rfl : m.toText = name := Except.ok.inj h
        exact hnumeral (moment_toText_startsNumeral m)
  · intro h
    cases h <;> rfl

end VoiceIntents
