import Mathlib.Data.List.Basic
import VoiceIntents.Proofs.Stepwise
import VoiceIntents.Yaml.Scalar

/-!
# Scalars without a value

Under the tags of truth values, numbers and timestamps not every text has a value. The texts that
have none are listed here, and each with the reason that is given for it.
-/

namespace VoiceIntents

open Stepwise

namespace Numeral

/-- The digits of a numeral: its text without blanks, sign and base mark. -/
def digitsOf (base : Nat) (text : List Char) : List Char := dropBaseMark base (sign (trim text)).2

/-- A character is a digit of a base. -/
def IsDigit (base : Nat) (c : Char) : Prop := ∃ d, digit? c = some d ∧ d < base

/-- What is wrong with the spelling of an integer in a base. -/
inductive Misspelt (base : Nat) (text : List Char) : Fault → Prop
  | noDigits (h : digitsOf base text = []) : Misspelt base text .malformed
  | noDigit {c : Char} (hc : c ∈ digitsOf base text) (h : ¬ IsDigit base c) :
      Misspelt base text .malformed
  | tooMany (hbase : base = 10) (hdigits : ∀ c ∈ digitsOf base text, IsDigit base c)
      (hlong : digitLimit < (digitsOf base text).length) : Misspelt base text .tooManyDigits

section Natural
variable {base : Nat}

/-- One more digit of a natural number. -/
def addDigit (base : Nat) (n : Option Nat) (c : Char) : Option Nat := do
  let d ← digit? c
  if d < base then return (← n) * base + d else none

theorem addDigit_none (c : Char) : addDigit base none c = none := by
  unfold addDigit
  cases digit? c with
  | none => rfl
  | some d => by_cases hd : d < base <;> simp

theorem addDigit_some {n : Nat} {c : Char} :
    addDigit base (some n) c = none ↔ ¬ IsDigit base c := by
  unfold addDigit IsDigit
  cases digit? c with
  | none => simp
  | some d => by_cases hd : d < base <;> simp [hd]

theorem foldl_addDigit_eq_none_iff {digits : List Char} {n : Nat} :
    digits.foldl (addDigit base) (some n) = none ↔ ∃ c ∈ digits, ¬ IsDigit base c := by
  have hnone (rest : List Char) : rest.foldl (addDigit base) none = none := by
    induction rest with
    | nil => rfl
    | cons c rest ih => rw [List.foldl_cons, addDigit_none, ih]
  induction digits generalizing n with
  | nil => simp
  | cons c rest ih =>
      rw [List.foldl_cons, List.exists_mem_cons_iff]
      cases hc : addDigit base (some n) c with
      | none => simp [hnone, addDigit_some.mp hc]
      | some m =>
          have hdigit : IsDigit base c := by
            by_contra hother
            simp [addDigit_some.mpr hother] at hc
          simp [ih, hdigit]

theorem natural?_eq_none_iff {digits : List Char} :
    natural? base digits = none ↔ digits = [] ∨ ∃ c ∈ digits, ¬ IsDigit base c := by
  unfold natural?
  cases digits with
  | nil => simp
  | cons c rest =>
      rw [if_neg (by simp)]
      exact foldl_addDigit_eq_none_iff.trans (by simp)

end Natural

section Integer
variable {base : Nat} {text : List Char}

theorem misspelt_malformed_iff :
    Misspelt base text .malformed ↔ natural? base (digitsOf base text) = none := by
  rw [natural?_eq_none_iff]
  constructor
  · intro h
    cases h with
    | noDigits hempty => exact .inl hempty
    | noDigit hc hdigit => exact .inr ⟨_, hc, hdigit⟩
  · rintro (hempty | ⟨c, hc, hdigit⟩)
    · exact .noDigits hempty
    · exact .noDigit hc hdigit

theorem misspelt_tooManyDigits_iff :
    Misspelt base text .tooManyDigits ↔ natural? base (digitsOf base text) ≠ none ∧ base = 10 ∧
      digitLimit < (digitsOf base text).length := by
  rw [ne_eq, natural?_eq_none_iff]
  constructor
  · intro h
    cases h with
    | tooMany hbase hdigits hlong =>
        refine ⟨?_, hbase, hlong⟩
        rintro (hempty | ⟨c, hc, hdigit⟩)
        · simp [hempty] at hlong
        · exact hdigit (hdigits c hc)
  · rintro ⟨hright, hbase, hlong⟩
    refine .tooMany hbase (fun c hc => ?_) hlong
    by_contra hdigit
    exact hright (.inr ⟨c, hc, hdigit⟩)

/-- An integer is not read if it is misspelt. -/
theorem integer_eq_error_iff {fault : Fault} :
    integer base text = .error fault ↔ Misspelt base text fault := by
  have hread : integer base text =
      (natural? base (digitsOf base text)).elim (.error .malformed) fun n =>
        if base = 10 && digitLimit < (digitsOf base text).length then .error .tooManyDigits
        else .ok (if (sign (trim text)).1 then -(n : Int) else n) := by
    unfold integer digitsOf
    obtain ⟨negative, digits⟩ := sign (trim text)
    dsimp only
    cases natural? base (dropBaseMark base digits) <;> rfl
  cases fault with
  | malformed =>
      rw [hread, misspelt_malformed_iff]
      cases natural? base (digitsOf base text) with
      | none => simp
      | some n => simp [ite_eq_iff]
  | tooManyDigits =>
      rw [hread, misspelt_tooManyDigits_iff]
      cases natural? base (digitsOf base text) with
      | none => simp
      | some n => simp

end Integer

end Numeral

namespace Yaml

open ReadScalar
open ImplicitRule (places)

/-- The reason that a misspelt numeral gives. -/
def Unreadable.ofNumeral : Numeral.Fault → Unreadable
  | .malformed => .notANumber
  | .tooManyDigits => .tooManyDigits

/-- The numerals that an integer without its sign is spelled with, each with its base. -/
def numerals : List Char → List (Nat × List Char)
  | '0' :: 'b' :: rest => [(2, rest)]
  | '0' :: 'x' :: rest => [(16, rest)]
  | '0' :: rest => [(8, '0' :: rest)]
  | body => if body.contains ':' then (places body).map (10, ·) else [(10, body)]

/-- A timestamp may end with a line feed. -/
def chomped (text : List Char) : List Char :=
  if text.getLast? = some '\n' then text.dropLast else text

/-- The factor of a place, from the last one on. -/
def placeFactor : Nat → Int
  | 0 => 1
  | n + 1 => 60 * placeFactor n

/-- The texts that have no value under a scalar tag, each with its reason. -/
inductive Tag.Refuses : Tag → List Char → Unreadable → Prop
  | truth {text : List Char}
      (h : String.ofList (text.map Char.toLower) ∉
        ["yes", "true", "on"] ++ ["no", "false", "off"]) : Refuses .bool text .unknownTruth
  | noInt {text : List Char} (h : ∀ found, signed text = some found → found.2 = []) :
      Refuses .int text .emptyNumber
  | int {text body : List Char} {negative : Bool} {before after : List (Nat × List Char)}
      {numeral : Nat × List Char} {fault : Numeral.Fault}
      (hsigned : signed text = some (negative, body)) (hbody : body ≠ [])
      (hnumerals : numerals body = before ++ numeral :: after)
      (hbefore : ∀ n ∈ before, ∀ other, ¬ Numeral.Misspelt n.1 n.2 other)
      (h : Numeral.Misspelt numeral.1 numeral.2 fault) : Refuses .int text (.ofNumeral fault)
  | noFloat {text : List Char} (h : signed (text.map Char.toLower) = none) :
      Refuses .float text .emptyNumber
  | float {text body place : List Char} {negative : Bool}
      (hsigned : signed (text.map Char.toLower) = some (negative, body))
      (hname : String.ofList body ∉ [".inf", ".nan"]) (hplace : place ∈ places body)
      (h : Numeral.float? place = none) : Refuses .float text .notANumber
  | factor {text body : List Char} {negative : Bool} {n : Nat}
      (hsigned : signed (text.map Char.toLower) = some (negative, body))
      (hname : String.ofList body ∉ [".inf", ".nan"])
      (hplaces : ∀ place ∈ places body, Numeral.float? place ≠ none)
      (hn : n < (places body).length) (h : Binary64.ofInt? (placeFactor n) = none) :
      Refuses .float text .factorTooLarge
  | notATimestamp {text : List Char} (h : Timestamp.parse? (chomped text) = none) :
      Refuses .timestamp text .notATimestamp
  | noSuchDate {text : List Char} {t : TimestampText}
      (hparse : Timestamp.parse? (chomped text) = some t) (hclock : t.clock = none)
      (h : t.date? = none) : Refuses .timestamp text .noSuchTime
  | noSuchMoment {text : List Char} {t : TimestampText} {clock : ClockText}
      (hparse : Timestamp.parse? (chomped text) = some t) (hclock : t.clock = some clock)
      (h : t.moment? clock = none) : Refuses .timestamp text .noSuchTime

section Int
variable {text body : List Char} {e : Error}

theorem numeral_eq_error_iff {α : Type} {x : Except Numeral.Fault α} :
    numeral x = .error e ↔ ∃ fault, x = .error fault ∧ e = .unreadable (.ofNumeral fault) := by
  cases x with
  | ok a => simp [numeral]
  | error fault => cases fault <;> simp [numeral, unreadable, Unreadable.ofNumeral, eq_comm]

/-- The magnitude of an integer is read from its numerals. -/
theorem magnitude_eq_error_iff_mapM (hbody : body ≠ []) :
    magnitude body = .error e ↔
      ((numerals body).mapM fun n => numeral (Numeral.integer n.1 n.2)) = .error e := by
  have hone (n : Nat × List Char) : numeral (Numeral.integer n.1 n.2) = .error e ↔
      ([n].mapM fun n => numeral (Numeral.integer n.1 n.2)) = .error e := by
    rw [List.mapM_cons, List.mapM_nil]
    cases numeral (Numeral.integer n.1 n.2) <;> simp [bind, Except.bind, pure, Except.pure]
  unfold magnitude
  split
  · exact absurd rfl hbody
  · simp [numerals, show Numeral.integer 8 ['0'] = .ok 0 from by decide, numeral]
  · exact hone (2, _)
  · exact hone (16, _)
  · next rest _ hb hx =>
      have hnumerals : numerals ('0' :: rest) = [(8, '0' :: rest)] := by
        unfold numerals
        split <;> simp_all
      rw [hnumerals]
      exact hone (8, _)
  · next hzero =>
      have hnumerals : numerals body =
          if body.contains ':' then (places body).map (10, ·) else [(10, body)] := by
        unfold numerals
        split <;> simp_all
      rw [hnumerals]
      split
      · rw [List.mapM_map]
        simp only [bind_eq_error_iff, pure, Except.pure, reduceCtorEq, and_false, exists_false,
          or_false]
        rfl
      · exact hone (10, _)

/-- The first numeral that is misspelt says why a magnitude is not read. -/
theorem magnitude_eq_error_iff (hbody : body ≠ []) :
    magnitude body = .error e ↔ ∃ before n after fault, numerals body = before ++ n :: after ∧
      (∀ m ∈ before, ∀ other, ¬ Numeral.Misspelt m.1 m.2 other) ∧
      Numeral.Misspelt n.1 n.2 fault ∧ e = .unreadable (.ofNumeral fault) := by
  have hok (m : Nat × List Char) : (∃ r, numeral (Numeral.integer m.1 m.2) = .ok r) ↔
      ∀ other, ¬ Numeral.Misspelt m.1 m.2 other := by
    simp only [← Numeral.integer_eq_error_iff]
    cases Numeral.integer m.1 m.2 with
    | ok r => simp [numeral]
    | error fault => cases fault <;> simp [numeral, unreadable]
  rw [magnitude_eq_error_iff_mapM hbody, mapM_eq_error_iff]
  simp only [hok, numeral_eq_error_iff, Numeral.integer_eq_error_iff]
  constructor
  · rintro ⟨before, n, after, hnumerals, hbefore, fault, hn, he⟩
    exact ⟨before, n, after, fault, hnumerals, hbefore, hn, he⟩
  · rintro ⟨before, n, after, fault, hnumerals, hbefore, hn, he⟩
    exact ⟨before, n, after, hnumerals, hbefore, fault, hn, he⟩

theorem int_eq_unreadable_iff {cause : Unreadable} :
    ReadScalar.int text = .error (.unreadable cause) ↔ Tag.Refuses .int text cause := by
  unfold ReadScalar.int
  cases hsigned : signed text with
  | none =>
      constructor
      · intro h
        cases h
        exact .noInt (by simp [hsigned])
      · intro h
        cases h with
        | noInt => rfl
        | int hother => simp [hsigned] at hother
  | some found =>
      obtain ⟨negative, body⟩ := found
      change (fun n => if negative then -n else n) <$> magnitude body = _ ↔ _
      rw [map_eq_error_iff]
      by_cases hbody : body = []
      · subst hbody
        constructor
        · intro h
          cases h
          exact .noInt (by simp [hsigned])
        · intro h
          cases h with
          | noInt => rfl
          | int hother hbody =>
              cases hsigned.symm.trans hother
              exact absurd rfl hbody
      · rw [magnitude_eq_error_iff hbody]
        constructor
        · rintro ⟨before, n, after, fault, hnumerals, hbefore, hn, he⟩
          cases he
          exact .int hsigned hbody hnumerals hbefore hn
        · intro h
          cases h with
          | noInt hempty => exact absurd (hempty _ hsigned) hbody
          | int hother _ hnumerals hbefore hn =>
              cases hsigned.symm.trans hother
              exact ⟨_, _, _, _, hnumerals, hbefore, hn, rfl⟩

end Int

section Float
variable {text body : List Char} {e : Error}

theorem float64_eq_error_iff : float64 text = .error e ↔
    Numeral.float? text = none ∧ e = .unreadable .notANumber := by
  unfold float64
  cases Numeral.float? text <;> simp [unreadable, eq_comm]

theorem addPlaces_eq_error_iff {total : Binary64} {base : Int} {digits : List Binary64} :
    addPlaces total base digits = .error e ↔
      e = .unreadable .factorTooLarge ∧
        ∃ n < digits.length, Binary64.ofInt? (base * placeFactor n) = none := by
  induction digits generalizing total base with
  | nil => simp [addPlaces]
  | cons digit rest ih =>
      rw [addPlaces, List.length_cons]
      cases hbase : Binary64.ofInt? base with
      | none =>
          have hfirst : ∃ n < rest.length + 1, Binary64.ofInt? (base * placeFactor n) = none :=
            ⟨0, by omega, by simpa [placeFactor] using hbase⟩
          rw [and_iff_left hfirst, eq_comm]
          simp [unreadable]
      | some factor =>
          rw [ih]
          apply and_congr_right
          intro _
          constructor
          · rintro ⟨n, hn, h⟩
            exact ⟨n + 1, by omega, by rwa [placeFactor, ← Int.mul_assoc]⟩
          · rintro ⟨n, hn, h⟩
            cases n with
            | zero => simp [placeFactor, hbase] at h
            | succ n => exact ⟨n, by omega, by rwa [Int.mul_assoc]⟩

/-- A float is read place by place. -/
def readPlaces (body : List Char) : Except Error Binary64 := do
  addPlaces (.zero false) 1 (← (places body).mapM float64).reverse

theorem readPlaces_eq_error_iff : readPlaces body = .error e ↔
    ((∃ place ∈ places body, Numeral.float? place = none) ∧ e = .unreadable .notANumber) ∨
    (∀ place ∈ places body, Numeral.float? place ≠ none) ∧
      (∃ n < (places body).length, Binary64.ofInt? (placeFactor n) = none) ∧
      e = .unreadable .factorTooLarge := by
  unfold readPlaces
  cases hdigits : (places body).mapM float64 with
  | error e' =>
      obtain ⟨place, hplace, herror⟩ := exists_of_mapM_eq_error hdigits
      obtain ⟨hnone, rfl⟩ := float64_eq_error_iff.mp herror
      have hsome : ∃ place ∈ places body, Numeral.float? place = none := ⟨place, hplace, hnone⟩
      have hnot : ¬ ∀ place ∈ places body, Numeral.float? place ≠ none := by
        simpa using hsome
      simp only [hsome, hnot, true_and, false_and, or_false, error_bind, Except.error.injEq]
      exact eq_comm
  | ok digits =>
      have hread := mapM_eq_ok_iff.mp hdigits
      have hall : ∀ place ∈ places body, Numeral.float? place ≠ none := by
        intro place hplace hnone
        obtain ⟨x, _, hx⟩ := exists_of_forall₂ hread hplace
        rw [float64_eq_error_iff.mpr ⟨hnone, rfl⟩] at hx
        cases hx
      have hnot : ¬ ∃ place ∈ places body, Numeral.float? place = none := by
        simpa using hall
      rw [and_iff_right hall]
      simp only [hnot, false_and, false_or]
      change addPlaces _ _ _ = _ ↔ _
      rw [addPlaces_eq_error_iff, List.length_reverse, ← hread.length_eq, and_comm]
      simp

/-- A float that is no name is read from its places; without a colon there is one. -/
theorem float_eq_error_iff {negative : Bool}
    (hsigned : signed (text.map Char.toLower) = some (negative, body))
    (hname : String.ofList body ∉ [".inf", ".nan"]) :
    ReadScalar.float text = .error e ↔ readPlaces body = .error e := by
  simp only [List.mem_cons, List.not_mem_nil, or_false, not_or] at hname
  unfold ReadScalar.float readPlaces
  rw [hsigned]
  simp only [hname, if_false]
  split
  · cases (places body).mapM float64 with
    | error e' => rfl
    | ok digits =>
        change (addPlaces _ _ _ >>= _) = _ ↔ addPlaces _ _ _ = _
        simp [bind_eq_error_iff, pure, Except.pure]
  · next hcolon =>
      have hplaces : places body = [body] := List.splitOn_eq_singleton (by simpa using hcolon)
      rw [hplaces, List.mapM_cons, List.mapM_nil]
      cases float64 body with
      | error e' => rfl
      | ok x =>
          have hone : Binary64.ofInt? 1 ≠ none := by decide
          obtain ⟨factor, hfactor⟩ := Option.ne_none_iff_exists'.mp hone
          simp [bind, Except.bind, pure, Except.pure, addPlaces, hfactor]

theorem float_ne_error_of_name {negative : Bool}
    (hsigned : signed (text.map Char.toLower) = some (negative, body))
    (hname : String.ofList body ∈ [".inf", ".nan"]) : ReadScalar.float text ≠ .error e := by
  simp only [List.mem_cons, List.not_mem_nil, or_false] at hname
  unfold ReadScalar.float
  rw [hsigned]
  rcases hname with hname | hname <;> simp [hname, pure, Except.pure]

theorem float_eq_unreadable_iff {cause : Unreadable} :
    ReadScalar.float text = .error (.unreadable cause) ↔ Tag.Refuses .float text cause := by
  cases hsigned : signed (text.map Char.toLower) with
  | none =>
      have hread : ReadScalar.float text = .error (.unreadable .emptyNumber) := by
        unfold ReadScalar.float
        rw [hsigned]
        rfl
      rw [hread]
      constructor
      · intro h
        cases h
        exact .noFloat hsigned
      · intro h
        cases h with
        | noFloat => rfl
        | float hother => simp [hsigned] at hother
        | factor hother => simp [hsigned] at hother
  | some found =>
      obtain ⟨negative, body⟩ := found
      by_cases hname : String.ofList body ∈ [".inf", ".nan"]
      · constructor
        · intro h
          exact absurd h (float_ne_error_of_name hsigned hname)
        · intro h
          cases h with
          | noFloat hempty => simp [hsigned] at hempty
          | float hother hnot =>
              cases hsigned.symm.trans hother
              exact absurd hname hnot
          | factor hother hnot =>
              cases hsigned.symm.trans hother
              exact absurd hname hnot
      · rw [float_eq_error_iff hsigned hname, readPlaces_eq_error_iff]
        constructor
        · rintro (⟨⟨place, hplace, hnone⟩, h⟩ | ⟨hplaces, ⟨n, hn, hnone⟩, h⟩)
          · cases h
            exact .float hsigned hname hplace hnone
          · cases h
            exact .factor hsigned hname hplaces hn hnone
        · intro h
          cases h with
          | noFloat hempty => simp [hsigned] at hempty
          | float hother _ hplace hnone =>
              cases hsigned.symm.trans hother
              exact .inl ⟨⟨_, hplace, hnone⟩, rfl⟩
          | factor hother _ hplaces hn hnone =>
              cases hsigned.symm.trans hother
              exact .inr ⟨hplaces, ⟨_, hn, hnone⟩, rfl⟩

end Float

theorem bool_eq_unreadable_iff {text : List Char} {cause : Unreadable} :
    ReadScalar.bool text = .error (.unreadable cause) ↔ Tag.Refuses .bool text cause := by
  unfold ReadScalar.bool
  simp only [List.contains_eq_mem, decide_eq_true_eq]
  constructor
  · intro h
    split_ifs at h with htrue hfalse
    cases h
    exact .truth (List.not_mem_append htrue hfalse)
  · intro h
    cases h with
    | truth h =>
        rw [List.mem_append, not_or] at h
        rw [if_neg h.1, if_neg h.2]
        rfl

theorem timestamp_eq_unreadable_iff {text : List Char} {cause : Unreadable} :
    ReadScalar.timestamp text = .error (.unreadable cause) ↔ Tag.Refuses .timestamp text cause := by
  have hchomped :
      (if text.getLast? = some '\n' then text.dropLast else text) = chomped text := rfl
  unfold ReadScalar.timestamp
  dsimp only
  rw [hchomped]
  constructor
  · intro h
    cases hparse : Timestamp.parse? (chomped text) with
    | none =>
        rw [hparse] at h
        cases h
        exact .notATimestamp hparse
    | some t =>
        simp only [hparse] at h
        cases hclock : t.clock with
        | none =>
            cases hdate : t.date? with
            | none =>
                simp only [hclock, hdate] at h
                cases h
                exact .noSuchDate hparse hclock hdate
            | some date => simp [hclock, hdate] at h
        | some clock =>
            cases hmoment : t.moment? clock with
            | none =>
                simp only [hclock, hmoment] at h
                cases h
                exact .noSuchMoment hparse hclock hmoment
            | some moment => simp [hclock, hmoment] at h
  · intro h
    cases h with
    | notATimestamp hparse => simp [hparse, unreadable]
    | noSuchDate hparse hclock hdate => simp [hparse, hclock, hdate, unreadable]
    | noSuchMoment hparse hclock hmoment => simp [hparse, hclock, hmoment, unreadable]

/-- The texts without a value are those that their tag refuses. -/
theorem readScalar_eq_unreadable_iff {tag : Tag} {mark : Mark} {text : String}
    {cause : Unreadable} :
    readScalar tag mark text = .error (.unreadable cause) ↔ tag.Refuses text.toList cause := by
  have hmap {α : Type} (x : Except Error α) (f : α → Scalar) (e : Error) :
      x.map f = .error e ↔ x = .error e := map_eq_error_iff
  unfold readScalar
  cases tag with
  | bool => exact (hmap _ _ _).trans bool_eq_unreadable_iff
  | int => exact (hmap _ _ _).trans int_eq_unreadable_iff
  | float => exact (hmap _ _ _).trans float_eq_unreadable_iff
  | timestamp => exact timestamp_eq_unreadable_iff
  | binary =>
      constructor
      · intro h
        have hbinary := (hmap _ _ _).mp h
        unfold ReadScalar.binary at hbinary
        split at hbinary <;> cases hbinary
      · intro h
        cases h
  | _ =>
      constructor
      · intro h
        cases h
      · intro h
        cases h

end Yaml

end VoiceIntents
