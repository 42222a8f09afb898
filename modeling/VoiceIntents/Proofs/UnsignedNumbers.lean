import VoiceIntents.Number.Numeral

/-!
# Numbers without a sign

A number that is neither negative nor a not-a-number stays so when another one is added, and when
it is multiplied by a finite number above zero. A text is read as a not-a-number only where it
has a letter `n`, and as a negative number only where it has a minus.
-/

namespace VoiceIntents.Binary64

/-- A number that is neither negative nor a not-a-number. -/
def isUnsigned : Binary64 → Bool
  | .finite negative _ _ => !negative
  | .infinity negative => !negative
  | .nan => false

theorem neg_ne_nan {x : Binary64} (h : x ≠ .nan) : x.neg ≠ .nan := by
  cases x with
  | finite => simp [neg]
  | infinity => simp [neg]
  | nan => exact absurd rfl h

theorem ne_nan_of_isUnsigned {x : Binary64} (h : x.isUnsigned = true) : x ≠ .nan := by
  rintro rfl
  cases h

/-- A quotient that is rounded is a number with the sign that is asked for. Its significand is the
nearest natural to the scaled quotient, or one half of it where that is too large. -/
theorem ofRatio_cases (negative : Bool) (num den : Nat) :
    ofRatio negative num den = .infinity negative ∨
      ∃ m e, ofRatio negative num den = .finite negative m e ∧
        (num ≠ 0 → den ≠ 0 → m = twoTo 52 ∨
          m = roundDiv (scale num den (fittingExponent num den)).1
            (scale num den (fittingExponent num den)).2) := by
  unfold ofRatio
  split
  · next hzero =>
      refine .inr ⟨_, _, rfl, ?_⟩
      intro hnum hden
      simp [hnum, hden] at hzero
  · dsimp only
    split
    · split
      · exact .inl rfl
      · exact .inr ⟨_, _, rfl, fun _ _ => .inl rfl⟩
    · split
      · exact .inl rfl
      · exact .inr ⟨_, _, rfl, fun _ _ => .inr rfl⟩

theorem ofRatio_ne_nan (negative : Bool) (num den : Nat) : ofRatio negative num den ≠ .nan := by
  rcases ofRatio_cases negative num den with h | ⟨m, e, h, _⟩
  · simp [h]
  · simp [h]

theorem isUnsigned_ofRatio (num den : Nat) : (ofRatio false num den).isUnsigned = true := by
  rcases ofRatio_cases false num den with h | ⟨m, e, h, _⟩
  · rw [h]
    rfl
  · rw [h]
    rfl

/-- What holds of infinity, of zero and of every quotient holds of every decimal. -/
theorem ofDecimal_induction {P : Binary64 → Prop} {negative : Bool}
    (hinfinity : P (.infinity negative)) (hzero : P (zero negative))
    (hratio : ∀ num den, P (ofRatio negative num den)) (digits : Nat) (exponent : Int) :
    P (ofDecimal negative digits exponent) := by
  unfold ofDecimal
  dsimp only
  split
  · exact hzero
  · split
    · exact hinfinity
    · split
      · exact hzero
      · cases exponent with
        | ofNat e => exact hratio _ _
        | negSucc e => exact hratio _ _

theorem ofDecimal_ne_nan (negative : Bool) (digits : Nat) (exponent : Int) :
    ofDecimal negative digits exponent ≠ .nan :=
  ofDecimal_induction (P := (· ≠ .nan)) nofun nofun (ofRatio_ne_nan negative) digits exponent

theorem isUnsigned_ofDecimal (digits : Nat) (exponent : Int) :
    (ofDecimal false digits exponent).isUnsigned = true :=
  ofDecimal_induction (P := (isUnsigned · = true)) rfl rfl isUnsigned_ofRatio digits exponent

theorem isUnsigned_add {x y : Binary64} (hx : x.isUnsigned = true) (hy : y.isUnsigned = true) :
    (x.add y).isUnsigned = true := by
  cases x with
  | nan => cases hx
  | infinity s =>
      cases y with
      | nan => cases hy
      | infinity t =>
          obtain rfl : s = false := by simpa [isUnsigned] using hx
          obtain rfl : t = false := by simpa [isUnsigned] using hy
          rfl
      | finite t n f => exact hx
  | finite s m e =>
      cases y with
      | nan => cases hy
      | infinity t => exact hy
      | finite t n f =>
          obtain rfl : s = false := by simpa [isUnsigned] using hx
          obtain rfl : t = false := by simpa [isUnsigned] using hy
          have htotal : ¬units false m e (min e f) + units false n f (min e f) < 0 := by
            simp only [units, Bool.false_eq_true, if_false]
            omega
          unfold add
          dsimp only
          split
          · rfl
          · rw [decide_eq_false htotal]
            exact isUnsigned_ofRatio _ _

/-- Only infinity times zero is no number. -/
theorem isUnsigned_mul {x : Binary64} {m : Nat} {e : Int} (hx : x.isUnsigned = true)
    (hm : m ≠ 0) : (x.mul (.finite false m e)).isUnsigned = true := by
  cases x with
  | nan => cases hx
  | infinity s =>
      obtain rfl : s = false := by simpa [isUnsigned] using hx
      simp [mul, hm, isUnsigned]
  | finite s n f =>
      obtain rfl : s = false := by simpa [isUnsigned] using hx
      exact isUnsigned_ofRatio _ _

/-- A natural above zero does not become zero when it is rounded. -/
theorem roundDiv_scale_pos {num : Nat} (h : num ≠ 0) (exponent : Int)
    (hexponent : exponent ≤ num.log2) :
    roundDiv (scale num 1 exponent).1 (scale num 1 exponent).2 ≠ 0 := by
  have hquotient (n d : Nat) : n / d ≤ roundDiv n d := by
    unfold roundDiv
    dsimp only
    split
    · exact Nat.le_refl _
    · split <;> omega
  apply Nat.ne_of_gt
  refine Nat.lt_of_lt_of_le ?_ (hquotient _ _)
  cases exponent with
  | ofNat e =>
      have hle : e ≤ num.log2 := Int.ofNat_le.mp hexponent
      simp only [scale, Nat.one_mul]
      apply Nat.div_pos
      · exact Nat.le_trans (Nat.pow_le_pow_right (by decide) hle) (Nat.log2_self_le h)
      · exact Nat.pow_pos (by decide)
  | negSucc e =>
      simp only [scale, Nat.div_one]
      exact Nat.mul_pos (Nat.pos_of_ne_zero h) (Nat.pow_pos (by decide))

/-- An integer above zero is rounded to a finite number above zero, or is too large. -/
theorem ofInt?_of_pos {n : Int} {x : Binary64} (hn : 0 < n) (h : ofInt? n = some x) :
    ∃ m e, x = .finite false m e ∧ m ≠ 0 := by
  have hne : n.natAbs ≠ 0 := by omega
  have hsign : decide (n < 0) = false := by simp; omega
  have hfit : fittingExponent n.natAbs 1 ≤ n.natAbs.log2 := by
    unfold fittingExponent leastExponent
    dsimp only
    split <;> omega
  have hpos := roundDiv_scale_pos hne _ hfit
  unfold ofInt? at h
  rw [hsign] at h
  rcases ofRatio_cases false n.natAbs 1 with hratio | ⟨m, e, hratio, hm⟩
  · rw [hratio] at h
    cases h
  · rw [hratio] at h
    refine ⟨m, e, (Option.some.inj h).symm, ?_⟩
    rcases hm hne Nat.one_ne_zero with rfl | rfl
    · decide
    · exact hpos

end VoiceIntents.Binary64

namespace VoiceIntents.Numeral

theorem trim_subset (text : List Char) : trim text ⊆ text := by
  intro c hc
  apply List.dropWhile_subset isBlank
  apply List.mem_reverse.mp
  apply List.dropWhile_subset isBlank
  exact List.mem_reverse.mp hc

theorem sign_snd_subset (text : List Char) : (sign text).2 ⊆ text := by
  unfold sign
  split
  · exact List.subset_cons_self _ _
  · exact List.subset_cons_self _ _
  · exact List.Subset.refl _

theorem minus_mem_of_sign {text : List Char} (h : (sign text).1 = true) : '-' ∈ text := by
  unfold sign at h
  split at h
  · exact List.mem_cons_self
  · cases h
  · cases h

/-- A text is read as infinity, as a not-a-number or as a decimal, with a sign that it holds. -/
theorem float?_cases {text : List Char} {x : Binary64} (h : float? text = some x) :
    ∃ negative, (negative = true → '-' ∈ text) ∧
      (x = .infinity negative ∨ (x = .nan ∧ ∃ c ∈ text, c.toLower = 'n') ∨
        ∃ digits exponent, x = .ofDecimal negative digits exponent) := by
  refine ⟨(sign (trim text)).1, fun hsign => trim_subset text (minus_mem_of_sign hsign), ?_⟩
  have hend {negative : Bool} {count digits scale : Nat} {rest : List Char}
      (h : (if count = 0 then none else do
        let exponent ← exponent? rest
        return Binary64.ofDecimal negative digits (exponent - scale)) = some x) :
      ∃ digits exponent, x = .ofDecimal negative digits exponent := by
    split at h
    · cases h
    · obtain ⟨exponent, _, hx⟩ := Option.bind_eq_some_iff.mp h
      exact ⟨_, _, (Option.some.inj hx).symm⟩
  unfold float? at h
  dsimp only at h
  split at h
  · exact .inl (Option.some.inj h).symm
  · split at h
    · next hword =>
        refine .inr (.inl ⟨(Option.some.inj h).symm, ?_⟩)
        have hn : 'n' ∈ (sign (trim text)).2.map Char.toLower := by
          rw [← String.toList_ofList (l := (sign (trim text)).2.map Char.toLower), hword]
          decide
        obtain ⟨c, hc, hlower⟩ := List.mem_map.mp hn
        exact ⟨c, trim_subset text (sign_snd_subset _ hc), hlower⟩
    · split at h
      · exact .inr (.inr (hend h))
      · exact .inr (.inr (hend h))

theorem float?_ne_nan {text : List Char} (h : ∀ c ∈ text, c.toLower ≠ 'n') :
    float? text ≠ some .nan := by
  intro hnan
  obtain ⟨negative, _, hinfinity | ⟨_, c, hc, hlower⟩ | ⟨digits, exponent, hdecimal⟩⟩ :=
    float?_cases hnan
  · cases hinfinity
  · exact h c hc hlower
  · exact Binary64.ofDecimal_ne_nan _ _ _ hdecimal.symm

theorem isUnsigned_of_float? {text : List Char} {x : Binary64}
    (h : ∀ c ∈ text, c.toLower ≠ 'n' ∧ c ≠ '-') (hx : float? text = some x) :
    x.isUnsigned = true := by
  obtain ⟨negative, hsign, hcases⟩ := float?_cases hx
  obtain rfl : negative = false := by
    rw [← Bool.not_eq_true]
    intro hnegative
    exact (h '-' (hsign hnegative)).2 rfl
  rcases hcases with rfl | ⟨_, c, hc, hlower⟩ | ⟨digits, exponent, rfl⟩
  · rfl
  · exact absurd hlower (h c hc).1
  · exact Binary64.isUnsigned_ofDecimal _ _

end VoiceIntents.Numeral
