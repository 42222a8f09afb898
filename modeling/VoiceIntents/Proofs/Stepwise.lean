import Mathlib.Data.List.Forall2

/-!
# Runs that stop at the first error

A computation in `Except` succeeds exactly when each of its steps does. These are the
inversions for one step after another, for a list of results, for a list of checks, and for a
loop that reads items one by one and compares each with those before it. `Yields` follows a
computation step by step, with one property for its results and one for its errors.
-/

namespace VoiceIntents.Stepwise

variable {ε α β γ : Type}

/-- Two steps succeed when the first does and the second does on its result. -/
theorem bind_eq_ok_iff {x : Except ε α} {f : α → Except ε β} {b : β} :
    (x >>= f) = .ok b ↔ ∃ a, x = .ok a ∧ f a = .ok b := by
  cases x with
  | error e =>
      constructor
      · intro h
        cases h
      · rintro ⟨a, h, _⟩
        cases h
  | ok a =>
      constructor
      · intro h
        exact ⟨a, rfl, h⟩
      · rintro ⟨a', h, hf⟩
        cases h
        exact hf

/-- Two steps fail when the first does, or the second on the result of the first. -/
theorem bind_eq_error_iff {x : Except ε α} {f : α → Except ε β} {e : ε} :
    (x >>= f) = .error e ↔ x = .error e ∨ ∃ a, x = .ok a ∧ f a = .error e := by
  cases x with
  | error e' =>
      constructor
      · intro h
        cases h
        exact .inl rfl
      · rintro (h | ⟨a, h, _⟩)
        · cases h
          rfl
        · cases h
  | ok a =>
      constructor
      · intro h
        exact .inr ⟨a, rfl, h⟩
      · rintro (h | ⟨a', h, hf⟩)
        · cases h
        · cases h
          exact hf

theorem map_eq_ok_iff {x : Except ε α} {f : α → β} {b : β} :
    f <$> x = .ok b ↔ ∃ a, x = .ok a ∧ b = f a := by
  cases x with
  | error e => simp [Functor.map, Except.map]
  | ok a => simp [Functor.map, Except.map, eq_comm]

theorem map_eq_error_iff {x : Except ε α} {f : α → β} {e : ε} :
    f <$> x = .error e ↔ x = .error e := by
  cases x <;> simp [Functor.map, Except.map]

theorem pure_eq_ok_iff {a b : α} : (pure a : Except ε α) = .ok b ↔ a = b := by
  change Except.ok a = .ok b ↔ a = b
  simp

theorem throw_eq_error {e : ε} : (throw e : Except ε α) = .error e := rfl

theorem error_bind {e : ε} {f : α → Except ε β} : (Except.error e >>= f) = .error e := rfl

theorem toOption_eq_some_iff {x : Except ε α} {a : α} : x.toOption = some a ↔ x = .ok a := by
  cases x <;> simp [Except.toOption]

/-- A step behind a check succeeds when the check does not stop it. -/
theorem guard_eq_ok_iff {c : Prop} [Decidable c] {e : ε} {x : Except ε α} {a : α} :
    (if c then .error e else x) = .ok a ↔ ¬c ∧ x = .ok a := by
  by_cases hc : c <;> simp [hc]

/-- A list of results is the list of the results of its items. -/
theorem mapM_eq_ok_iff {f : α → Except ε β} {items : List α} {results : List β} :
    items.mapM f = .ok results ↔
      List.Forall₂ (fun a b => f a = .ok b) items results := by
  induction items generalizing results with
  | nil =>
      rw [List.mapM_nil, pure_eq_ok_iff, List.forall₂_nil_left_iff, eq_comm]
  | cons a rest ih =>
      rw [List.mapM_cons, bind_eq_ok_iff, List.forall₂_cons_left_iff]
      constructor
      · rintro ⟨b, hb, h⟩
        obtain ⟨bs, hbs, h⟩ := bind_eq_ok_iff.mp h
        exact ⟨b, bs, hb, ih.mp hbs, (pure_eq_ok_iff.mp h).symm⟩
      · rintro ⟨b, bs, hb, hbs, rfl⟩
        exact ⟨b, hb, bind_eq_ok_iff.mpr ⟨bs, ih.mpr hbs, rfl⟩⟩

/-- A list of checks succeeds when every one of them does. -/
theorem forM_eq_ok_iff {f : α → Except ε Unit} {items : List α} :
    items.forM f = .ok () ↔ ∀ a ∈ items, f a = .ok () := by
  induction items with
  | nil => simp [pure, Except.pure]
  | cons a rest ih =>
      rw [List.forM_eq_forM] at ih ⊢
      rw [List.forM_cons, bind_eq_ok_iff, List.forall_mem_cons, ih]
      constructor
      · rintro ⟨_, ha, h⟩
        exact ⟨ha, h⟩
      · rintro ⟨ha, h⟩
        exact ⟨(), ha, h⟩

/-- A list of results fails where one of them does and all before it succeed. -/
theorem mapM_eq_error_iff {f : α → Except ε β} {items : List α} {e : ε} :
    items.mapM f = .error e ↔ ∃ before a after, items = before ++ a :: after ∧
      (∀ b ∈ before, ∃ r, f b = .ok r) ∧ f a = .error e := by
  induction items with
  | nil => simp [pure, Except.pure]
  | cons a rest ih =>
      rw [List.mapM_cons, bind_eq_error_iff]
      constructor
      · rintro (h | ⟨r, hr, h⟩)
        · exact ⟨[], a, rest, rfl, by simp, h⟩
        · rcases bind_eq_error_iff.mp h with h | ⟨rs, _, h⟩
          · obtain ⟨before, c, after, rfl, hbefore, hc⟩ := ih.mp h
            refine ⟨a :: before, c, after, rfl, ?_, hc⟩
            exact List.forall_mem_cons.mpr ⟨⟨r, hr⟩, hbefore⟩
          · cases h
      · rintro ⟨before, c, after, hitems, hbefore, hc⟩
        cases before with
        | nil =>
            obtain ⟨rfl, rfl⟩ := List.cons.inj hitems
            exact .inl hc
        | cons b before =>
            obtain ⟨rfl, rfl⟩ := List.cons.inj hitems
            obtain ⟨⟨r, hr⟩, hbefore⟩ := List.forall_mem_cons.mp hbefore
            have hrest := ih.mpr ⟨before, c, after, rfl, hbefore, hc⟩
            exact .inr ⟨r, hr, bind_eq_error_iff.mpr (.inl hrest)⟩

theorem exists_of_mapM_eq_error {f : α → Except ε β} {items : List α} {e : ε}
    (h : items.mapM f = .error e) : ∃ a ∈ items, f a = .error e := by
  obtain ⟨before, a, after, rfl, _, ha⟩ := mapM_eq_error_iff.mp h
  exact ⟨a, by simp, ha⟩

/-- A list of checks fails where one of them does. -/
theorem exists_of_forM_eq_error {f : α → Except ε Unit} {items : List α} {e : ε}
    (h : items.forM f = .error e) : ∃ a ∈ items, f a = .error e := by
  induction items with
  | nil => cases h
  | cons a rest ih =>
      rw [List.forM_eq_forM] at ih h
      rw [List.forM_cons] at h
      rcases bind_eq_error_iff.mp h with h | ⟨_, _, h⟩
      · exact ⟨a, List.mem_cons_self, h⟩
      · obtain ⟨c, hc, h⟩ := ih h
        exact ⟨c, List.mem_cons_of_mem a hc, h⟩

/-- A loop that changes a state with each item fails at one of them, in the state that the items
before it have made. -/
theorem loop_eq_error (run : β → List α → Except ε β) (step : β → α → Except ε β)
    (hnil : ∀ s, run s [] = .ok s)
    (hcons : ∀ s a rest, run s (a :: rest) = step s a >>= fun s' => run s' rest)
    {s : β} {items : List α} {e : ε} (h : run s items = .error e) :
    ∃ first a after reached, items = first ++ a :: after ∧ run s first = .ok reached ∧
      step reached a = .error e := by
  induction items generalizing s with
  | nil =>
      rw [hnil] at h
      cases h
  | cons a rest ih =>
      rw [hcons] at h
      rcases bind_eq_error_iff.mp h with h | ⟨s', hs', h⟩
      · exact ⟨[], a, rest, s, rfl, hnil s, h⟩
      · obtain ⟨first, b, after, reached, rfl, hreached, hb⟩ := ih h
        refine ⟨a :: first, b, after, reached, rfl, ?_, hb⟩
        rw [hcons, hs']
        exact hreached

theorem exists_of_forall₂ {R : α → β → Prop} {items : List α} {results : List β}
    (h : List.Forall₂ R items results) {a : α} (ha : a ∈ items) : ∃ b ∈ results, R a b := by
  induction h with
  | nil => cases ha
  | @cons c d _ _ hcd _ ih =>
      rcases List.mem_cons.mp ha with rfl | ha
      · exact ⟨d, List.mem_cons_self, hcd⟩
      · obtain ⟨b, hb, hab⟩ := ih ha
        exact ⟨b, List.mem_cons_of_mem d hb, hab⟩

/-- Results that come from items through fit values. -/
theorem forall₂_exists_iff {R : α → γ → Prop} {P : γ → Prop} {f : γ → β} {items : List α}
    {results : List β} :
    List.Forall₂ (fun a b => ∃ c, (R a c ∧ P c) ∧ b = f c) items results ↔
      ∃ values, List.Forall₂ R items values ∧ (∀ c ∈ values, P c) ∧
        results = values.map f := by
  constructor
  · intro h
    induction h with
    | nil => exact ⟨[], .nil, by simp, rfl⟩
    | cons hab _ ih =>
        obtain ⟨c, ⟨hac, hc⟩, rfl⟩ := hab
        obtain ⟨values, hvalues, hfit, rfl⟩ := ih
        exact ⟨c :: values, .cons hac hvalues, List.forall_mem_cons.mpr ⟨hc, hfit⟩, rfl⟩
  · rintro ⟨values, h, hfit, rfl⟩
    induction h with
    | nil => exact .nil
    | cons hac _ ih =>
        obtain ⟨hc, hfit⟩ := List.forall_mem_cons.mp hfit
        exact .cons ⟨_, ⟨hac, hc⟩, rfl⟩ (ih hfit)

/-- Results that are a function of their items, where every item relates to its result alone
and only if it is fit. -/
theorem forall₂_map_iff_of_mem {R : α → β → Prop} {P : α → Prop} {f : α → β} {items : List α}
    {results : List β} (h : ∀ a ∈ items, ∀ b, R a b ↔ P a ∧ b = f a) :
    List.Forall₂ R items results ↔ (∀ a ∈ items, P a) ∧ results = items.map f := by
  induction items generalizing results with
  | nil => simp
  | cons a rest ih =>
      have hrest {tail : List β} := @ih tail fun c hc => h c (List.mem_cons_of_mem a hc)
      rw [List.forall₂_cons_left_iff, List.forall_mem_cons, List.map_cons]
      constructor
      · rintro ⟨b, tail, hab, htail, rfl⟩
        obtain ⟨hfit, rfl⟩ := (h a List.mem_cons_self b).mp hab
        obtain ⟨hfits, rfl⟩ := hrest.mp htail
        exact ⟨⟨hfit, hfits⟩, rfl⟩
      · rintro ⟨⟨hfit, hfits⟩, rfl⟩
        exact ⟨f a, rest.map f, (h a List.mem_cons_self (f a)).mpr ⟨hfit, rfl⟩,
          hrest.mpr ⟨hfits, rfl⟩, rfl⟩

theorem forall₂_map_iff {P : α → Prop} {f : α → β} {items : List α} {results : List β} :
    List.Forall₂ (fun a b => P a ∧ b = f a) items results ↔
      (∀ a ∈ items, P a) ∧ results = items.map f :=
  forall₂_map_iff_of_mem fun _ _ _ => Iff.rfl

/-- Results that some items give, where every item that is fit gives one. -/
theorem forall₂_filterMap_iff {R : α → β → Prop} {P : α → Prop} {f : α → Option β}
    {items : List α} {results : List β} (h : ∀ a ∈ items, ∀ b, R a b ↔ P a ∧ f a = some b) :
    List.Forall₂ R items results ↔
      (∀ a ∈ items, P a ∧ (f a).isSome = true) ∧ results = items.filterMap f := by
  induction items generalizing results with
  | nil => simp
  | cons a rest ih =>
      have hrest {tail : List β} := @ih tail fun c hc => h c (List.mem_cons_of_mem a hc)
      have ha := h a List.mem_cons_self
      rw [List.forall₂_cons_left_iff, List.forall_mem_cons, List.filterMap_cons]
      cases hfound : f a with
      | none => simp [ha, hfound]
      | some b =>
          simp only [ha, hrest, hfound, Option.some.injEq, Option.isSome_some, and_true]
          constructor
          · rintro ⟨_, _, ⟨hfit, rfl⟩, ⟨hfits, rfl⟩, rfl⟩
            exact ⟨⟨hfit, hfits⟩, rfl⟩
          · rintro ⟨⟨hfit, hfits⟩, rfl⟩
            exact ⟨b, _, ⟨hfit, rfl⟩, ⟨hfits, rfl⟩, rfl⟩

section Collect
variable (run : List β → List α → Except ε (List β)) {step : List β → α → Except ε β}
variable {Fit : α → β → Prop} {key : β → String}

/-- A loop that adds to its results what it reads from each item succeeds when every item is
fit and no key comes twice, neither among the new results nor after an older one. -/
theorem collect_eq_ok_iff (hnil : ∀ before, run before [] = .ok before)
    (hcons : ∀ before a rest,
      run before (a :: rest) = step before a >>= fun b => run (before ++ [b]) rest)
    (hstep : ∀ before a b,
      step before a = .ok b ↔ Fit a b ∧ key b ∉ before.map key)
    {before : List β} {items : List α} {results : List β} :
    run before items = .ok results ↔
      ∃ new, List.Forall₂ Fit items new ∧ (new.map key).Nodup ∧
        (∀ b ∈ new, key b ∉ before.map key) ∧ results = before ++ new := by
  induction items generalizing before with
  | nil =>
      rw [hnil]
      constructor
      · intro h
        cases h
        exact ⟨[], .nil, List.nodup_nil, by simp, by simp⟩
      · rintro ⟨new, hnew, _, _, rfl⟩
        cases hnew
        simp
  | cons a rest ih =>
      rw [hcons, bind_eq_ok_iff]
      constructor
      · rintro ⟨b, hb, h⟩
        obtain ⟨hfit, hfresh⟩ := (hstep before a b).mp hb
        obtain ⟨new, hnew, hdistinct, hafter, rfl⟩ := ih.mp h
        have hout : ∀ c ∈ new, key c ∉ before.map key ∧ key c ≠ key b := by
          intro c hc
          simpa [not_or] using hafter c hc
        refine ⟨b :: new, .cons hfit hnew, ?_, ?_, by simp⟩
        · rw [List.map_cons, List.nodup_cons]
          refine ⟨?_, hdistinct⟩
          intro hmem
          obtain ⟨c, hc, hkey⟩ := List.mem_map.mp hmem
          exact (hout c hc).2 hkey
        · exact List.forall_mem_cons.mpr ⟨hfresh, fun c hc => (hout c hc).1⟩
      · rintro ⟨_, hnew, hdistinct, hafter, rfl⟩
        obtain ⟨b, new, hfit, hrest, rfl⟩ := List.forall₂_cons_left_iff.mp hnew
        obtain ⟨hfresh, hafter⟩ := List.forall_mem_cons.mp hafter
        rw [List.map_cons, List.nodup_cons] at hdistinct
        refine ⟨b, (hstep before a b).mpr ⟨hfit, hfresh⟩, ih.mpr ?_⟩
        refine ⟨new, hrest, hdistinct.2, ?_, by simp⟩
        intro c hc hmem
        rw [List.map_append, List.mem_append] at hmem
        rcases hmem with hmem | hmem
        · exact hafter c hc hmem
        · have hkey : key c = key b := by simpa using hmem
          exact hdistinct.1 (List.mem_map.mpr ⟨c, hc, hkey⟩)

end Collect

/-- A computation whose results have one property and whose errors have another. -/
inductive Yields (Q : α → Prop) (E : ε → Prop) : Except ε α → Prop
  | ok {a : α} (h : Q a) : Yields Q E (.ok a)
  | error {e : ε} (h : E e) : Yields Q E (.error e)

namespace Yields
variable {Q : α → Prop} {Q' : β → Prop} {E : ε → Prop}

theorem of_eq_ok {x : Except ε α} {a : α} (h : Yields Q E x) (hx : x = .ok a) : Q a := by
  subst hx
  cases h with
  | ok h => exact h

theorem of_eq_error {x : Except ε α} {e : ε} (h : Yields Q E x) (hx : x = .error e) : E e := by
  subst hx
  cases h with
  | error h => exact h

theorem bind {x : Except ε α} {f : α → Except ε β} (hx : Yields Q E x)
    (hf : ∀ a, Q a → Yields Q' E (f a)) : Yields Q' E (x >>= f) := by
  cases hx with
  | ok h => exact hf _ h
  | error h => exact .error h

theorem map {x : Except ε α} {f : α → β} (hx : Yields Q E x) (hf : ∀ a, Q a → Q' (f a)) :
    Yields Q' E (x.map f) := by
  cases hx with
  | ok h => exact .ok (hf _ h)
  | error h => exact .error h

theorem ite {p : Prop} [Decidable p] {x y : Except ε α} (hx : p → Yields Q E x)
    (hy : ¬p → Yields Q E y) : Yields Q E (if p then x else y) := by
  by_cases hp : p
  · rw [if_pos hp]
    exact hx hp
  · rw [if_neg hp]
    exact hy hp

/-- Weaker properties hold as well. -/
theorem mono {R : α → Prop} {F : ε → Prop} {x : Except ε α} (hx : Yields Q E x)
    (hQ : ∀ a, Q a → R a) (hE : ∀ e, E e → F e) : Yields R F x := by
  cases hx with
  | ok h => exact .ok (hQ _ h)
  | error h => exact .error (hE _ h)

end Yields

end VoiceIntents.Stepwise
