import Mathlib.Algebra.Group.Nat.Defs
import VoiceIntents.Proofs.Stepwise
import VoiceIntents.Proofs.UnsignedNumbers
import VoiceIntents.Yaml.Scalar

/-!
# Bare scalars

What the texts look like that the rules take for numbers. A float is spelled with digits, in tens
or in places of base sixty, or is one of the named floats. Reading digits and adding up places
never gives a not-a-number, so only its name does. An integer in base sixteen has a value however
many digits it has.
-/

namespace VoiceIntents.Yaml

open ImplicitRule

/-- A text that is one of some words. -/
theorem exists_of_contains_ofList {words : List String} {text : List Char}
    (h : words.contains (String.ofList text) = true) : ∃ word ∈ words, text = word.toList := by
  refine ⟨String.ofList text, List.contains_iff_mem.mp h, ?_⟩
  rw [String.toList_ofList]

/-- A rule holds for what it applies to, or for all of it but a last line feed. -/
theorem holds_of_applies {rule : ImplicitRule} {text : List Char} (h : rule.applies text = true) :
    rule.holds text = true ∨ ∃ init, text = init ++ ['\n'] ∧ rule.holds init = true := by
  rw [applies, Bool.and_eq_true, Bool.or_eq_true, Bool.and_eq_true] at h
  rcases h.2 with hholds | ⟨hlast, hholds⟩
  · exact .inl hholds
  · refine .inr ⟨text.dropLast, ?_, hholds⟩
    rw [List.dropLast_append_getLast? _ (of_decide_eq_true hlast)]

/-- The names of floats. -/
def floatNames : List (List Char) :=
  [".inf", ".Inf", ".INF", "+.inf", "+.Inf", "+.INF", "-.inf", "-.Inf", "-.INF", ".nan", ".NaN",
    ".NAN"].map String.toList

/-- The characters of floats in tens. -/
def isDecimalChar (c : Char) : Bool := c.isDigit || ['_', '.', 'e', 'E', '+', '-', '\n'].contains c

/-- The characters of places in base sixty. -/
def isPlaceChar (c : Char) : Bool := c.isDigit || ['_', '.', ':', '\n'].contains c

section Chars
variable {c : Char} {text : List Char}

theorem toLower_of_isDigit (h : c.isDigit = true) : c.toLower = c := by
  have hle : c.val ≤ 57 := by
    simp only [Char.isDigit, Bool.and_eq_true, decide_eq_true_eq] at h
    exact h.2
  unfold Char.toLower
  rw [dif_neg]
  rintro ⟨hlower, _⟩
  exact absurd (UInt32.le_trans hlower hle) (by decide)

theorem isDecimalChar_toLower (h : isDecimalChar c = true) : isDecimalChar c.toLower = true := by
  rcases Bool.or_eq_true_iff.mp h with hdigit | hother
  · rw [toLower_of_isDigit hdigit]
    exact h
  · have hall : ['_', '.', 'e', 'E', '+', '-', '\n'].all (isDecimalChar ·.toLower) = true := by
      decide
    exact List.all_eq_true.mp hall c (List.contains_iff_mem.mp hother)

theorem toLower_ne_n_of_isDecimalChar (h : isDecimalChar c = true) : c.toLower ≠ 'n' := by
  intro hn
  have hlower := isDecimalChar_toLower h
  rw [hn] at hlower
  exact absurd hlower (by decide)

theorem toLower_of_isPlaceChar (h : isPlaceChar c = true) : c.toLower = c := by
  rcases Bool.or_eq_true_iff.mp h with hdigit | hother
  · exact toLower_of_isDigit hdigit
  · have hall : ['_', '.', ':', '\n'].all (fun c => c.toLower = c) = true := by decide
    simpa using List.all_eq_true.mp hall c (List.contains_iff_mem.mp hother)

theorem isDecimalChar_of_digit (h : (c.isDigit || c = '_') = true) : isDecimalChar c = true := by
  rcases Bool.or_eq_true_iff.mp h with hdigit | hother
  · simp [isDecimalChar, hdigit]
  · rw [of_decide_eq_true hother]
    decide

theorem isPlaceChar_of_digit (h : (c.isDigit || c = '_') = true) : isPlaceChar c = true := by
  rcases Bool.or_eq_true_iff.mp h with hdigit | hother
  · simp [isPlaceChar, hdigit]
  · rw [of_decide_eq_true hother]
    decide

theorem digit_of_isCount (h : isCount Char.isDigit text = true) :
    ∀ c ∈ text, (c.isDigit || c = '_') = true := by
  cases text with
  | nil => simp
  | cons first rest =>
      obtain ⟨hfirst, hrest⟩ := Bool.and_eq_true_iff.mp h
      refine List.forall_mem_cons.mpr ⟨?_, List.all_eq_true.mp hrest⟩
      rw [hfirst]
      rfl

theorem isDecimalChar_of_isExponent (h : isExponent text = true) :
    ∀ c ∈ text, isDecimalChar c = true := by
  unfold isExponent at h
  split at h
  · simp
  · next e s rest =>
      simp only [Bool.and_eq_true, Bool.or_eq_true, decide_eq_true_eq] at h
      obtain ⟨⟨⟨he, hs⟩, _⟩, hrest⟩ := h
      refine List.forall_mem_cons.mpr ⟨?_, List.forall_mem_cons.mpr ⟨?_, ?_⟩⟩
      · rcases he with rfl | rfl <;> decide
      · rcases hs with rfl | rfl <;> decide
      · intro c hc
        have hdigit : c.isDigit = true := List.all_eq_true.mp hrest c hc
        simp [isDecimalChar, hdigit]
  · cases h

theorem isDecimalChar_of_isFraction (h : isFraction text = true) :
    ∀ c ∈ text, isDecimalChar c = true := by
  intro c hc
  rw [← List.takeWhile_append_dropWhile (p := fun c => c.isDigit || c = '_') (l := text)] at hc
  rcases List.mem_append.mp hc with hdigit | hexponent
  · exact isDecimalChar_of_digit (List.all_eq_true.mp List.all_takeWhile c hdigit)
  · exact isDecimalChar_of_isExponent h c hexponent

/-- A text splits at its first point. -/
theorem eq_takeWhile_append_point {rest : List Char} (h : text.dropWhile (· ≠ '.') = '.' :: rest) :
    text = text.takeWhile (· ≠ '.') ++ '.' :: rest := by
  rw [← h, List.takeWhile_append_dropWhile]

/-- A text is its unsigned part, after a sign if it has one. -/
theorem unsigned_cases (text : List Char) : text = unsigned text ∨
    text = '+' :: unsigned text ∨ text = '-' :: unsigned text := by
  cases text with
  | nil => exact .inl rfl
  | cons first rest =>
      dsimp only [unsigned]
      split
      · next hsign =>
          simp only [Bool.or_eq_true, decide_eq_true_eq] at hsign
          rcases hsign with rfl | rfl
          · exact .inr (.inl rfl)
          · exact .inr (.inr rfl)
      · exact .inl rfl

theorem forall_mem_of_unsigned {P : Char → Prop} (hplus : P '+') (hminus : P '-')
    (h : ∀ c ∈ unsigned text, P c) : ∀ c ∈ text, P c := by
  rcases unsigned_cases text with heq | heq | heq
  · rw [heq]
    exact h
  · rw [heq]
    exact List.forall_mem_cons.mpr ⟨hplus, h⟩
  · rw [heq]
    exact List.forall_mem_cons.mpr ⟨hminus, h⟩

theorem unsigned_subset (text : List Char) : unsigned text ⊆ text := by
  intro c hc
  rcases unsigned_cases text with heq | heq | heq
  · exact heq ▸ hc
  · exact heq ▸ List.mem_cons_of_mem _ hc
  · exact heq ▸ List.mem_cons_of_mem _ hc

theorem unsigned_filter_subset (p : Char → Bool) (text : List Char) :
    unsigned (text.filter p) ⊆ unsigned text := by
  have hcons (c : Char) (rest : List Char) :
      unsigned (c :: rest) = if c = '+' || c = '-' then rest else c :: rest := rfl
  cases text with
  | nil => exact List.Subset.refl _
  | cons first rest =>
      by_cases hsign : (first = '+' || first = '-') = true
      · rw [hcons first rest, if_pos hsign, List.filter_cons]
        split
        · rw [hcons, if_pos hsign]
          exact List.filter_sublist.subset
        · exact List.Subset.trans (unsigned_subset _) List.filter_sublist.subset
      · rw [hcons first rest, if_neg hsign]
        exact List.Subset.trans (unsigned_subset _) List.filter_sublist.subset

/-- The characters of a text are those of its places and the colons between them. -/
theorem mem_iff_mem_places : c ∈ text ↔
    (c = ':' ∧ 2 ≤ (places text).length) ∨ ∃ place ∈ places text, c ∈ place := by
  have hjoin (lists : List (List Char)) : c ∈ [':'].intercalate lists ↔
      (c = ':' ∧ 2 ≤ lists.length) ∨ ∃ place ∈ lists, c ∈ place := by
    induction lists with
    | nil => simp
    | cons first rest ih =>
        cases rest with
        | nil => simp
        | cons second rest =>
            have htwo : 2 ≤ (first :: second :: rest).length := by
              rw [List.length_cons, List.length_cons]
              omega
            rw [List.intercalate_cons_cons, List.mem_append, List.mem_append, ih,
              List.mem_singleton, and_iff_left htwo]
            simp only [List.mem_cons, exists_eq_or_imp]
            grind
  rw [← hjoin, places, List.intercalate_splitOn]

theorem isPlaceChar_of_isSixtieth {place : List Char} (h : isSixtieth place = true) :
    ∀ c ∈ place, isPlaceChar c = true := by
  unfold isSixtieth at h
  split at h
  · next c => simpa [isPlaceChar] using .inl h
  · next b c =>
      simp only [Bool.and_eq_true, decide_eq_true_eq] at h
      obtain ⟨⟨hlow, hhigh⟩, hlast⟩ := h
      have hfirst : b.isDigit = true := by
        simp only [Char.isDigit, Bool.and_eq_true, decide_eq_true_eq]
        exact ⟨hlow, UInt32.le_trans hhigh (by decide)⟩
      simp [isPlaceChar, hfirst, hlast]
  · cases h

theorem isPlaceChar_of_isSexagesimal (h : isSexagesimal text = true) :
    ∀ c ∈ text, isPlaceChar c = true := by
  unfold isSexagesimal at h
  dsimp only at h
  split at h
  · next first second rest fraction hplaces hpoint =>
      simp only [Bool.and_eq_true] at h
      obtain ⟨⟨hfirst, hrest⟩, hfraction⟩ := h
      rw [eq_takeWhile_append_point hpoint]
      refine List.forall_mem_append.mpr ⟨?_, List.forall_mem_cons.mpr ⟨by decide, ?_⟩⟩
      · intro c hc
        rcases mem_iff_mem_places.mp hc with ⟨rfl, _⟩ | ⟨place, hplace, hc⟩
        · decide
        · rw [hplaces] at hplace
          rcases List.mem_cons.mp hplace with rfl | hplace
          · exact isPlaceChar_of_digit (digit_of_isCount hfirst c hc)
          · exact isPlaceChar_of_isSixtieth (List.all_eq_true.mp hrest place hplace) c hc
      · intro c hc
        exact isPlaceChar_of_digit (List.all_eq_true.mp hfraction c hc)
  · cases h

/-- A float has a name, or is written in tens, or in places after its sign. -/
theorem isFloat_cases (h : isFloat text = true) :
    text ∈ floatNames ∨ (∀ c ∈ text, isDecimalChar c = true) ∨
      ∀ c ∈ unsigned text, isPlaceChar c = true := by
  unfold isFloat at h
  simp only [Bool.or_eq_true] at h
  rcases h with (((hpointed | hbare) | hsexagesimal) | hinfinity) | hnan
  · split at hpointed
    · next rest hpoint =>
        obtain ⟨hwhole, hrest⟩ := Bool.and_eq_true_iff.mp hpointed
        refine .inr (.inl (forall_mem_of_unsigned (by decide) (by decide) ?_))
        rw [eq_takeWhile_append_point hpoint]
        refine List.forall_mem_append.mpr ⟨?_, List.forall_mem_cons.mpr ⟨by decide, ?_⟩⟩
        · exact fun c hc => isDecimalChar_of_digit (digit_of_isCount hwhole c hc)
        · exact isDecimalChar_of_isFraction hrest
    · cases hpointed
  · split at hbare
    · next c rest =>
        obtain ⟨hdigit, hrest⟩ := Bool.and_eq_true_iff.mp hbare
        refine .inr (.inl (List.forall_mem_cons.mpr ⟨by decide, List.forall_mem_cons.mpr ⟨?_, ?_⟩⟩))
        · simp [isDecimalChar, hdigit]
        · exact isDecimalChar_of_isFraction hrest
    · cases hbare
  · exact .inr (.inr (isPlaceChar_of_isSexagesimal hsexagesimal))
  · obtain ⟨word, hword, hbody⟩ := exists_of_contains_ofList hinfinity
    have hnames : [".inf", ".Inf", ".INF"].all (fun word => word.toList ∈ floatNames &&
        '+' :: word.toList ∈ floatNames && '-' :: word.toList ∈ floatNames) = true := by
      decide
    have hname := List.all_eq_true.mp hnames word hword
    simp only [Bool.and_eq_true, decide_eq_true_eq, ← hbody] at hname
    obtain ⟨⟨hplain, hplus⟩, hminus⟩ := hname
    left
    rcases unsigned_cases text with heq | heq | heq
    · exact heq ▸ hplain
    · exact heq ▸ hplus
    · exact heq ▸ hminus
  · obtain ⟨word, hword, rfl⟩ := exists_of_contains_ofList hnan
    have hnames : [".nan", ".NaN", ".NAN"].all (fun word => word.toList ∈ floatNames) = true := by
      decide
    exact .inl (of_decide_eq_true (List.all_eq_true.mp hnames word hword))

theorem unsigned_append_feed (init : List Char) :
    unsigned (init ++ ['\n']) = unsigned init ++ ['\n'] := by
  cases init with
  | nil => rfl
  | cons first rest =>
      dsimp only [List.cons_append, unsigned]
      split <;> rfl

/-- The texts that the rule for floats takes. -/
theorem applies_float_cases {rule : ImplicitRule} (hrule : rule.holds = isFloat)
    (h : rule.applies text = true) :
    (∃ name ∈ floatNames, text = name ∨ text = name ++ ['\n']) ∨
      (∀ c ∈ text, isDecimalChar c = true) ∨ ∀ c ∈ unsigned text, isPlaceChar c = true := by
  have hholds := holds_of_applies h
  rw [hrule] at hholds
  rcases hholds with hfloat | ⟨init, rfl, hfloat⟩
  · exact (isFloat_cases hfloat).imp_left fun hname => ⟨text, hname, .inl rfl⟩
  · rcases isFloat_cases hfloat with hname | hdecimal | hplaces
    · exact .inl ⟨init, hname, .inr rfl⟩
    · exact .inr (.inl (List.forall_mem_append.mpr ⟨hdecimal, by simp [isDecimalChar]⟩))
    · rw [unsigned_append_feed]
      exact .inr (.inr (List.forall_mem_append.mpr ⟨hplaces, by simp [isPlaceChar]⟩))

end Chars

namespace ReadScalar
variable {text body : List Char} {negative : Bool}

theorem signed_eq_some (h : signed text = some (negative, body)) :
    body = unsigned (text.filter (· ≠ '_')) := by
  unfold signed at h
  split at h
  · cases h
  · next c rest hfilter =>
      rw [hfilter, unsigned, Bool.or_comm]
      exact (Prod.mk.inj (Option.some.inj h)).2.symm

/-- Places that are not negative add up to a number that is not. -/
theorem isUnsigned_addPlaces {total x : Binary64} {base : Int} {digits : List Binary64}
    (htotal : total.isUnsigned = true) (hbase : 0 < base)
    (hdigits : ∀ digit ∈ digits, digit.isUnsigned = true)
    (h : addPlaces total base digits = .ok x) : x.isUnsigned = true := by
  induction digits generalizing total base with
  | nil =>
      rw [← Except.ok.inj h]
      exact htotal
  | cons digit rest ih =>
      obtain ⟨hdigit, hrest⟩ := List.forall_mem_cons.mp hdigits
      unfold addPlaces at h
      split at h
      · cases h
      · next factor hfactor =>
          obtain ⟨m, e, rfl, hm⟩ := Binary64.ofInt?_of_pos hbase hfactor
          have hproduct := Binary64.isUnsigned_mul (e := e) hdigit hm
          exact ih (Binary64.isUnsigned_add htotal hproduct) (by omega) hrest h

theorem float?_of_float64 {x : Binary64} (h : float64 text = .ok x) :
    Numeral.float? text = some x := by
  unfold float64 at h
  split at h
  · next hread =>
      rw [hread, Except.ok.inj h]
  · cases h

/-- A not-a-number has its name, or is read from digits, or comes from adding up places. -/
theorem float_eq_nan (hsigned : signed (text.map Char.toLower) = some (negative, body))
    (h : float text = .ok .nan) : String.ofList body = ".nan" ∨ float64 body = .ok .nan ∨
      ':' ∈ body ∧ ∃ digits, (places body).mapM float64 = .ok digits ∧
        addPlaces (.zero false) 1 digits.reverse = .ok .nan := by
  have hturn {x : Binary64} (h : (if negative then x.neg else x) = .nan) : x = .nan := by
    by_contra hne
    split at h
    · exact Binary64.neg_ne_nan hne h
    · exact hne h
  unfold float at h
  rw [hsigned] at h
  dsimp only at h
  split at h
  · exact absurd (hturn (Except.ok.inj h)) nofun
  · split at h
    · next hnan => exact .inl hnan
    · split at h
      · next hcolon =>
          obtain ⟨digits, hdigits, h⟩ := Stepwise.bind_eq_ok_iff.mp h
          obtain ⟨x, hx, h⟩ := Stepwise.bind_eq_ok_iff.mp h
          rw [hturn (Except.ok.inj h)] at hx
          exact .inr (.inr ⟨List.contains_iff_mem.mp hcolon, digits, hdigits, hx⟩)
      · obtain ⟨x, hx, h⟩ := Stepwise.bind_eq_ok_iff.mp h
        rw [hturn (Except.ok.inj h)] at hx
        exact .inr (.inl hx)

theorem float64_ne_nan (h : ∀ c ∈ text, c.toLower ≠ 'n') : float64 text ≠ .ok .nan :=
  fun hnan => Numeral.float?_ne_nan h (float?_of_float64 hnan)

/-- Digits in tens give a not-a-number by name only. -/
theorem isNan_of_decimal (h : ∀ c ∈ text, isDecimalChar c = true)
    (hsigned : signed (text.map Char.toLower) = some (negative, body))
    (hnan : float text = .ok .nan) : String.ofList body = ".nan" := by
  have hbody : ∀ c ∈ body, isDecimalChar c = true := by
    intro c hc
    rw [signed_eq_some hsigned] at hc
    obtain ⟨d, hd, rfl⟩ := List.mem_map.mp (List.mem_of_mem_filter (unsigned_subset _ hc))
    exact isDecimalChar_toLower (h d hd)
  rcases float_eq_nan hsigned hnan with hname | hdigits | ⟨hcolon, _⟩
  · exact hname
  · exact absurd hdigits (float64_ne_nan fun c hc => toLower_ne_n_of_isDecimalChar (hbody c hc))
  · exact absurd (hbody ':' hcolon) (by decide)

/-- Places in base sixty give a not-a-number by name only. -/
theorem isNan_of_places (h : ∀ c ∈ unsigned text, isPlaceChar c = true)
    (hsigned : signed (text.map Char.toLower) = some (negative, body))
    (hnan : float text = .ok .nan) : String.ofList body = ".nan" := by
  have hlower : text.map Char.toLower = text := by
    refine (List.map_congr_left ?_).trans (List.map_id text)
    refine forall_mem_of_unsigned (by decide) (by decide) ?_
    exact fun c hc => toLower_of_isPlaceChar (h c hc)
  have hbody : ∀ c ∈ body, isPlaceChar c = true := by
    rw [signed_eq_some hsigned, hlower]
    exact fun c hc => h c (unsigned_filter_subset _ text hc)
  have hchar {c : Char} (hc : isPlaceChar c = true) : c.toLower ≠ 'n' ∧ c ≠ '-' := by
    rw [toLower_of_isPlaceChar hc]
    constructor
    · rintro rfl
      exact absurd hc (by decide)
    · rintro rfl
      exact absurd hc (by decide)
  rcases float_eq_nan hsigned hnan with hname | hdigits | ⟨_, digits, hdigits, hsum⟩
  · exact hname
  · exact absurd hdigits (float64_ne_nan fun c hc => (hchar (hbody c hc)).1)
  · have hplaces : ∀ digit ∈ digits.reverse, digit.isUnsigned = true := by
      intro digit hdigit
      obtain ⟨place, hplace, hread⟩ := Stepwise.exists_of_forall₂
        (Stepwise.mapM_eq_ok_iff.mp hdigits).flip (List.mem_reverse.mp hdigit)
      refine Numeral.isUnsigned_of_float? ?_ (float?_of_float64 hread)
      intro c hc
      exact hchar (hbody c (mem_iff_mem_places.mpr (.inr ⟨place, hplace, hc⟩)))
    exact absurd rfl (Binary64.ne_nan_of_isUnsigned
      (isUnsigned_addPlaces rfl (by decide) hplaces hsum))

/-- A named float that is a not-a-number has its name. -/
theorem isNan_of_mem_floatNames {name : List Char} (hname : name ∈ floatNames)
    (htext : text = name ∨ text = name ++ ['\n']) (hnan : float text = .ok .nan) :
    isNan text = true := by
  have hall : floatNames.all (fun name => [name, name ++ ['\n']].all fun text =>
      isNan text || (float text).toOption ≠ some .nan) = true := by
    decide +kernel
  have hforms :=
    List.all_eq_true.mp (List.all_eq_true.mp hall name hname) text (by simpa using htext)
  simpa [Stepwise.toOption_eq_some_iff.mpr hnan] using hforms

/-- A bare scalar is a not-a-number by name only. -/
theorem isNan_of_float {rule : ImplicitRule} (hrule : rule.holds = isFloat)
    (happlies : rule.applies text = true) (hnan : float text = .ok .nan) : isNan text = true := by
  cases hsigned : signed (text.map Char.toLower) with
  | none =>
      unfold float at hnan
      rw [hsigned] at hnan
      cases hnan
  | some parts =>
      have hbody (h : String.ofList parts.2 = ".nan") : isNan text = true := by
        rw [isNan, hsigned]
        exact decide_eq_true h
      rcases applies_float_cases hrule happlies with ⟨name, hname, htext⟩ | hdecimal | hplaces
      · exact isNan_of_mem_floatNames hname htext hnan
      · exact hbody (isNan_of_decimal hdecimal hsigned hnan)
      · exact hbody (isNan_of_places hplaces hsigned hnan)

end ReadScalar

/-- The tag that a scalar is read under. -/
def tagOf : Scalar → Tag
  | .null => .null
  | .bool _ => .bool
  | .int _ => .int
  | .float _ => .float
  | .text _ => .str
  | .bytes _ => .binary
  | .date _ | .time _ | .moment _ => .timestamp

theorem tagOf_timestamp {text : List Char} {s : Scalar} (h : ReadScalar.timestamp text = .ok s) :
    tagOf s = .timestamp := by
  unfold ReadScalar.timestamp at h
  dsimp only at h
  split at h
  · cases h
  · split at h
    · cases h
    · next t _ s hread =>
        obtain rfl := Except.ok.inj h
        split at hread
        · obtain ⟨_, _, rfl⟩ := Option.map_eq_some_iff.mp hread
          rfl
        · obtain ⟨_, _, rfl⟩ := Option.map_eq_some_iff.mp hread
          rfl

/-- Each kind of scalar is read under one tag. -/
theorem tagOf_readScalar {tag : Tag} {mark : Mark} {text : String} {s : Scalar}
    (h : readScalar tag mark text = .ok s) : tagOf s = tag := by
  cases tag with
  | null | str =>
      obtain rfl := Except.ok.inj h
      rfl
  | bool | int | float | binary =>
      obtain ⟨_, _, rfl⟩ := Stepwise.map_eq_ok_iff.mp h
      rfl
  | timestamp => exact tagOf_timestamp h
  | _ => cases h

/-- One rule gives the tag of floats. -/
theorem holds_of_tag_eq_float {rule : ImplicitRule} (h : rule ∈ core) (htag : rule.tag = .float) :
    rule.holds = isFloat := by
  have hothers : (core.drop 2).all (fun rule => rule.tag ≠ .float) = true := by decide
  rcases List.mem_cons.mp h with rfl | h
  · cases htag
  · rcases List.mem_cons.mp h with rfl | h
    · rfl
    · exact absurd htag (of_decide_eq_true (List.all_eq_true.mp hothers rule h))

theorem applies_of_implicitTag_eq_float {text : String} (h : implicitTag literal text = .float) :
    ∃ rule : ImplicitRule, rule.holds = isFloat ∧ rule.applies text.toList = true := by
  unfold implicitTag at h
  cases hfound : literal.find? (·.applies text.toList) with
  | none =>
      rw [hfound] at h
      cases h
  | some rule =>
      rw [hfound] at h
      have hmem := List.mem_of_mem_filter (List.mem_of_find?_eq_some hfound)
      have happlies := List.find?_some hfound
      exact ⟨rule, holds_of_tag_eq_float hmem h, happlies⟩

/-- A scalar without a tag that is written is a not-a-number by name only. -/
theorem isNan_of_readScalar {tag : Tag} {mark : Mark} {text : String}
    (htag : tag = .str ∨ tag = implicitTag literal text)
    (h : readScalar tag mark text = .ok (.float .nan)) : ReadScalar.isNan text.toList = true := by
  obtain rfl : Tag.float = tag := tagOf_readScalar h
  rcases htag with hstr | hfloat
  · cases hstr
  · obtain ⟨rule, hrule, happlies⟩ := applies_of_implicitTag_eq_float hfloat.symm
    obtain ⟨x, hread, hx⟩ := Stepwise.map_eq_ok_iff.mp h
    obtain rfl := Scalar.float.inj hx
    exact ReadScalar.isNan_of_float hrule happlies hread

/-- The greatest number with a count of digits in base sixteen. -/
def hexDigits (n : Nat) : List Char := '0' :: 'x' :: List.replicate n 'f'

section Hex
variable {n : Nat}

theorem x_mem_hexDigits (n : Nat) : 'x' ∈ hexDigits n := by simp [hexDigits]

theorem applies_float_hexDigits {rule : ImplicitRule} (hrule : rule.holds = isFloat) (n : Nat) :
    rule.applies (hexDigits n) = false := by
  have hnames : floatNames.all (fun name => 'x' ∉ name) = true := by decide
  rw [← Bool.not_eq_true]
  intro happlies
  rcases applies_float_cases hrule happlies with ⟨name, hname, htext⟩ | hdecimal | hplaces
  · have hother : 'x' ∉ name := of_decide_eq_true (List.all_eq_true.mp hnames name hname)
    have hx := x_mem_hexDigits n
    rcases htext with htext | htext
    · exact hother (htext ▸ hx)
    · rw [htext] at hx
      exact hother (by simpa using hx)
  · exact absurd (hdecimal 'x' (x_mem_hexDigits n)) (by decide)
  · exact absurd (hplaces 'x' (x_mem_hexDigits n)) (by decide)

theorem applies_int_hexDigits {rule : ImplicitRule} (hrule : rule.holds = isInt)
    (hfirst : some '0' ∈ rule.first) (hn : 0 < n) : rule.applies (hexDigits n) = true := by
  have hholds : isInt (hexDigits n) = true := by
    simp [isInt, hexDigits, unsigned, isRun, isHex, Nat.ne_of_gt hn]
  rw [applies, hrule, hholds, Bool.true_or, Bool.and_true]
  exact List.contains_iff_mem.mpr hfirst

theorem implicitTag_hexDigits (hn : 0 < n) :
    implicitTag literal (String.ofList (hexDigits n)) = .int := by
  have hliteral : literal = ⟨.float, startsWith "-+0123456789.", isFloat⟩ ::
      ⟨.int, startsWith "-+0123456789", isInt⟩ :: literal.drop 2 := rfl
  unfold implicitTag
  rw [String.toList_ofList, hliteral, List.find?_cons, applies_float_hexDigits rfl, List.find?_cons,
    applies_int_hexDigits rfl (by decide) hn]
  rfl

/-- Digits in base sixteen are read whatever their number. -/
theorem natural?_replicate (hn : 0 < n) :
    Numeral.natural? 16 (List.replicate n 'f') = some (16 ^ n - 1) := by
  have hfold (a n : Nat) : (List.replicate n 'f').foldl (fun n c => do
      let d ← Numeral.digit? c
      if d < 16 then return (← n) * 16 + d else none) (some a) =
        some (a * 16 ^ n + (16 ^ n - 1)) := by
    induction n generalizing a with
    | zero => simp
    | succ n ih =>
        have hpos : 0 < 16 ^ n := Nat.pow_pos (by decide)
        have hstep : (a * 16 + 15) * 16 ^ n + (16 ^ n - 1) =
            a * 16 ^ (n + 1) + (16 ^ (n + 1) - 1) := by
          rw [Nat.pow_succ, Nat.add_mul, Nat.mul_assoc, Nat.mul_comm 16 (16 ^ n)]
          omega
        rw [List.replicate_succ, List.foldl_cons, ← hstep, ← ih]
        rfl
  rw [Numeral.natural?, if_neg (by simpa using Nat.ne_of_gt hn)]
  refine (hfold 0 n).trans ?_
  rw [Nat.zero_mul, Nat.zero_add]

theorem integer_replicate (hn : 0 < n) :
    Numeral.integer 16 (List.replicate n 'f') = .ok ((16 ^ n - 1 : Nat) : Int) := by
  have hblank : Numeral.isBlank 'f' = false := by decide
  have htrim : Numeral.trim (List.replicate n 'f') = List.replicate n 'f' := by
    simp [Numeral.trim, hblank]
  have hsign (digits : List Char) : Numeral.sign ('f' :: digits) = (false, 'f' :: digits) := rfl
  have hmark : Numeral.dropBaseMark 16 (List.replicate n 'f') = List.replicate n 'f' := by
    have hdecimal : Numeral.decimal? 'f' = none := by decide
    unfold Numeral.dropBaseMark
    split
    · next zero c rest hdigits =>
        obtain rfl : zero = 'f' := List.eq_of_mem_replicate (n := n) (by simp [hdigits])
        simp [hdecimal, hdigits]
    · rfl
  obtain ⟨k, rfl⟩ := Nat.exists_eq_add_one.mpr hn
  rw [Numeral.integer, htrim, List.replicate_succ, hsign]
  dsimp only
  rw [← List.replicate_succ, hmark, natural?_replicate hn]
  rfl

theorem readScalar_hexDigits (hn : 0 < n) (mark : Mark) :
    readScalar .int mark (String.ofList (hexDigits n)) = .ok (.int ((16 ^ n - 1 : Nat) : Int)) := by
  have hsigned : ReadScalar.signed (hexDigits n) = some (false, hexDigits n) := by
    simp [ReadScalar.signed, hexDigits]
  have hint : ReadScalar.int (hexDigits n) = .ok ((16 ^ n - 1 : Nat) : Int) := by
    rw [ReadScalar.int, hsigned]
    simp [hexDigits, ReadScalar.magnitude, integer_replicate hn, ReadScalar.numeral, Except.map]
  dsimp only [readScalar]
  rw [String.toList_ofList, hint]
  rfl

end Hex

end VoiceIntents.Yaml
