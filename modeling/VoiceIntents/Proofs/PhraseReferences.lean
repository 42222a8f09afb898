import Mathlib.Data.List.TakeWhile
import VoiceIntents.Identifier

/-!
# The references of a phrase

What the scanner finds, in three ways that know nothing of how it goes through a text: as a
search from left to right that goes on behind each token, as the list of all places where a
token stands, and as the inverse of writing tokens between texts without a dollar sign.
-/

namespace VoiceIntents

namespace Reference

/-- The ASCII letters, the digits and the underscore. -/
def WordChar (c : Char) : Prop :=
  'A' ≤ c ∧ c ≤ 'Z' ∨ 'a' ≤ c ∧ c ≤ 'z' ∨ '0' ≤ c ∧ c ≤ '9' ∨ c = '_'

/-- A run of word characters, at least one. -/
def IsWord (word : String) : Prop := word ≠ "" ∧ ∀ c ∈ word.toList, WordChar c

/-- A reference as it is written. -/
def token (r : Reference) : String := "$" ++ r.slot ++ ":" ++ r.name

/-- A token stands at the front of a text, and `rest` is what follows it. -/
structure Begins (text : List Char) (r : Reference) (rest : List Char) : Prop where
  text_eq : text = r.token.toList ++ rest
  slot_word : IsWord r.slot
  name_word : IsWord r.name

/-- No word goes on in a text. -/
def WordEnds (rest : List Char) : Prop := ∀ c, rest.head? = some c → ¬WordChar c

/-- A token stands at a place of a text, and its name is the longest run there. -/
def StandsAt (text : List Char) (place : Nat) (r : Reference) : Prop :=
  ∃ rest, Begins (text.drop place) r rest ∧ WordEnds rest

/-- Of the tokens at the front of a text, one with the longest slot, and with that slot the
longest name. -/
structure Preferred (text : List Char) (r : Reference) (rest : List Char) : Prop where
  begins : Begins text r rest
  slot_longest : ∀ other tail, Begins text other tail → other.slot.length ≤ r.slot.length
  name_longest : ∀ other tail, Begins text other tail → other.slot = r.slot →
    other.name.length ≤ r.name.length

/-- What a search from left to right finds. Behind a token it goes on at the token's end, and
where no token begins it goes on at the next character. -/
inductive Searched : List Char → List Reference → Prop
  | done : Searched [] []
  | found {text rest : List Char} {r : Reference} {more : List Reference}
      (h : Preferred text r rest) (hrest : Searched rest more) : Searched text (r :: more)
  | passed {c : Char} {text : List Char} {more : List Reference}
      (h : ∀ r rest, ¬Begins (c :: text) r rest) (hrest : Searched text more) :
      Searched (c :: text) more

section Words
variable {text word rest : List Char} {r : Reference}

theorem isWord_iff {c : Char} : isWord c = true ↔ WordChar c := by
  have hword : isWord c = (decide ('A' ≤ c ∧ c ≤ 'Z') ||
      decide ('a' ≤ c) && decide (c ≤ 'z') || decide ('0' ≤ c) && decide (c ≤ '9') ||
      c == '_') := rfl
  simp only [hword, WordChar, Bool.or_eq_true, Bool.and_eq_true, decide_eq_true_eq, beq_iff_eq,
    or_assoc]

instance (c : Char) : Decidable (WordChar c) := decidable_of_iff _ isWord_iff

instance (word : String) : Decidable (IsWord word) :=
  decidable_of_iff (word ≠ "" ∧ word.toList.all isWord = true) (by
    simp only [IsWord, List.all_eq_true, isWord_iff])

theorem wordEnds_nil : WordEnds [] := by
  intro c h
  cases h

theorem wordEnds_cons_iff {c : Char} : WordEnds (c :: rest) ↔ ¬WordChar c := by
  simp [WordEnds]

theorem wordEnds_dropWhile (text : List Char) : WordEnds (text.dropWhile isWord) := by
  intro c h
  have hstop := List.head?_dropWhile_not isWord text
  rw [h] at hstop
  rw [← isWord_iff, Bool.not_eq_true]
  exact hstop

/-- A run of word characters is the longest one if no word goes on behind it. -/
theorem takeWhile_word (hword : ∀ c ∈ word, WordChar c) (hends : WordEnds rest) :
    (word ++ rest).takeWhile isWord = word := by
  have hrest : rest.takeWhile isWord = [] := by
    cases rest with
    | nil => rfl
    | cons c rest =>
        rw [List.takeWhile_cons_of_neg]
        simpa [isWord_iff] using wordEnds_cons_iff.mp hends
  rw [List.takeWhile_append_of_pos fun c hc => isWord_iff.mpr (hword c hc), hrest, List.append_nil]

theorem dropWhile_word (hword : ∀ c ∈ word, WordChar c) (hends : WordEnds rest) :
    (word ++ rest).dropWhile isWord = rest := by
  have hsplit := List.takeWhile_append_dropWhile (p := isWord) (l := word ++ rest)
  rw [takeWhile_word hword hends] at hsplit
  exact List.append_cancel_left hsplit

theorem dollar_not_mem (hword : ∀ c ∈ word, WordChar c) : '$' ∉ word := by
  intro h
  exact absurd (hword '$' h) (by decide)

theorem toList_token (r : Reference) :
    r.token.toList = '$' :: (r.slot.toList ++ ':' :: r.name.toList) := by
  simp [token]

theorem begins_iff : Begins text r rest ↔
    text = '$' :: (r.slot.toList ++ ':' :: (r.name.toList ++ rest)) ∧ IsWord r.slot ∧
      IsWord r.name := by
  constructor
  · intro h
    refine ⟨?_, h.slot_word, h.name_word⟩
    rw [h.text_eq, toList_token]
    simp
  · rintro ⟨rfl, hslot, hname⟩
    refine ⟨?_, hslot, hname⟩
    rw [toList_token]
    simp

theorem isWord_ofList_takeWhile (h : (text.takeWhile isWord).isEmpty = false) :
    IsWord (String.ofList (text.takeWhile isWord)) := by
  constructor
  · intro hempty
    rw [← String.toList_inj, String.toList_ofList] at hempty
    simp [hempty] at h
  · intro c hc
    rw [String.toList_ofList] at hc
    exact isWord_iff.mp (List.mem_takeWhile_imp hc)

/-- What is read after a dollar sign is the token there with the longest name. -/
theorem afterDollar?_eq_some_iff : afterDollar? text = some r ↔
    ∃ rest, Begins ('$' :: text) r rest ∧ WordEnds rest := by
  constructor
  · intro h
    simp only [afterDollar?] at h
    split at h
    · next behind hbehind =>
        split at h
        · cases h
        · next hwords =>
            rw [Bool.or_eq_true, not_or, Bool.not_eq_true, Bool.not_eq_true] at hwords
            obtain rfl := Option.some.inj h
            refine ⟨behind.dropWhile isWord, begins_iff.mpr ⟨?_, ?_, ?_⟩, wordEnds_dropWhile behind⟩
            · simp only [String.toList_ofList, List.takeWhile_append_dropWhile, ← hbehind]
            · exact isWord_ofList_takeWhile hwords.1
            · exact isWord_ofList_takeWhile hwords.2
    · cases h
  · rintro ⟨rest, hbegins, hends⟩
    obtain ⟨htext, hslot, hname⟩ := begins_iff.mp hbegins
    obtain rfl := (List.cons.inj htext).2
    have hcolon : WordEnds (':' :: (r.name.toList ++ rest)) := wordEnds_cons_iff.mpr (by decide)
    simp only [afterDollar?, takeWhile_word hslot.2 hcolon, dropWhile_word hslot.2 hcolon,
      takeWhile_word hname.2 hends, String.ofList_toList]
    have hnonempty (word : String) (h : IsWord word) : word.toList.isEmpty = false := by
      simpa using h.1
    rw [hnonempty _ hslot, hnonempty _ hname]
    rfl

end Words

section Scan
variable {text rest : List Char} {r : Reference} {c : Char}

/-- The token at the front of a text, if one stands there. -/
def front? : List Char → Option Reference
  | [] => none
  | c :: text => if c = '$' then afterDollar? text else none

theorem front?_eq_some_iff : front? text = some r ↔ ∃ rest, Begins text r rest ∧ WordEnds rest := by
  cases text with
  | nil => simp [front?, begins_iff]
  | cons c text =>
      by_cases hc : c = '$'
      · rw [front?, if_pos hc, hc, afterDollar?_eq_some_iff]
      · simp [front?, begins_iff, hc]

theorem scan_cons (c : Char) (text : List Char) :
    scan (c :: text) = (front? (c :: text)).toList ++ scan text := by
  by_cases hc : c = '$' <;> simp [scan, front?, hc]

/-- What is found is written in words. -/
theorem isWord_of_mem_scan (h : r ∈ scan text) : IsWord r.slot ∧ IsWord r.name := by
  induction text with
  | nil => cases h
  | cons c text ih =>
      rw [scan_cons, List.mem_append, Option.mem_toList] at h
      rcases h with h | h
      · obtain ⟨_, hbegins, _⟩ := front?_eq_some_iff.mp h
        exact ⟨hbegins.slot_word, hbegins.name_word⟩
      · exact ih h

theorem IsWord.isAscii {word : String} (h : IsWord word) : Text.IsAscii word := by
  have hle {c bound : Char} (hc : c ≤ bound) (hbound : bound.toNat < 128) : c.toNat < 128 :=
    Nat.lt_of_le_of_lt hc hbound
  intro c hc
  rcases h.2 c hc with ⟨_, hc⟩ | ⟨_, hc⟩ | ⟨_, hc⟩ | rfl
  · exact hle hc (by decide)
  · exact hle hc (by decide)
  · exact hle hc (by decide)
  · decide

theorem scan_append_of_no_dollar {front : List Char} (h : '$' ∉ front) (text : List Char) :
    scan (front ++ text) = scan text := by
  induction front with
  | nil => rfl
  | cons c front ih =>
      rw [List.mem_cons, not_or] at h
      rw [List.cons_append, scan, if_neg (Ne.symm h.1), ih h.2]

/-- Behind a token the scan goes on at its end, for a token has no second dollar sign. -/
theorem scan_of_begins (h : Begins text r rest) (hends : WordEnds rest) :
    scan text = r :: scan rest := by
  have hfront : front? text = some r := front?_eq_some_iff.mpr ⟨rest, h, hends⟩
  obtain ⟨rfl, hslot, hname⟩ := begins_iff.mp h
  have hinside : '$' ∉ r.slot.toList ++ ':' :: r.name.toList := by
    have hslot := dollar_not_mem hslot.2
    have hname := dollar_not_mem hname.2
    simp [hslot, hname]
  calc scan ('$' :: (r.slot.toList ++ ':' :: (r.name.toList ++ rest)))
      = [r] ++ scan ((r.slot.toList ++ ':' :: r.name.toList) ++ rest) := by
        rw [scan_cons, hfront]
        simp
    _ = r :: scan rest := by
        rw [scan_append_of_no_dollar hinside]
        rfl

theorem scan_of_not_begins (h : ∀ r rest, ¬Begins (c :: text) r rest) :
    scan (c :: text) = scan text := by
  have hnone : front? (c :: text) = none := by
    rw [Option.eq_none_iff_forall_ne_some]
    intro r hr
    obtain ⟨rest, hbegins, _⟩ := front?_eq_some_iff.mp hr
    exact h r rest hbegins
  rw [scan_cons, hnone]
  rfl

/-- Where a token stands, the one with the longest name does. -/
theorem Begins.exists_wordEnds (h : Begins text r rest) :
    ∃ longest tail, Begins text longest tail ∧ WordEnds tail := by
  obtain ⟨rfl, hslot, hname⟩ := begins_iff.mp h
  refine ⟨⟨r.slot, String.ofList (r.name.toList ++ rest.takeWhile isWord)⟩, rest.dropWhile isWord,
    begins_iff.mpr ⟨?_, hslot, ?_, ?_⟩, wordEnds_dropWhile rest⟩
  · simp [List.append_assoc]
  · intro hempty
    rw [← String.toList_inj, String.toList_ofList] at hempty
    exact hname.1 (String.toList_inj.mp (List.append_eq_nil_iff.mp hempty).1)
  · intro c hc
    rw [String.toList_ofList, List.mem_append] at hc
    exact hc.elim (hname.2 c) fun hc => isWord_iff.mp (List.mem_takeWhile_imp hc)

/-- The colon ends the slot, so all tokens at one place have the same. -/
theorem Begins.slot_eq {other : Reference} {tail : List Char} (h : Begins text r rest)
    (hother : Begins text other tail) : other.slot = r.slot := by
  have hslot {r : Reference} {rest : List Char} (h : Begins text r rest) :
      r.slot.toList = text.tail.takeWhile isWord := by
    obtain ⟨rfl, hslot, _⟩ := begins_iff.mp h
    exact (takeWhile_word hslot.2 (wordEnds_cons_iff.mpr (by decide))).symm
  rw [← String.toList_inj, hslot hother, hslot h]

/-- The names of the tokens at one place are the beginnings of the longest. -/
theorem Begins.name_append {longest : Reference} {tail : List Char} (h : Begins text r rest)
    (hlongest : Begins text longest tail) (hends : WordEnds tail) :
    r.name.toList ++ rest.takeWhile isWord = longest.name.toList := by
  have hslot := hlongest.slot_eq h
  obtain ⟨htext, _, hname⟩ := begins_iff.mp h
  obtain ⟨hlongestText, _, hlongestName⟩ := begins_iff.mp hlongest
  have hbehind : r.name.toList ++ rest = longest.name.toList ++ tail := by
    rw [hlongestText, hslot] at htext
    simpa using htext.symm
  calc r.name.toList ++ rest.takeWhile isWord
      = (r.name.toList ++ rest).takeWhile isWord :=
        (List.takeWhile_append_of_pos fun c hc => isWord_iff.mpr (hname.2 c hc)).symm
    _ = longest.name.toList := by rw [hbehind, takeWhile_word hlongestName.2 hends]

/-- The token that a search prefers is the one behind which no word goes on. -/
theorem preferred_iff : Preferred text r rest ↔ Begins text r rest ∧ WordEnds rest := by
  constructor
  · intro h
    refine ⟨h.begins, ?_⟩
    obtain ⟨longest, tail, hlongest, hends⟩ := h.begins.exists_wordEnds
    have hname := h.begins.name_append hlongest hends
    have hlength := h.name_longest longest tail hlongest (h.begins.slot_eq hlongest)
    have hnothing : rest.takeWhile isWord = [] := by
      rw [← String.length_toList, ← String.length_toList, ← hname, List.length_append] at hlength
      exact List.length_eq_zero_iff.mp (by omega)
    have hdrop : rest.dropWhile isWord = rest := by
      simpa [hnothing] using rest.takeWhile_append_dropWhile (p := isWord)
    rw [← hdrop]
    exact wordEnds_dropWhile rest
  · rintro ⟨hbegins, hends⟩
    refine ⟨hbegins, ?_, ?_⟩
    · intro other tail hother
      rw [hbegins.slot_eq hother]
    · intro other tail hother _
      rw [← String.length_toList, ← String.length_toList, ← hother.name_append hbegins hends,
        List.length_append]
      omega

/-- The scan finds what a search from left to right finds, and nothing else is found. -/
theorem searched_iff {found : List Reference} : Searched text found ↔ found = scan text := by
  constructor
  · intro h
    induction h with
    | done => rfl
    | found h _ ih =>
        obtain ⟨hbegins, hends⟩ := preferred_iff.mp h
        rw [scan_of_begins hbegins hends, ih]
    | passed h _ ih => rw [scan_of_not_begins h, ih]
  · rintro rfl
    -- A token is not empty, so the text gets shorter at every step of the search.
    induction hn : text.length using Nat.strong_induction_on generalizing text with
    | _ n ih =>
        subst hn
        cases text with
        | nil => exact .done
        | cons c text =>
            by_cases hfound : ∃ r rest, Begins (c :: text) r rest
            · obtain ⟨_, _, hsome⟩ := hfound
              obtain ⟨r, rest, hbegins, hends⟩ := hsome.exists_wordEnds
              have hshorter : rest.length < (c :: text).length := by
                rw [hbegins.text_eq, toList_token]
                simp
                omega
              rw [scan_of_begins hbegins hends]
              exact .found (preferred_iff.mpr ⟨hbegins, hends⟩) (ih _ hshorter rfl)
            · have hnone : ∀ r rest, ¬Begins (c :: text) r rest := by
                intro r rest h
                exact hfound ⟨r, rest, h⟩
              rw [scan_of_not_begins hnone]
              exact .passed hnone (ih _ (by simp) rfl)

/-- The scan looks at every place of a text. -/
theorem scan_eq_filterMap (text : List Char) :
    scan text = (List.range text.length).filterMap fun place => front? (text.drop place) := by
  induction text with
  | nil => rfl
  | cons c text ih =>
      rw [scan_cons, ih, List.length_cons, List.range_succ_eq_map, List.filterMap_cons,
        List.filterMap_map, List.drop_zero]
      cases front? (c :: text) <;> rfl

/-- The scan lists all tokens of a text, in the order of their places. -/
theorem exists_places (text : List Char) :
    ∃ places : List (Nat × Reference), places.Pairwise (fun a b => a.1 < b.1) ∧
      (∀ place r, (place, r) ∈ places ↔ StandsAt text place r) ∧
      scan text = places.map (·.2) := by
  refine ⟨(List.range text.length).filterMap fun place =>
    (front? (text.drop place)).map fun r => (place, r), ?_, ?_, ?_⟩
  · apply List.Pairwise.filterMap _ _ List.pairwise_lt_range
    intro a b hlt p hp q hq
    obtain ⟨_, _, rfl⟩ := Option.map_eq_some_iff.mp hp
    obtain ⟨_, _, rfl⟩ := Option.map_eq_some_iff.mp hq
    exact hlt
  · intro place r
    have hinside (h : StandsAt text place r) : place < text.length := by
      obtain ⟨rest, hbegins, _⟩ := h
      by_contra hlong
      rw [List.drop_eq_nil_of_le (Nat.not_lt.mp hlong)] at hbegins
      simpa using (begins_iff.mp hbegins).1
    simp only [List.mem_filterMap, List.mem_range, Option.map_eq_some_iff, Prod.mk.injEq,
      front?_eq_some_iff]
    constructor
    · rintro ⟨_, _, _, hstands, rfl, rfl⟩
      exact hstands
    · intro hstands
      exact ⟨place, hinside hstands, r, hstands, rfl, rfl⟩
  · rw [scan_eq_filterMap, List.map_filterMap]
    simp [Function.comp_def]

theorem wordEnds_append_dollar_iff {after : List Char} :
    WordEnds (rest ++ '$' :: after) ↔ WordEnds rest := by
  cases rest with
  | nil => exact iff_of_true (wordEnds_cons_iff.mpr (by decide)) wordEnds_nil
  | cons c rest => rw [List.cons_append, wordEnds_cons_iff, wordEnds_cons_iff]

/-- No token reaches over a dollar sign. -/
theorem Begins.of_append_dollar {after : List Char}
    (h : Begins (c :: text ++ '$' :: after) r rest) :
    ∃ between, rest = between ++ '$' :: after ∧ Begins (c :: text) r between := by
  have hinside : '$' ∉ r.token.toList.tail := by
    have hslot := dollar_not_mem h.slot_word.2
    have hname := dollar_not_mem h.name_word.2
    simp [toList_token, hslot, hname]
  rcases List.append_eq_append_iff.mp h.text_eq with
    ⟨beyond, htoken, hafter⟩ | ⟨between, htext, hrest⟩
  · cases beyond with
    | nil => exact ⟨[], hafter.symm, by simpa using htoken.symm, h.slot_word, h.name_word⟩
    | cons d beyond =>
        obtain rfl : '$' = d := (List.cons.inj hafter).1
        rw [htoken] at hinside
        simp at hinside
  · exact ⟨between, hrest, htext, h.slot_word, h.name_word⟩

theorem front?_append_dollar (c : Char) (text after : List Char) :
    front? (c :: text ++ '$' :: after) = front? (c :: text) := by
  apply Option.ext
  intro r
  rw [front?_eq_some_iff, front?_eq_some_iff]
  constructor
  · rintro ⟨rest, hbegins, hends⟩
    obtain ⟨between, rfl, hbetween⟩ := hbegins.of_append_dollar
    exact ⟨between, hbetween, wordEnds_append_dollar_iff.mp hends⟩
  · rintro ⟨rest, hbegins, hends⟩
    refine ⟨rest ++ '$' :: after, ⟨?_, hbegins.slot_word, hbegins.name_word⟩,
      wordEnds_append_dollar_iff.mpr hends⟩
    rw [hbegins.text_eq, List.append_assoc]

/-- A text can be cut in front of a dollar sign. -/
theorem scan_append_dollar (before after : List Char) :
    scan (before ++ '$' :: after) = scan before ++ scan ('$' :: after) := by
  induction before with
  | nil => rfl
  | cons c before ih =>
      rw [List.cons_append, scan_cons, ← List.cons_append, front?_append_dollar, ih,
        scan_cons c before, List.append_assoc]

/-- Tokens, each with a text behind it. -/
def tokens (parts : List (Reference × String)) : String :=
  String.join (parts.map fun part => part.1.token ++ part.2)

/-- A token and a text that can stand behind it: words for the slot and the name, and a text that
has no dollar sign and does not go on with the name. -/
structure Separated (part : Reference × String) : Prop where
  slot_word : IsWord part.1.slot
  name_word : IsWord part.1.name
  no_dollar : '$' ∉ part.2.toList
  name_ends : WordEnds part.2.toList

theorem toList_tokens_cons (part : Reference × String) (parts : List (Reference × String)) :
    (tokens (part :: parts)).toList =
      part.1.token.toList ++ (part.2.toList ++ (tokens parts).toList) := by
  simp only [tokens, List.map_cons, String.join_cons, String.toList_append, List.append_assoc]

theorem wordEnds_append_tokens (hends : WordEnds rest) (parts : List (Reference × String)) :
    WordEnds (rest ++ (tokens parts).toList) := by
  cases parts with
  | nil => simpa [tokens] using hends
  | cons part parts =>
      rw [toList_tokens_cons, toList_token, List.cons_append]
      exact wordEnds_append_dollar_iff.mpr hends

/-- Tokens are scanned back. -/
theorem scan_tokens {parts : List (Reference × String)} (h : ∀ part ∈ parts, Separated part) :
    scan (tokens parts).toList = parts.map (·.1) := by
  induction parts with
  | nil => rfl
  | cons part parts ih =>
      obtain ⟨hpart, hparts⟩ := List.forall_mem_cons.mp h
      have hbegins : Begins (tokens (part :: parts)).toList part.1
          (part.2.toList ++ (tokens parts).toList) :=
        ⟨toList_tokens_cons part parts, hpart.slot_word, hpart.name_word⟩
      rw [scan_of_begins hbegins (wordEnds_append_tokens hpart.name_ends parts),
        scan_append_of_no_dollar hpart.no_dollar, ih hparts, List.map_cons]

end Scan

end Reference

/-- The references of a phrase are what a search from left to right finds. They are the tokens at
all its places, in order. A text behind it that begins with a dollar sign is scanned by itself, and
if the phrase has no dollar sign, tokens behind it are found again, as long as no text between
them has a dollar sign or goes on with a name. -/
theorem references_exact (phrase : String) :
    (∀ found, Reference.Searched phrase.toList found ↔ found = references phrase) ∧
    (∃ places : List (Nat × Reference), places.Pairwise (fun a b => a.1 < b.1) ∧
      (∀ place r, (place, r) ∈ places ↔ Reference.StandsAt phrase.toList place r) ∧
      references phrase = places.map (·.2)) ∧
    (∀ after, references (phrase ++ "$" ++ after) =
      references phrase ++ references ("$" ++ after)) ∧
    ∀ parts, '$' ∉ phrase.toList → (∀ part ∈ parts, Reference.Separated part) →
      references (phrase ++ Reference.tokens parts) = parts.map (·.1) := by
  refine ⟨fun found => Reference.searched_iff, Reference.exists_places phrase.toList, ?_, ?_⟩
  · intro after
    unfold references
    simp only [String.toList_append, List.append_assoc]
    exact Reference.scan_append_dollar phrase.toList after.toList
  · intro parts hfront hparts
    unfold references
    rw [String.toList_append, Reference.scan_append_of_no_dollar hfront,
      Reference.scan_tokens hparts]

/-- Two tokens without a text between them, and a letter of another script behind the second. -/
theorem references_adjacent :
    (∀ part ∈ [((⟨"a", "b"⟩ : Reference), ""), (⟨"c", "d"⟩, "é:e")], Reference.Separated part) ∧
      references "go $a:b$c:dé:e" = [⟨"a", "b"⟩, ⟨"c", "d"⟩] := by
  have hparts : ∀ part ∈ [((⟨"a", "b"⟩ : Reference), ""), (⟨"c", "d"⟩, "é:e")],
      Reference.Separated part := by
    simp only [List.forall_mem_cons, List.not_mem_nil, false_imp_iff, implies_true, and_true]
    exact ⟨⟨by decide, by decide, by decide, Reference.wordEnds_nil⟩,
      ⟨by decide, by decide, by decide, Reference.wordEnds_cons_iff.mpr (by decide)⟩⟩
  exact ⟨hparts, (references_exact "go ").2.2.2 _ (by decide) hparts⟩

end VoiceIntents
