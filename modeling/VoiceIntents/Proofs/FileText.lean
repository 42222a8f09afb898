import Mathlib.Data.List.Basic
import Mathlib.Tactic.SplitIfs
import VoiceIntents.File.Basic
import VoiceIntents.Proofs.Stepwise

/-!
# The text of a file

What is written as bytes and read back. Decoding accepts exactly the bytes of texts, and gives
the text; reading joins line ends on top of that, so a text is read back as it was written if it
has no carriage return.
-/

namespace VoiceIntents

namespace Text.Utf8

section Bytes

/-- The bytes of one character and the number that they hold. -/
inductive Holds : List UInt8 → Nat → Prop
  | one {a : UInt8} (ha : a.toNat < 0x80) : Holds [a] a.toNat
  | two {a b : UInt8} (ha : within 0xC2 0xDF a = true) (hb : isTail b = true) :
      Holds [a, b] (a.toNat % 32 * 64 + tailBits b)
  | three {a b c : UInt8} (ha : within 0xE0 0xEF a = true) (hb : isSecond a b = true)
      (hc : isTail c = true) :
      Holds [a, b, c] ((a.toNat % 16 * 64 + tailBits b) * 64 + tailBits c)
  | four {a b c d : UInt8} (ha : within 0xF0 0xF4 a = true) (hb : isSecond a b = true)
      (hc : isTail c = true) (hd : isTail d = true) :
      Holds [a, b, c, d]
        (((a.toNat % 8 * 64 + tailBits b) * 64 + tailBits c) * 64 + tailBits d)

theorem within_iff {low high : Nat} {b : UInt8} :
    within low high b = true ↔ low ≤ b.toNat ∧ b.toNat ≤ high := by
  simp [within]

theorem isTail_iff {b : UInt8} : isTail b = true ↔ 0x80 ≤ b.toNat ∧ b.toNat ≤ 0xBF := within_iff

/-- What the second byte of three or four may be. It keeps shorter spellings, the halves of
pairs and numbers above the last character out. -/
theorem isSecond_iff {a b : UInt8} : isSecond a b = true ↔ 0x80 ≤ b.toNat ∧ b.toNat ≤ 0xBF ∧
    (a.toNat = 0xE0 → 0xA0 ≤ b.toNat) ∧ (a.toNat = 0xED → b.toNat ≤ 0x9F) ∧
    (a.toNat = 0xF0 → 0x90 ≤ b.toNat) ∧ (a.toNat = 0xF4 → b.toNat ≤ 0x8F) := by
  simp only [isSecond, secondRange, ← UInt8.toNat_inj, UInt8.reduceToNat]
  split_ifs <;> rw [within_iff] <;> dsimp only <;> omega

theorem toNat_byte {n : Nat} (h : n < 256) : (UInt8.ofNat n).toNat = n :=
  UInt8.toNat_ofNat_of_lt' h

theorem eq_byte_iff {b : UInt8} {n : Nat} (h : n < 256) : UInt8.ofNat n = b ↔ n = b.toNat := by
  rw [← UInt8.toNat_inj, toNat_byte h]

/-- The number of a character: those of the halves of pairs are left out. -/
theorem toNat_cases (c : Char) : c.toNat < 0xD800 ∨ 0xDFFF < c.toNat ∧ c.toNat < 0x110000 := c.valid

theorem toNat_ofNat {n : Nat} (h : n < 0xD800 ∨ 0xDFFF < n ∧ n < 0x110000) :
    (Char.ofNat n).toNat = n := by
  have hvalid : n.isValidChar := h
  rw [Char.ofNat, dif_pos hvalid]
  rfl

theorem holds_encodeChar (c : Char) : Holds (encodeChar c) c.toNat := by
  have hc := toNat_cases c
  generalize hn : c.toNat = n at hc
  have htail (k : Nat) : isTail (UInt8.ofNat (0x80 + k % 64)) = true := by
    rw [isTail_iff, toNat_byte (by omega)]
    omega
  have hbits (k : Nat) : tailBits (UInt8.ofNat (0x80 + k % 64)) = k % 64 := by
    rw [tailBits, toNat_byte (by omega)]
    omega
  simp only [encodeChar, hn]
  split_ifs with h1 h2 h3
  · convert Holds.one (a := UInt8.ofNat n) ?_ using 1
    all_goals rw [toNat_byte (by omega)]
    exact h1
  · convert Holds.two (a := UInt8.ofNat (0xC0 + n / 64)) ?_ (htail n) using 1
    · rw [hbits, toNat_byte (by omega)]
      omega
    · rw [within_iff, toNat_byte (by omega)]
      omega
  · convert Holds.three (a := UInt8.ofNat (0xE0 + n / 4096)) ?_ ?_ (htail n) using 1
    · rw [hbits, hbits, toNat_byte (by omega)]
      omega
    · rw [within_iff, toNat_byte (by omega)]
      omega
    · rw [isSecond_iff, toNat_byte (by omega), toNat_byte (by omega)]
      omega
  · convert Holds.four (a := UInt8.ofNat (0xF0 + n / 262144)) ?_ ?_ (htail (n / 64))
      (htail n) using 1
    · rw [hbits, hbits, hbits, toNat_byte (by omega)]
      omega
    · rw [within_iff, toNat_byte (by omega)]
      omega
    · rw [isSecond_iff, toNat_byte (by omega), toNat_byte (by omega)]
      omega

theorem Holds.encodeChar_eq {bytes : List UInt8} {n : Nat} (h : Holds bytes n) :
    encodeChar (Char.ofNat n) = bytes := by
  cases h with
  | @one a ha =>
      rw [encodeChar, toNat_ofNat (by omega)]
      simp [ha]
  | @two a b ha hb =>
      rw [within_iff] at ha
      rw [isTail_iff] at hb
      rw [encodeChar, toNat_ofNat (by unfold tailBits; omega), tailBits]
      rw [if_neg (by omega), if_pos (by omega)]
      simp only [List.cons.injEq, and_true]
      refine ⟨?_, ?_⟩ <;> rw [eq_byte_iff (by omega)] <;> omega
  | @three a b c ha hb hc =>
      rw [within_iff] at ha
      rw [isSecond_iff] at hb
      rw [isTail_iff] at hc
      rw [encodeChar, toNat_ofNat (by unfold tailBits; omega), tailBits, tailBits]
      rw [if_neg (by omega), if_neg (by omega), if_pos (by omega)]
      simp only [List.cons.injEq, and_true]
      refine ⟨?_, ?_, ?_⟩ <;> rw [eq_byte_iff (by omega)] <;> omega
  | @four a b c d ha hb hc hd =>
      rw [within_iff] at ha
      rw [isSecond_iff] at hb
      rw [isTail_iff] at hc hd
      rw [encodeChar, toNat_ofNat (by unfold tailBits; omega), tailBits, tailBits, tailBits]
      rw [if_neg (by omega), if_neg (by omega), if_neg (by omega)]
      simp only [List.cons.injEq, and_true]
      refine ⟨?_, ?_, ?_, ?_⟩ <;> rw [eq_byte_iff (by omega)] <;> omega

theorem Holds.decodeFrom_eq {bytes : List UInt8} {n : Nat} (h : Holds bytes n) (p : Nat)
    (rest : List UInt8) :
    decodeFrom p (bytes ++ rest) =
      (decodeFrom (p + bytes.length) rest).map (Char.ofNat n :: ·) := by
  cases h with
  | one ha =>
      rw [List.cons_append, decodeFrom.eq_def]
      exact if_pos ha
  | @two a b ha hb =>
      have hlead := within_iff.mp ha
      rw [List.cons_append, decodeFrom.eq_def]
      simp only [ha, hb, if_true, List.cons_append, List.nil_append]
      exact if_neg (by omega)
  | @three a b c ha hb hc =>
      have hlead := within_iff.mp ha
      have htwo : within 0xC2 0xDF a = false := by
        rw [← Bool.not_eq_true, within_iff]
        omega
      rw [List.cons_append, decodeFrom.eq_def]
      simp only [ha, hb, hc, htwo, if_true, List.cons_append, List.nil_append]
      exact if_neg (by omega)
  | @four a b c d ha hb hc hd =>
      have hlead := within_iff.mp ha
      have htwo : within 0xC2 0xDF a = false := by
        rw [← Bool.not_eq_true, within_iff]
        omega
      have hthree : within 0xE0 0xEF a = false := by
        rw [← Bool.not_eq_true, within_iff]
        omega
      rw [List.cons_append, decodeFrom.eq_def]
      simp only [ha, hb, hc, hd, htwo, hthree, if_true, List.cons_append, List.nil_append]
      exact if_neg (by omega)

theorem decodeFrom_encode (p : Nat) (chars : List Char) :
    decodeFrom p (chars.flatMap encodeChar) = .ok chars := by
  induction chars generalizing p with
  | nil => rfl
  | cons c rest ih =>
      rw [List.flatMap_cons, (holds_encodeChar c).decodeFrom_eq, ih, Char.ofNat_toNat]
      rfl

theorem eq_encode_of_decodeFrom {p : Nat} {data : List UInt8} {chars : List Char}
    (h : decodeFrom p data = .ok chars) : data = chars.flatMap encodeChar := by
  have hstep {p : Nat} {bytes data : List UInt8} {n : Nat} {chars : List Char}
      (ih : ∀ chars, decodeFrom p data = .ok chars → data = chars.flatMap encodeChar)
      (hholds : Holds bytes n) (h : (decodeFrom p data).map (Char.ofNat n :: ·) = .ok chars) :
      bytes ++ data = chars.flatMap encodeChar := by
    obtain ⟨rest, hrest, rfl⟩ := Stepwise.map_eq_ok_iff.mp h
    rw [List.flatMap_cons, hholds.encodeChar_eq, ← ih rest hrest]
  fun_induction decodeFrom p data generalizing chars with
  | case1 =>
    obtain rfl := Except.ok.inj h
    rfl
  | case2 p a rest ha ih => exact hstep (fun _ => ih) (.one ha) h
  | case4 p a _ ha b rest hb ih => exact hstep (fun _ => ih) (.two ha hb) h
  | case11 p a _ _ ha b c rest hb hc ih =>
    exact hstep (fun _ => ih) (.three ha (by simpa using hb) (by simpa using hc)) h
  | case21 p a _ _ _ ha b c d rest hb hc hd ih =>
    exact hstep (fun _ => ih)
      (.four ha (by simpa using hb) (by simpa using hc) (by simpa using hd)) h
  | _ => cases h

/-- Decoding accepts the bytes of a text and nothing else. -/
theorem decode_eq_ok_iff {data : List UInt8} {text : String} :
    decode data = .ok text ↔ data = encode text := by
  unfold decode encode
  constructor
  · intro h
    cases hchars : decodeFrom 0 data with
    | error fault => simp [hchars, Except.map] at h
    | ok chars =>
        rw [hchars] at h
        rw [← Except.ok.inj h, String.toList_ofList]
        exact eq_encode_of_decodeFrom hchars
  · rintro rfl
    rw [decodeFrom_encode]
    exact congrArg Except.ok String.ofList_toList

end Bytes

end Text.Utf8

namespace Text

theorem joinLines_cons {c : Char} {rest : List Char} (h : ¬(c = '\r' ∧ rest.head? = some '\n')) :
    joinLines (c :: rest) = (if c = '\r' then '\n' else c) :: joinLines rest := by
  rw [joinLines.eq_def]
  split
  · next heq =>
      obtain ⟨rfl, rfl⟩ := List.cons.inj heq
      exact absurd ⟨rfl, rfl⟩ h
  · next heq =>
      obtain ⟨rfl, rfl⟩ := List.cons.inj heq
      rfl
  · next heq => cases heq

/-- A line end of two characters is one. -/
theorem joinLines_pair {c : Char} {rest : List Char} (h : c = '\r' ∧ rest.head? = some '\n') :
    joinLines (c :: rest) = joinLines rest := by
  obtain ⟨rfl, hrest⟩ := h
  obtain ⟨more, rfl⟩ := List.head?_eq_some_iff.mp hrest
  rw [joinLines, joinLines_cons (by simp)]
  rfl

theorem return_not_mem_joinLines (text : List Char) : '\r' ∉ joinLines text := by
  fun_induction joinLines text with
  | case1 rest ih => simpa using ih
  | case2 c rest _ ih =>
      rw [List.mem_cons, not_or]
      refine ⟨?_, ih⟩
      split
      · decide
      · simpa [eq_comm]
  | case3 => simp

theorem joinLines_eq_self {text : List Char} (h : '\r' ∉ text) : joinLines text = text := by
  fun_induction joinLines text with
  | case1 rest ih => simp at h
  | case2 c rest _ ih =>
      rw [List.mem_cons, not_or] at h
      rw [if_neg (Ne.symm h.1), ih h.2]
  | case3 => rfl

/-- Line ends are joined behind a text that has none to join. -/
theorem universalLines_append {a b : String} (h : '\r' ∉ a.toList) :
    universalLines (a ++ b) = a ++ universalLines b := by
  apply String.toList_injective
  simp only [universalLines, String.toList_append, String.toList_ofList]
  generalize a.toList = front at h
  induction front with
  | nil => rfl
  | cons c front ih =>
      rw [List.mem_cons, not_or] at h
      rw [List.cons_append, joinLines_cons (fun hpair => h.1 hpair.1.symm), if_neg (Ne.symm h.1),
        ih h.2, List.cons_append]

/-- Joining line ends keeps the texts without a carriage return and no others. -/
theorem universalLines_eq_self_iff {text : String} :
    universalLines text = text ↔ '\r' ∉ text.toList := by
  unfold universalLines
  constructor
  · intro h
    rw [← h, String.toList_ofList]
    exact return_not_mem_joinLines text.toList
  · intro h
    rw [joinLines_eq_self h, String.ofList_toList]

end Text

/-- A text that is written to a file is read back with its line ends joined. -/
theorem Look.text_encode (text : String) :
    Look.text (.ok (.file (Text.Utf8.encode text))) = .ok (Text.universalLines text) := by
  rw [Look.text, Text.Utf8.decode_eq_ok_iff.mpr rfl]

/-- A file is read where its bytes are those of a text. -/
theorem Look.text_file_eq_ok_iff {data : List UInt8} {text : String} :
    Look.text (.ok (.file data)) = .ok text ↔
      ∃ written, data = Text.Utf8.encode written ∧ text = Text.universalLines written := by
  constructor
  · intro h
    unfold Look.text at h
    cases hwritten : Text.Utf8.decode data with
    | error fault => simp [hwritten] at h
    | ok written =>
        simp only [hwritten, Except.ok.injEq] at h
        exact ⟨written, Text.Utf8.decode_eq_ok_iff.mp hwritten, h.symm⟩
  · rintro ⟨written, rfl, rfl⟩
    exact Look.text_encode written

/-- Only files have a text. -/
theorem Look.text_eq_ok_iff {found : Look} {text : String} : found.text = .ok text ↔
    ∃ data, found = .ok (.file data) ∧ Look.text (.ok (.file data)) = .ok text := by
  constructor
  · intro h
    cases found with
    | error e => cases h
    | ok entry =>
        cases entry with
        | directory => cases h
        | file data => exact ⟨data, rfl, h⟩
  · rintro ⟨data, rfl, h⟩
    exact h

/-- Nothing that is read has a carriage return. -/
theorem Look.return_not_mem_text {found : Look} {text : String} (h : found.text = .ok text) :
    '\r' ∉ text.toList := by
  obtain ⟨data, _, hread⟩ := Look.text_eq_ok_iff.mp h
  obtain ⟨written, _, rfl⟩ := Look.text_file_eq_ok_iff.mp hread
  rw [Text.universalLines, String.toList_ofList]
  exact Text.return_not_mem_joinLines written.toList

end VoiceIntents
