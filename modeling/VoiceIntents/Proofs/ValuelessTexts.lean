import Mathlib.Data.List.Infix
import VoiceIntents.Proofs.Stepwise
import VoiceIntents.Yaml.Token.Stream

/-!
# Texts that cannot be scanned

A text is cut into tokens from its beginning on, and what is left is always an end of it. Where it
fails for a reason that is no fault of its form, a part of the text is to blame: an escape for a
number that is no character, or the number of a version with too many digits.
-/

namespace VoiceIntents.Yaml

open Stepwise (bind_eq_ok_iff bind_eq_error_iff)

/-- What a text holds that cannot be scanned, with the reason that is given for it. -/
inductive ScanDefect (text : List Char) : Unreadable → Prop
  | character {before after : List Char} {letter : Char} {width n : Nat}
      (htext : text = before ++ '\\' :: letter :: after) (hwidth : escapeWidth? letter = some width)
      (hnumber : hexNumber? width after = some n) (hlarge : 0x110000 ≤ n) (hn : n < 0x80000000) :
      ScanDefect text .characterTooLarge
  | overflow {before after : List Char} {letter : Char} {width n : Nat}
      (htext : text = before ++ '\\' :: letter :: after) (hwidth : escapeWidth? letter = some width)
      (hnumber : hexNumber? width after = some n) (hn : 0x80000000 ≤ n) :
      ScanDefect text .characterOverflow
  | version {before between digits after : List Char}
      (htext : text = before ++ "%YAML".toList ++ between ++ digits ++ after)
      (hbetween : ∀ c ∈ between, c = ' ' ∨ c = '.' ∨ c.isDigit = true)
      (hdigits : ∀ c ∈ digits, c.isDigit = true) (hlong : Numeral.digitLimit < digits.length) :
      ScanDefect text .tooManyDigits

namespace Cursor
variable {c : Cursor}

theorem next_suffix (c : Cursor) : c.next.rest <:+ c.rest := by
  unfold next
  cases hrest : c.rest with
  | nil => rw [hrest]
  | cons a rest => exact List.suffix_cons a rest

theorem skip_suffix (n : Nat) (c : Cursor) : (c.skip n).rest <:+ c.rest := by
  induction n generalizing c with
  | zero => exact List.suffix_rfl
  | succ n ih => exact (ih c.next).trans c.next_suffix

theorem spanFrom_append (p : Char → Bool) (text : List Char) (m : Mark) :
    text = (spanFrom p text m).1 ++ (spanFrom p text m).2.rest ∧
      ∀ a ∈ (spanFrom p text m).1, p a = true := by
  induction text generalizing m with
  | nil => simp [spanFrom]
  | cons a rest ih =>
      rw [spanFrom]
      split
      · next ha =>
          obtain ⟨hrest, hrun⟩ := ih (m.after a rest.head?)
          exact ⟨congrArg (a :: ·) hrest, List.forall_mem_cons.mpr ⟨ha, hrun⟩⟩
      · exact ⟨rfl, by simp⟩

/-- A run of characters stands before the place after it. -/
theorem span_append (p : Char → Bool) (c : Cursor) :
    c.rest = (c.span p).1 ++ (c.span p).2.rest ∧ ∀ a ∈ (c.span p).1, p a = true :=
  spanFrom_append p c.rest c.mark

theorem span_suffix (p : Char → Bool) (c : Cursor) : (c.span p).2.rest <:+ c.rest :=
  ⟨_, (c.span_append p).1.symm⟩

theorem skipWhile_suffix (p : Char → Bool) (c : Cursor) : (c.skipWhile p).rest <:+ c.rest :=
  c.span_suffix p

theorem line_suffix (c : Cursor) : c.line.2.rest <:+ c.rest := c.span_suffix _

theorem lineBreak?_suffix {b : Char} {after : Cursor} (h : c.lineBreak? = some (b, after)) :
    after.rest <:+ c.rest := by
  unfold lineBreak? at h
  split at h
  · cases h
    exact c.next.next_suffix.trans c.next_suffix
  · split at h
    · cases h
    · cases h
      exact c.next_suffix
  · cases h

end Cursor

section Plain

theorem plainBreaks_suffix (fuel : Nat) (c : Cursor) :
    (plainBreaks fuel c).2.2.rest <:+ c.rest := by
  induction fuel generalizing c with
  | zero => exact List.suffix_rfl
  | succ fuel ih =>
      unfold plainBreaks
      split
      · exact List.suffix_rfl
      · split
        · exact (ih c.next).trans c.next_suffix
        · split
          · exact List.suffix_rfl
          · next hbreak => exact (ih _).trans (Cursor.lineBreak?_suffix hbreak)

theorem plainSpaces_suffix (c : Cursor) : (plainSpaces c).2.2.rest <:+ c.rest := by
  unfold plainSpaces
  dsimp only
  split
  · exact c.span_suffix _
  · next hbreak =>
      have hblanks := (Cursor.lineBreak?_suffix hbreak).trans (c.span_suffix _)
      exact (plainBreaks_suffix _ _).trans hblanks

theorem plainRuns_suffix (flow : Bool) (indent : Int) (fuel : Nat) (blanks : List Char)
    (crossed : Bool) (c : Cursor) :
    (plainRuns flow indent fuel blanks crossed c).1.after.rest <:+ c.rest := by
  induction fuel generalizing blanks crossed c with
  | zero => exact List.suffix_rfl
  | succ fuel ih =>
      have hspaces := (plainSpaces_suffix (c.skip (plainRun flow c.rest).length)).trans
        (c.skip_suffix _)
      unfold plainRuns
      dsimp only
      split
      · exact List.suffix_rfl
      · split
        · exact hspaces
        · exact (ih _ _ _).trans hspaces

theorem plainScalar_suffix (flow : Bool) (indent : Int) (c : Cursor) :
    (plainScalar flow indent c).1.after.rest <:+ c.rest :=
  plainRuns_suffix flow indent _ [] false c

end Plain

section Block

theorem blockIndentation_suffix (fuel widest : Nat) (c : Cursor) :
    (blockIndentation fuel widest c).2.2.rest <:+ c.rest := by
  induction fuel generalizing widest c with
  | zero => exact List.suffix_rfl
  | succ fuel ih =>
      unfold blockIndentation
      split
      · exact (ih _ _).trans c.next_suffix
      · split
        · exact List.suffix_rfl
        · next hbreak => exact (ih _ _).trans (Cursor.lineBreak?_suffix hbreak)

theorem indentTo_suffix (indent fuel : Nat) (c : Cursor) :
    (indentTo indent fuel c).rest <:+ c.rest := by
  induction fuel generalizing c with
  | zero => exact List.suffix_rfl
  | succ fuel ih =>
      unfold indentTo
      split
      · exact (ih c.next).trans c.next_suffix
      · exact List.suffix_rfl

theorem blockBreaks_suffix (indent fuel : Nat) (c : Cursor) :
    (blockBreaks indent fuel c).2.rest <:+ c.rest := by
  induction fuel generalizing c with
  | zero => exact List.suffix_rfl
  | succ fuel ih =>
      unfold blockBreaks
      dsimp only
      split
      · exact indentTo_suffix indent indent c
      · next hbreak =>
          exact (ih _).trans ((Cursor.lineBreak?_suffix hbreak).trans
            (indentTo_suffix indent indent c))

theorem blockLines_suffix (folded : Bool) (indent fuel : Nat) (empty : List Char) (c : Cursor) :
    (blockLines folded indent fuel empty c).after.rest <:+ c.rest := by
  induction fuel generalizing empty c with
  | zero => exact List.suffix_rfl
  | succ fuel ih =>
      unfold blockLines
      split
      · exact List.suffix_rfl
      · have hnext {after : Cursor} (hafter : after.rest <:+ c.rest) :=
          (blockBreaks_suffix indent (after.rest.length + 1) after).trans hafter
        dsimp only
        split
        · split
          · exact hnext c.line_suffix
          · exact (ih _ _).trans (hnext c.line_suffix)
        · next hbreak =>
            have hended := (Cursor.lineBreak?_suffix hbreak).trans c.line_suffix
            split
            · exact hnext hended
            · exact (ih _ _).trans (hnext hended)

end Block

/-- An error that is one of form, or a defect of the text. -/
def Blames (text : List Char) (e : Error) : Prop :=
  ∀ cause, e = .unreadable cause → ScanDefect text cause

/-- A reader that leaves an end of a text, and that fails, other than for its form, for a defect of
the text. -/
abbrev Scans {α : Type} (text : List Char) (cursor : α → Cursor) : Except Error α → Prop :=
  Stepwise.Yields (fun a => (cursor a).rest <:+ text) (Blames text)

theorem scans_malformed {α : Type} {text : List Char} {cursor : α → Cursor} (cause : Malformed)
    (mark : Mark) : Scans text cursor (.error (.malformed cause mark)) :=
  .error fun _ h => by cases h

section Quoted
variable {text : List Char}

theorem scans_quotedBreaks (fuel : Nat) {c : Cursor} (hc : c.rest <:+ text) :
    Scans text Prod.snd (quotedBreaks fuel c) := by
  induction fuel generalizing c with
  | zero => exact .ok hc
  | succ fuel ih =>
      unfold quotedBreaks
      dsimp only
      split
      · exact scans_malformed _ _
      · have hblanks := (c.skipWhile_suffix fun a => a = ' ' || a = '\t').trans hc
        split
        · exact .ok hblanks
        · next hbreak =>
            exact (ih ((Cursor.lineBreak?_suffix hbreak).trans hblanks)).map fun _ h => h

theorem scans_quotedSpaces {c : Cursor} (hc : c.rest <:+ text) :
    Scans text Prod.snd (quotedSpaces c) := by
  have hspaces := (c.span_suffix fun a => a = ' ' || a = '\t').trans hc
  unfold quotedSpaces
  dsimp only
  split
  · next hbreak =>
      exact (scans_quotedBreaks _ ((Cursor.lineBreak?_suffix hbreak).trans hspaces)).map
        fun _ h => h
  · split
    · exact scans_malformed _ _
    · exact .ok hspaces

theorem defect_of_codePoint {before after : List Char} {letter : Char} {width n : Nat}
    {cause : Unreadable} (htext : text = before ++ '\\' :: letter :: after)
    (hwidth : escapeWidth? letter = some width) (hnumber : hexNumber? width after = some n)
    (h : codePoint n = .error (.unreadable cause)) : ScanDefect text cause := by
  unfold codePoint at h
  split at h
  · cases h
  · next hlarge =>
      split at h
      · next hn =>
          cases h
          exact .character htext hwidth hnumber (Nat.le_of_not_lt hlarge) hn
      · next hn =>
          cases h
          exact .overflow htext hwidth hnumber (Nat.le_of_not_lt hn)

/-- The escape after a backslash. -/
theorem scans_escape {c : Cursor} (hc : '\\' :: c.rest <:+ text) :
    Scans text Prod.snd (escape c) := by
  have hrest : c.rest <:+ text := (List.suffix_cons _ _).trans hc
  unfold escape
  dsimp only
  cases hpeek : c.peek with
  | none => exact scans_malformed _ _
  | some letter =>
      obtain ⟨after, hletter⟩ : ∃ after, c.rest = letter :: after := by
        unfold Cursor.peek at hpeek
        exact List.head?_eq_some_iff.mp hpeek
      have hnext : c.next.rest = after := by simp [Cursor.next, hletter]
      dsimp only
      split
      · exact .ok (c.next_suffix.trans hrest)
      · next width _ hwidth =>
          split
          · exact scans_malformed _ _
          · next n hnumber =>
              have hafter := (Cursor.skip_suffix width c.next).trans (c.next_suffix.trans hrest)
              cases hpoint : codePoint n with
              | ok chars => exact .ok hafter
              | error e =>
                  apply Stepwise.Yields.error
                  rintro cause rfl
                  obtain ⟨before, rfl⟩ := hc
                  rw [hnext] at hnumber
                  exact defect_of_codePoint (by rw [hletter]) hwidth hnumber hpoint
      · split
        · exact scans_malformed _ _
        · next hbreak =>
            exact scans_quotedBreaks _ ((Cursor.lineBreak?_suffix hbreak).trans hrest)

theorem scans_quotedFrom (double : Bool) (fuel : Nat) {c : Cursor} (hc : c.rest <:+ text) :
    Scans text Prod.snd (quotedFrom double fuel c) := by
  induction fuel generalizing c with
  | zero => exact scans_malformed _ _
  | succ fuel ih =>
      have hnext := c.next_suffix.trans hc
      unfold quotedFrom
      cases hpeek : c.peek with
      | none => exact scans_malformed _ _
      | some a =>
          dsimp only
          have hmore {chars : List Char} {after : Cursor} (hafter : after.rest <:+ text) :
              Scans text Prod.snd (quotedFrom double fuel after >>= fun found =>
                .ok (chars ++ found.1, found.2)) :=
            (ih hafter).bind fun _ hfound => .ok hfound
          split
          · exact (scans_quotedSpaces hc).bind fun result hresult => hmore hresult
          · split
            · next hslash =>
                have hslash' : '\\' :: c.next.rest <:+ text := by
                  obtain ⟨rest, hrest⟩ := List.head?_eq_some_iff.mp hpeek
                  simp only [Bool.and_eq_true, decide_eq_true_eq] at hslash
                  rw [hslash.2] at hrest
                  simpa [Cursor.next, hrest] using hc
                exact (scans_escape hslash').bind fun result hresult => hmore hresult
            · split
              · exact .ok hnext
              · split
                · split
                  · have hafter := c.next.next_suffix.trans hnext
                    exact (ih hafter).bind fun result hresult => .ok hresult
                  · exact .ok hnext
                · exact (ih hnext).bind fun result hresult => .ok hresult

theorem scans_quotedScalar (double : Bool) {c : Cursor} (hc : c.rest <:+ text) :
    Scans text ScalarText.after (quotedScalar double c) :=
  (scans_quotedFrom double _ (c.next_suffix.trans hc)).bind fun _ hresult => .ok hresult

end Quoted

section Headers
variable {text : List Char} {c : Cursor}

theorem scans_headerEnd (cause : Malformed) (hc : c.rest <:+ text) :
    Scans text id (headerEnd cause c) := by
  have hspaces := (c.skipWhile_suffix (· = ' ')).trans hc
  have hcomment : (if c.skipSpaces.peek = some '#' then c.skipSpaces.line.2
      else c.skipSpaces).rest <:+ text := by
    split
    · exact (Cursor.line_suffix _).trans hspaces
    · exact hspaces
  unfold headerEnd
  dsimp only
  generalize (if c.skipSpaces.peek = some '#' then c.skipSpaces.line.2 else c.skipSpaces) = c' at *
  split
  · next hbreak => exact .ok ((Cursor.lineBreak?_suffix hbreak).trans hcomment)
  · split
    · exact .ok hcomment
    · exact scans_malformed _ _

theorem scans_blockIndicators (hc : c.rest <:+ text) :
    Scans text (fun r => r.2.2) (blockIndicators c) := by
  have hnext := c.next_suffix.trans hc
  have hnext' := c.next.next_suffix.trans hnext
  have hend (found : Chomping × Option Nat × Cursor) (hafter : found.2.2.rest <:+ text) :
      Scans text (fun r : Chomping × Option Nat × Cursor => r.2.2) (do
        if found.2.1 = some 0 || !endsWord found.2.2.peek then
          throw (.malformed .badBlockHeader found.2.2.mark)
        return found) := by
    split
    · exact scans_malformed _ _
    · exact .ok hafter
  apply hend
  split
  · split
    · exact hnext'
    · exact hnext
  · split
    · split
      · exact hnext'
      · exact hnext
    · exact hc

theorem scans_blockScalar (folded : Bool) (indent : Int) (hc : c.rest <:+ text) :
    Scans text ScalarText.after (blockScalar folded indent c) := by
  unfold blockScalar
  refine (scans_blockIndicators (c.next_suffix.trans hc)).bind ?_
  rintro ⟨chomping, increment, after⟩ hafter
  refine (scans_headerEnd _ hafter).bind ?_
  intro body hbody
  apply Stepwise.Yields.ok
  refine (blockLines_suffix _ _ _ _ _).trans ?_
  cases increment with
  | none => exact (blockIndentation_suffix _ _ _).trans hbody
  | some n => exact (blockBreaks_suffix _ _ _).trans hbody

end Headers

section Properties
variable {text : List Char} {c : Cursor}

theorem scans_anchorName (hc : c.rest <:+ text) : Scans text Prod.snd (anchorName c) := by
  unfold anchorName
  dsimp only
  split
  · exact scans_malformed _ _
  · exact .ok ((Cursor.span_suffix _ _).trans (c.next_suffix.trans hc))

theorem scans_uriBytes (fuel : Nat) (hc : c.rest <:+ text) :
    Scans text Prod.snd (uriBytes fuel c) := by
  induction fuel generalizing c with
  | zero => exact .ok hc
  | succ fuel ih =>
      unfold uriBytes
      split
      · exact .ok hc
      · split
        · exact scans_malformed _ _
        · exact (ih ((c.skip_suffix 3).trans hc)).map fun _ h => h

theorem scans_uriRuns (fuel : Nat) (hc : c.rest <:+ text) :
    Scans text Prod.snd (uriRuns fuel c) := by
  induction fuel generalizing c with
  | zero => exact .ok hc
  | succ fuel ih =>
      have hmore {chars : List Char} {after : Cursor} (hafter : after.rest <:+ text) :
          Scans text Prod.snd (uriRuns fuel after >>= fun found =>
            .ok (chars ++ found.1, found.2)) :=
        (ih hafter).bind fun _ hfound => .ok hfound
      unfold uriRuns
      split
      · refine (scans_uriBytes _ hc).bind ?_
        rintro ⟨bytes, after⟩ hafter
        dsimp only
        split
        · exact scans_malformed _ _
        · exact hmore hafter
      · dsimp only
        split
        · exact .ok hc
        · exact hmore ((c.span_suffix _).trans hc)

theorem scans_uri (hc : c.rest <:+ text) : Scans text Prod.snd (uri c) := by
  unfold uri
  split
  · exact scans_malformed _ _
  · exact (scans_uriRuns _ hc).bind fun result hresult => .ok hresult

theorem scans_tagHandle (hc : c.rest <:+ text) : Scans text Prod.snd (tagHandle c) := by
  have hnext := c.next_suffix.trans hc
  unfold tagHandle
  split
  · exact scans_malformed _ _
  · split
    · exact .ok hnext
    · dsimp only
      split
      · exact scans_malformed _ _
      · exact .ok ((Cursor.next_suffix _).trans ((Cursor.span_suffix _ _).trans hnext))

theorem scans_tagName (hc : c.rest <:+ text) : Scans text (fun r => r.2.2) (tagName c) := by
  have hnext := c.next_suffix.trans hc
  have hend (found : Option String × String × Cursor) (hafter : found.2.2.rest <:+ text) :
      Scans text (fun r : Option String × String × Cursor => r.2.2) (do
        if !endsWord found.2.2.peek then throw (.malformed .badTag found.2.2.mark)
        return found) := by
    split
    · exact scans_malformed _ _
    · exact .ok hafter
  unfold tagName
  split
  · refine (scans_uri ((c.skip_suffix 2).trans hc)).bind ?_
    rintro ⟨suffix, after⟩ hafter
    dsimp only
    split
    · exact scans_malformed _ _
    · exact hend (none, suffix, after.next) (after.next_suffix.trans hafter)
  · split
    · exact hend (none, "!", c.next) hnext
    · have hsuffix {handle : String} {after : Cursor} (hafter : after.rest <:+ text) :=
        (scans_uri hafter).bind fun found hfound => hend (some handle, found.1, found.2) hfound
      dsimp only
      split
      · exact (scans_tagHandle hc).bind fun found hfound => hsuffix hfound
      · exact hsuffix hnext

/-- A cursor stands after the name of a version directive, with blanks and digits between. -/
def AfterVersion (text : List Char) (c : Cursor) : Prop :=
  ∃ before between, text = before ++ "%YAML".toList ++ between ++ c.rest ∧
    ∀ a ∈ between, a = ' ' ∨ a = '.' ∨ a.isDigit = true

theorem AfterVersion.suffix (h : AfterVersion text c) : c.rest <:+ text := by
  obtain ⟨before, between, rfl, _⟩ := h
  exact List.suffix_append _ _

theorem AfterVersion.passes (h : AfterVersion text c) {run : List Char} {after : Cursor}
    (hrun : c.rest = run ++ after.rest) (hchars : ∀ a ∈ run, a = ' ' ∨ a = '.' ∨ a.isDigit = true) :
    AfterVersion text after := by
  obtain ⟨before, between, rfl, hbetween⟩ := h
  refine ⟨before, between ++ run, by simp [hrun], ?_⟩
  intro a ha
  rcases List.mem_append.mp ha with ha | ha
  · exact hbetween a ha
  · exact hchars a ha

theorem scans_versionNumber (hc : AfterVersion text c) :
    Scans text Prod.snd (versionNumber c) ∧
      ∀ n after, versionNumber c = .ok (n, after) → AfterVersion text after := by
  obtain ⟨happend, hdigits⟩ := c.span_append Char.isDigit
  have hafter : AfterVersion text (c.span Char.isDigit).2 :=
    hc.passes happend fun a ha => .inr (.inr (hdigits a ha))
  unfold versionNumber
  dsimp only
  split
  · exact ⟨scans_malformed _ _, fun n after h => by cases h⟩
  · split
    · next hlong =>
        refine ⟨.error ?_, fun n after h => by cases h⟩
        rintro cause hcause
        cases hcause
        obtain ⟨before, between, htext, hbetween⟩ := hc
        rw [happend, ← List.append_assoc] at htext
        exact .version htext hbetween hdigits hlong
    · refine ⟨.ok hafter.suffix, ?_⟩
      intro n after h
      cases h
      exact hafter

theorem scans_versionDirective (hc : AfterVersion text c) :
    Scans text Prod.snd (versionDirective c) := by
  obtain ⟨happend, hspaces⟩ := c.span_append (· = ' ')
  have hblanks : AfterVersion text c.skipSpaces :=
    hc.passes happend fun a ha => .inl (by simpa using hspaces a ha)
  obtain ⟨hmajor, hafter⟩ := scans_versionNumber hblanks
  unfold versionDirective
  cases hnumber : versionNumber c.skipSpaces with
  | error e =>
      exact .error (hmajor.of_eq_error hnumber)
  | ok found =>
      obtain ⟨major, after⟩ := found
      have hversion := hafter major after hnumber
      change Scans text Prod.snd (if after.peek ≠ some '.' then _ else _)
      split
      · exact scans_malformed _ _
      · next hdot =>
          have hnext : AfterVersion text after.next := by
            obtain ⟨rest, hrest⟩ := List.head?_eq_some_iff.mp (not_not.mp hdot)
            have hrun : after.rest = ['.'] ++ after.next.rest := by simp [Cursor.next, hrest]
            exact hversion.passes hrun (by simp)
          refine (scans_versionNumber hnext).1.bind ?_
          rintro ⟨minor, last⟩ hlast
          dsimp only
          split
          · exact scans_malformed _ _
          · exact .ok hlast

theorem scans_tagDirective (hc : c.rest <:+ text) : Scans text Prod.snd (tagDirective c) := by
  unfold tagDirective
  refine (scans_tagHandle ((c.skipWhile_suffix _).trans hc)).bind ?_
  rintro ⟨handle, after⟩ hafter
  dsimp only
  split
  · exact scans_malformed _ _
  · refine (scans_uri ((Cursor.skipWhile_suffix _ _).trans hafter)).bind ?_
    rintro ⟨expansion, after⟩ hafter
    dsimp only
    split
    · exact scans_malformed _ _
    · exact .ok hafter

theorem scans_directiveLine (hpercent : c.peek = some '%') (hc : c.rest <:+ text) :
    Scans text Prod.snd (directiveLine c) := by
  have hnext := c.next_suffix.trans hc
  obtain ⟨happend, _⟩ := c.next.span_append isNameChar
  have hafter := (c.next.span_suffix isNameChar).trans hnext
  have hend {x : Except Error (Directive × Cursor)} (hx : Scans text Prod.snd x) :
      Scans text Prod.snd (x >>= fun found => headerEnd .badDirective found.2 >>= fun last =>
        .ok (found.1, last)) :=
    hx.bind fun found hfound => (scans_headerEnd _ hfound).bind fun last hlast => .ok hlast
  unfold directiveLine
  dsimp only
  split
  · exact scans_malformed _ _
  · split
    · next hname =>
        refine hend (scans_versionDirective ?_)
        obtain ⟨rest, hrest⟩ := List.head?_eq_some_iff.mp hpercent
        obtain ⟨before, htext⟩ := hc
        refine ⟨before, [], ?_, by simp⟩
        have hchars : (c.next.span isNameChar).1 = "YAML".toList := by
          rw [← hname, String.toList_ofList]
        have hpassed : c.next.rest = rest := by simp [Cursor.next, hrest]
        rw [← htext, hrest, ← hpassed, happend, hchars]
        simp
    · exact hend (scans_tagDirective hafter)
    · exact hend (.ok ((Cursor.line_suffix _).trans hafter))

end Properties

namespace Scanner
variable {text : List Char} {s : Scanner}

theorem scans_dropStale (hs : s.cursor.rest <:+ text) : Scans text cursor s.dropStale := by
  unfold dropStale
  split
  · exact scans_malformed _ _
  · exact .ok hs

theorem scans_dropKey (hs : s.cursor.rest <:+ text) : Scans text cursor s.dropKey := by
  unfold dropKey
  split
  · exact .ok hs
  · split
    · exact scans_malformed _ _
    · exact .ok hs

theorem scans_saveKey (hs : s.cursor.rest <:+ text) : Scans text cursor s.saveKey := by
  unfold saveKey
  split
  · exact .ok hs
  · exact (scans_dropKey hs).bind fun after hafter => .ok hafter

theorem cursor_unwind (s : Scanner) (column : Int) : (s.unwind column).cursor = s.cursor := by
  have hclose (outer : List Int) (s : Scanner) :
      (closeBlocks column outer s).cursor = s.cursor := by
    induction outer generalizing s with
    | nil => rfl
    | cons indent rest ih =>
        unfold closeBlocks
        split
        · exact ih _
        · rfl
  unfold unwind
  split
  · rfl
  · exact hclose s.outer s

theorem scans_fetchBlock (kind : TokenKind) (cause : Malformed) (hs : s.cursor.rest <:+ text) :
    Scans text cursor (s.fetchBlock kind cause) := by
  unfold fetchBlock
  split
  · exact .ok hs
  · split
    · exact scans_malformed _ _
    · apply Stepwise.Yields.ok
      unfold openBlock
      split
      · exact hs
      · exact hs

theorem skipToToken_suffix (fuel : Nat) (s : Scanner) :
    (skipToToken fuel s).cursor.rest <:+ s.cursor.rest := by
  induction fuel generalizing s with
  | zero => exact List.suffix_rfl
  | succ fuel ih =>
      have hspaces := s.cursor.skipWhile_suffix (· = ' ')
      have hcomment : (if s.cursor.skipSpaces.peek = some '#' then s.cursor.skipSpaces.line.2
          else s.cursor.skipSpaces).rest <:+ s.cursor.rest := by
        split
        · exact (Cursor.line_suffix _).trans hspaces
        · exact hspaces
      unfold skipToToken
      dsimp only
      split
      · exact hcomment
      · next hbreak => exact (ih _).trans ((Cursor.lineBreak?_suffix hbreak).trans hcomment)

/-- After a key is given up, some characters are taken. -/
theorem scans_take {x : Except Error Scanner} (hx : Scans text cursor x) {f : Scanner → Scanner}
    (hf : ∀ s, ∃ n, (f s).cursor = s.cursor.skip n) :
    Scans text cursor (x >>= fun s => .ok (f s)) := by
  refine hx.bind fun after hafter => .ok ?_
  obtain ⟨n, hn⟩ := hf after
  rw [hn]
  exact (Cursor.skip_suffix n _).trans hafter

theorem scans_fetchNode {read : Scanner → Except Error (TokenKind × Cursor)}
    (hread : ∀ s : Scanner, s.cursor.rest <:+ text → Scans text Prod.snd (read s))
    (hs : s.cursor.rest <:+ text) : Scans text cursor (s.fetchNode read) :=
  (scans_saveKey hs).bind fun after hafter => (hread after hafter).bind fun _ hresult => .ok hresult

theorem scans_fetchValue (hs : s.cursor.rest <:+ text) : Scans text cursor s.fetchValue := by
  unfold fetchValue
  split
  · have hskip := (s.cursor.skip_suffix 1).trans hs
    apply Stepwise.Yields.ok
    dsimp only [take, push, insertAt]
    split
    · exact hskip
    · exact hskip
  · exact (scans_fetchBlock _ _ hs).bind fun opened hopened =>
      scans_take (scans_dropKey hopened) fun s => ⟨1, rfl⟩

theorem scans_fetchPlain (hs : s.cursor.rest <:+ text) : Scans text cursor s.fetchPlain := by
  refine (scans_saveKey hs).bind fun after hafter => .ok ?_
  exact (plainScalar_suffix after.inFlow (after.indent + 1) after.cursor).trans hafter

theorem scans_fetchBlockScalar (folded : Bool) (hs : s.cursor.rest <:+ text) :
    Scans text cursor (s.fetchBlockScalar folded) :=
  (scans_dropKey hs).bind fun after hafter =>
    (scans_blockScalar folded after.indent hafter).bind fun _ hresult => .ok hresult

theorem scans_fetchAnchor (kind : String → TokenKind) (hs : s.cursor.rest <:+ text) :
    Scans text cursor (s.fetchAnchor kind) :=
  scans_fetchNode (fun _ hc => (scans_anchorName hc).bind fun _ hresult => .ok hresult) hs

theorem scans_fetchTag (hs : s.cursor.rest <:+ text) : Scans text cursor s.fetchTag :=
  scans_fetchNode (fun _ hc => (scans_tagName hc).bind fun _ hresult => .ok hresult) hs

theorem scans_fetchQuoted (double : Bool) (hs : s.cursor.rest <:+ text) :
    Scans text cursor (s.fetchQuoted double) :=
  scans_fetchNode (fun _ hc => (scans_quotedScalar double hc).bind fun _ hresult => .ok hresult) hs

theorem scans_fetchDirective (hpercent : s.cursor.peek = some '%') (hs : s.cursor.rest <:+ text) :
    Scans text cursor s.fetchDirective := by
  unfold fetchDirective
  have hcursor := cursor_unwind s (-1)
  generalize s.unwind (-1) = s₁ at hcursor
  rw [← hcursor] at hpercent hs
  -- Giving up a key does not move the cursor.
  cases hdrop : s₁.dropKey with
  | error e =>
      exact .error ((scans_dropKey hs).of_eq_error hdrop)
  | ok s₂ =>
      have hsame : s₂.cursor = s₁.cursor := by
        unfold dropKey at hdrop
        split at hdrop
        · cases hdrop
          rfl
        · split at hdrop
          · cases hdrop
          · cases hdrop
            rfl
      rw [← hsame] at hpercent hs
      exact (scans_directiveLine hpercent hs).bind fun _ hresult => .ok hresult

/-- One more token leaves an end of the text. -/
theorem scans_fetch (hs : s.cursor.rest <:+ text) : Scans text cursor s.fetch := by
  unfold fetch
  have hmark : (if s.cursor.mark.index = 0 && s.cursor.peek = some '\ufeff' then
      { s with cursor := s.cursor.next } else s).cursor.rest <:+ text := by
    split
    · exact s.cursor.next_suffix.trans hs
    · exact hs
  dsimp only
  generalize (if s.cursor.mark.index = 0 && s.cursor.peek = some '\ufeff' then
      { s with cursor := s.cursor.next } else s) = s₁ at hmark ⊢
  refine (scans_dropStale ((skipToToken_suffix _ _).trans hmark)).bind ?_
  intro s₂ hs₂
  have hs₃ : (s₂.unwind s₂.cursor.column).cursor.rest <:+ text := by
    rw [cursor_unwind]
    exact hs₂
  generalize s₂.unwind s₂.cursor.column = s₃ at hs₃
  have hunwound : Scans text cursor (s₃.unwind (-1)).dropKey := by
    apply scans_dropKey
    rw [cursor_unwind]
    exact hs₃
  split
  · exact hunwound.bind fun after hafter => .ok hafter
  · next c hpeek =>
      refine .ite (fun hpercent => ?_) fun _ => ?_
      · simp only [Bool.and_eq_true, decide_eq_true_eq] at hpercent
        rw [hpercent.1] at hpeek
        exact scans_fetchDirective hpeek hs₃
      have hflowStart (kind : TokenKind) : Scans text cursor (s₃.fetchFlowStart kind) :=
        scans_take (scans_saveKey hs₃) fun s => ⟨1, rfl⟩
      have hflowEnd (kind : TokenKind) : Scans text cursor (s₃.fetchFlowEnd kind) :=
        scans_take (scans_dropKey hs₃) fun s => ⟨1, rfl⟩
      have hblock (kind : TokenKind) (cause : Malformed) {f : Scanner → Scanner}
          (hf : ∀ s, ∃ n, (f s).cursor = s.cursor.skip n) :
          Scans text cursor
            (s₃.fetchBlock kind cause >>= fun s => s.dropKey >>= fun s => .ok (f s)) :=
        (scans_fetchBlock kind cause hs₃).bind fun _ hopened =>
          scans_take (scans_dropKey hopened) hf
      refine .ite (fun _ => scans_take hunwound fun s => ⟨3, rfl⟩) fun _ => ?_
      refine .ite (fun _ => hflowStart .flowSequenceStart) fun _ => ?_
      refine .ite (fun _ => hflowStart .flowMappingStart) fun _ => ?_
      refine .ite (fun _ => hflowEnd .flowSequenceEnd) fun _ => ?_
      refine .ite (fun _ => hflowEnd .flowMappingEnd) fun _ => ?_
      refine .ite (fun _ => scans_take (scans_dropKey hs₃) fun s => ⟨1, rfl⟩) fun _ => ?_
      refine .ite (fun _ => hblock _ _ fun s => ⟨1, rfl⟩) fun _ => ?_
      refine .ite (fun _ => hblock _ _ fun s => ⟨1, rfl⟩) fun _ => ?_
      refine .ite (fun _ => scans_fetchValue hs₃) fun _ => ?_
      refine .ite (fun _ => scans_fetchAnchor .alias hs₃) fun _ => ?_
      refine .ite (fun _ => scans_fetchAnchor .anchor hs₃) fun _ => ?_
      refine .ite (fun _ => scans_fetchTag hs₃) fun _ => ?_
      refine .ite (fun _ => scans_fetchBlockScalar false hs₃) fun _ => ?_
      refine .ite (fun _ => scans_fetchBlockScalar true hs₃) fun _ => ?_
      refine .ite (fun _ => scans_fetchQuoted false hs₃) fun _ => ?_
      refine .ite (fun _ => scans_fetchQuoted true hs₃) fun _ => ?_
      exact .ite (fun _ => scans_fetchPlain hs₃) fun _ => scans_malformed _ _

end Scanner

/-- One step leaves an end of the text. -/
theorem TokenStream.scans_step {text : List Char} {s : Scanner} (hs : s.cursor.rest <:+ text) :
    Scans text (fun found : Option Token × Scanner => found.2.cursor) (step s) := by
  have hfetch {s : Scanner} (hs : s.cursor.rest <:+ text) :
      Scans text (fun found : Option Token × Scanner => found.2.cursor)
        (s.fetch >>= fun s => .ok (none, s)) :=
    (Scanner.scans_fetch hs).bind fun _ hafter => .ok hafter
  unfold step
  split
  · exact hfetch hs
  · refine (Scanner.scans_dropStale hs).bind fun after hafter => ?_
    exact .ite (fun _ => hfetch hafter) fun _ => .ok hafter

/-- The error of a token stream, other than one of its form, is a defect of the text. -/
theorem TokenStream.defect_of_collect {text : List Char} {fuel : Nat} {s : Scanner}
    (hs : s.cursor.rest <:+ text) {cause : Unreadable}
    (h : (collect fuel s).error = some (.unreadable cause)) : ScanDefect text cause := by
  induction fuel generalizing s with
  | zero => cases h
  | succ fuel ih =>
      unfold collect at h
      split at h
      · cases h
      · split at h
        · next e he => exact (scans_step hs).of_eq_error he cause (Option.some.inj h)
        · next token s' hs' => exact ih ((scans_step hs).of_eq_ok hs') h

theorem TokenStream.defect_of_ofText {text : List Char} {cause : Unreadable}
    (h : (ofText text).error = some (.unreadable cause)) : ScanDefect text cause := by
  unfold ofText at h
  split at h
  · exact defect_of_collect List.suffix_rfl h
  · cases h

end VoiceIntents.Yaml
