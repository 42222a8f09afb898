import VoiceIntents.Proofs.Faults
import VoiceIntents.Proofs.IntentNames
import VoiceIntents.Proofs.Oversized
import VoiceIntents.Proofs.Planning
import VoiceIntents.Proofs.ValuelessNodes

/-!
# Contents without a report

What the files of a command can hold that no report is made for. A manifest that is no text, or
holds something that is too large; a context with a part that has no value, with a name that is too
long to be shown, or with an item of too many levels; and a phrase that is repeated and holds half
of a pair of code units, which no warning can be written with.
-/

namespace VoiceIntents

/-- Decoding fails on the bytes that no text has. -/
theorem Text.Utf8.exists_fault_iff {data : List UInt8} :
    (∃ fault, decode data = .error fault) ↔ ∀ text, data ≠ encode text := by
  constructor
  · rintro ⟨fault, hfault⟩ text rfl
    rw [decode_eq_ok_iff.mpr rfl] at hfault
    cases hfault
  · intro h
    cases hdata : decode data with
    | error fault => exact ⟨fault, rfl⟩
    | ok text => exact absurd (decode_eq_ok_iff.mp hdata) (h text)

theorem Look.text_eq_encoding_iff {found : Look} {fault : Text.Utf8.Fault} :
    found.text = .error (.encoding fault) ↔
      ∃ data, found = .ok (.file data) ∧ Text.Utf8.decode data = .error fault := by
  cases found with
  | error e => simp [Look.text]
  | ok entry =>
      cases entry with
      | directory => simp [Look.text]
      | file data => cases hdata : Text.Utf8.decode data <;> simp [Look.text, hdata]

theorem Look.text_eq_nullCharacter_iff {found : Look} :
    found.text = .error (.file .nullCharacter) ↔ found = .error .nullCharacter := by
  cases found with
  | error e => simp [Look.text]
  | ok entry =>
      cases entry with
      | directory => simp [Look.text]
      | file data => cases hdata : Text.Utf8.decode data <;> simp [Look.text, hdata]

/-!
## Manifests
-/

namespace Manifest
variable [Host]

/-- The errors of a manifest that have no report, by what is found at its path. -/
inductive SilentError (found : Look) : ManifestError → Prop
  | bytes {fault : Text.Utf8.Fault} (hread : found.text = .error (.encoding fault)) :
      SilentError found (.undecodable fault)
  | null (hread : found.text = .error (.file .nullCharacter)) : SilentError found .nullCharacter
  | value {text : String} {cause : Toml.Unreadable} (hread : found.text = .ok text)
      (hlarge : Toml.Oversized Host.nestingRoom (Text.dropReturns text.toList) cause)
      (hvalue : Toml.readDocument text = .error (.unreadable cause)) :
      SilentError found (.unreadable cause)

theorem ofText_silent {path : Path} {text : String} {e : ManifestError}
    (h : ofText path text = .error e) (hnone : e.report? = none) :
    ∃ cause, e = .unreadable cause ∧ Toml.readDocument text = .error (.unreadable cause) := by
  unfold ofText at h
  split at h
  · next entries _ =>
      cases hentries : ofEntries path.parent entries with
      | ok manifest => simp [hentries, Except.mapError] at h
      | error fault =>
          rw [hentries] at h
          rw [← Except.error.inj h] at hnone
          cases hnone
  · next cause hvalue => exact ⟨cause, (Except.error.inj h).symm, hvalue⟩
  · rw [← Except.error.inj h] at hnone
    cases hnone

theorem load_silent_iff (path : Path) {found : Look} {e : ManifestError} :
    load path found = .error e ∧ e.report? = none ↔ SilentError found e := by
  constructor
  · rintro ⟨h, hnone⟩
    unfold load at h
    split at h
    · next text hread =>
        obtain ⟨cause, rfl, hvalue⟩ := ofText_silent h hnone
        exact .value hread (Toml.oversized_of_readDocument hvalue) hvalue
    · next fault hread =>
        rw [← Except.error.inj h]
        exact .bytes hread
    · next hread =>
        rw [← Except.error.inj h]
        exact .null hread
    · rw [← Except.error.inj h] at hnone
      cases hnone
  · intro h
    cases h with
    | bytes hread => simp [load, hread, ManifestError.report?]
    | null hread => simp [load, hread, ManifestError.report?]
    | value hread _ hvalue => simp [load, hread, ofText, hvalue, ManifestError.report?]

/-- A manifest that is a file fails without a report where it is no text, or holds something too
large. -/
theorem load_file_silent_iff {path : Path} {data : List UInt8} :
    (∃ e, load path (.ok (.file data)) = .error e ∧ e.report? = none) ↔
      (∀ text, data ≠ Text.Utf8.encode text) ∨
      ∃ text cause, data = Text.Utf8.encode text ∧
        Toml.Oversized Host.nestingRoom (Text.dropReturns (Text.universalLines text).toList) cause ∧
        Toml.readDocument (Text.universalLines text) = .error (.unreadable cause) := by
  simp only [load_silent_iff]
  constructor
  · rintro ⟨e, h⟩
    cases h with
    | @bytes fault hread =>
        obtain ⟨_, hlook, hdata⟩ := Look.text_eq_encoding_iff.mp hread
        cases hlook
        exact .inl (Text.Utf8.exists_fault_iff.mp ⟨fault, hdata⟩)
    | null hread => cases Look.text_eq_nullCharacter_iff.mp hread
    | value hread hlarge hvalue =>
        obtain ⟨text, rfl, rfl⟩ := Look.text_file_eq_ok_iff.mp hread
        exact .inr ⟨text, _, rfl, hlarge, hvalue⟩
  · rintro (hbytes | ⟨text, cause, rfl, hlarge, hvalue⟩)
    · obtain ⟨fault, hdata⟩ := Text.Utf8.exists_fault_iff.mpr hbytes
      exact ⟨_, .bytes (Look.text_eq_encoding_iff.mpr ⟨data, rfl, hdata⟩)⟩
    · exact ⟨_, .value (Look.text_file_eq_ok_iff.mpr ⟨text, rfl, rfl⟩) hlarge hvalue⟩

end Manifest

/-!
## Levels

The value of a context has no text where something is left out of it, and only an item with too many
levels is left out.
-/

namespace Yaml.Document

/-- The items of the lists that a selection reaches. -/
inductive Selects [Listing] (d : Document) : List (Scalar → Bool) → Item → Item → Prop
  | item {item inner : Item} {items : List Item} (hview : d.view item = .list items)
      (h : inner ∈ items) : Selects d [] item inner
  | entry {asked : Scalar → Bool} {deeper : List (Scalar → Bool)} {item next inner : Item}
      {entries : List (Scalar × Item)} {key : Scalar} (hview : d.view item = .map entries)
      (hentry : (key, next) ∈ entries) (hkey : asked key = true) (h : Selects d deeper next inner) :
      Selects d (asked :: deeper) item inner

/-- A value that is there, and of which nothing is left out. -/
def Whole (v : Option Value) : Prop := ∀ a, v = some a → ¬ a.Holds .deep

theorem whole_some {v : Value} (h : ¬ v.Holds .deep) : Whole (some v) := by
  intro a ha
  cases ha
  exact h

/-- A computation whose result has a property and that knows nothing but whole values. -/
def KeepsWhole {α : Type} (P : α → Prop) (x : StateM Known α) : Prop :=
  ∀ known : Known, (∀ e ∈ known, Whole e.2) →
    P (x.run known).1 ∧ ∀ e ∈ (x.run known).2, Whole e.2

section KeepsWhole
variable {α β : Type} {P : α → Prop} {Q : β → Prop}

theorem keepsWhole_pure {a : α} (h : P a) : KeepsWhole P (pure a) := fun _ hknown => ⟨h, hknown⟩

theorem KeepsWhole.bind {x : StateM Known α} {f : α → StateM Known β} (hx : KeepsWhole P x)
    (hf : ∀ a, P a → KeepsWhole Q (f a)) : KeepsWhole Q (x >>= f) := by
  intro known hknown
  obtain ⟨ha, hafter⟩ := hx known hknown
  exact hf _ ha _ hafter

theorem keepsWhole_mapM {f : α → StateM Known β} {items : List α}
    (h : ∀ a ∈ items, KeepsWhole Q (f a)) : KeepsWhole (fun results => ∀ b ∈ results, Q b)
      (items.mapM f) := by
  induction items with
  | nil => exact keepsWhole_pure (by simp)
  | cons a rest ih =>
      obtain ⟨ha, hrest⟩ := List.forall_mem_cons.mp h
      rw [List.mapM_cons]
      refine ha.bind fun b hb => (ih hrest).bind fun results hresults => ?_
      exact keepsWhole_pure (List.forall_mem_cons.mpr ⟨hb, hresults⟩)

theorem keepsWhole_recall (item : Item) {make : StateM Known (Option Value)}
    (h : KeepsWhole Whole make) : KeepsWhole Whole (Known.recall item make) := by
  intro known hknown
  cases hlookup : known.lookup item with
  | some value =>
      have hrun : (Known.recall item make).run known = (value, known) := by
        simp only [Known.recall, StateT.run_bind, StateT.run_get, pure_bind, hlookup]
        rfl
      rw [hrun]
      obtain ⟨before, after, rfl, _⟩ := List.lookup_eq_some_iff.mp hlookup
      exact ⟨hknown (item, value) (by simp), hknown⟩
  | none =>
      obtain ⟨hvalue, hafter⟩ := h known hknown
      rcases hmake : make.run known with ⟨value, after⟩
      have hrun : (Known.recall item make).run known = (value, (item, value) :: after) := by
        simp only [Known.recall, StateT.run_bind, StateT.run_get, pure_bind, hlookup, hmake]
        rfl
      rw [hmake] at hvalue hafter
      rw [hrun]
      exact ⟨hvalue, List.forall_mem_cons.mpr ⟨hvalue, hafter⟩⟩

end KeepsWhole

theorem whole_of_mapM_id {values : List (Option Value)} (h : ∀ v ∈ values, Whole v)
    {all : List Value} (hall : values.mapM id = some all) : ∀ v ∈ all, ¬ v.Holds .deep := by
  induction values generalizing all with
  | nil =>
      cases hall
      simp
  | cons v rest ih =>
      obtain ⟨hv, hrest⟩ := List.forall_mem_cons.mp h
      rw [List.mapM_cons] at hall
      obtain ⟨a, ha, hall⟩ := Option.bind_eq_some_iff.mp hall
      obtain ⟨others, hothers, hall⟩ := Option.bind_eq_some_iff.mp hall
      cases hall
      exact List.forall_mem_cons.mpr ⟨hv a ha, ih hrest hothers⟩

theorem whole_list {items : List Value} (h : ∀ v ∈ items, ¬ v.Holds .deep) :
    ¬ (Value.list items).Holds .deep := by
  rintro (_ | _ | ⟨hv, hdeep⟩)
  exact h _ hv hdeep

theorem whole_map {entries : List (Scalar × Value)} (h : ∀ e ∈ entries, ¬ e.2.Holds .deep) :
    ¬ (Value.map entries).Holds .deep := by
  intro hdeep
  cases hdeep with
  | entry hv hin => exact h _ hv hin

theorem whole_pair {v w : Value} (hv : ¬ v.Holds .deep) (hw : ¬ w.Holds .deep) :
    ¬ (Value.pair v w).Holds .deep := by
  intro hdeep
  cases hdeep with
  | first hin => exact hv hin
  | second hin => exact hw hin

section Values
variable [Listing] (d : Document)

theorem keepsWhole_share (fuel : Nat) (path : List Item) (item : Item) :
    KeepsWhole Whole (d.share fuel path item) := by
  induction fuel generalizing path item with
  | zero => exact keepsWhole_pure (by simp [Whole])
  | succ fuel ih =>
      unfold share
      dsimp only
      split
      · exact keepsWhole_pure (by simp [Whole])
      · split
        · exact keepsWhole_pure (whole_some (by rintro ⟨⟩))
        · exact keepsWhole_pure (whole_some (by rintro ⟨⟩))
        · refine keepsWhole_recall item ((keepsWhole_mapM fun a _ => ih _ a).bind ?_)
          intro values hvalues
          refine keepsWhole_pure ?_
          intro v hv
          obtain ⟨all, hall, rfl⟩ := Option.map_eq_some_iff.mp hv
          exact whole_list (whole_of_mapM_id hvalues hall)
        · refine keepsWhole_recall item ((keepsWhole_mapM fun a _ => ih _ a.2).bind ?_)
          intro values hvalues
          refine keepsWhole_pure ?_
          intro v hv
          obtain ⟨all, hall, rfl⟩ := Option.map_eq_some_iff.mp hv
          refine whole_map ?_
          rintro ⟨k, v⟩ he
          exact whole_of_mapM_id hvalues hall v (List.of_mem_zip he).2
        · next first second hview =>
            refine keepsWhole_recall item ((ih _ first).bind fun a ha => (ih _ second).bind ?_)
            intro b hb
            refine keepsWhole_pure ?_
            intro v hv
            obtain ⟨x, hx, hv⟩ := Option.bind_eq_some_iff.mp hv
            obtain ⟨y, hy, rfl⟩ := Option.map_eq_some_iff.mp hv
            exact whole_pair (ha x hx) (hb y hy)

theorem whole_unfold (fuel : Nat) (path : List Item) (item : Item) :
    ¬ (d.unfold fuel path item).Holds .deep := by
  induction fuel generalizing path item with
  | zero => rintro ⟨⟩
  | succ fuel ih =>
      unfold Document.unfold
      dsimp only
      split
      · rintro ⟨⟩
      · rintro ⟨⟩
      · rintro ⟨⟩
      · exact whole_list (List.forall_mem_map.mpr fun i _ => ih _ i)
      · exact whole_map (List.forall_mem_map.mpr fun e _ => ih _ e.2)
      · exact whole_pair (ih _ _) (ih _ _)

theorem whole_wholeValue (item : Item) : ¬ (d.wholeValue item).Holds .deep := by
  unfold wholeValue
  split
  · next value h => exact (keepsWhole_share d _ _ item [] (by simp)).1 value h
  · exact whole_unfold d _ _ _

/-- A selection leaves something out only where the items of its lists have too many levels. -/
theorem levels_of_select [Host] {keys : List (Scalar → Bool)} {item : Item}
    (h : (d.select keys item).Holds .deep) :
    ∃ inner, d.Selects keys item inner ∧ Host.levelRoom < (d.wholeValue inner).levels := by
  have hnull : ¬ Value.null.Holds .deep := by rintro ⟨⟩
  have houtline (item : Item) : ¬ (d.outline item).Holds .deep := by
    unfold outline
    split
    · rintro ⟨⟩
    · rintro ⟨⟩
    · exact whole_list (List.forall_mem_map.mpr fun _ _ => hnull)
    · exact whole_map (List.forall_mem_map.mpr fun _ _ => hnull)
    · exact whole_pair hnull hnull
  induction keys generalizing item with
  | nil =>
      unfold select at h
      split at h
      · next items hview =>
          cases h with
          | item hv hdeep =>
              obtain ⟨inner, hinner, rfl⟩ := List.mem_map.mp hv
              refine ⟨inner, .item hview hinner, ?_⟩
              unfold itemValue at hdeep
              dsimp only at hdeep
              split at hdeep
              · exact absurd hdeep (d.whole_wholeValue inner)
              · next hlevels =>
                  simp only [Bool.or_eq_true, decide_eq_true_eq, not_or, Nat.not_le] at hlevels
                  exact hlevels.2
      · exact absurd h (houtline item)
  | cons asked deeper ih =>
      unfold select at h
      split at h
      · next entries hview =>
          cases h with
          | entry hv hdeep =>
              obtain ⟨⟨key, next⟩, hentry, heq⟩ := List.mem_map.mp hv
              cases heq
              obtain ⟨hentry, hkey⟩ := List.mem_filter.mp hentry
              obtain ⟨inner, hselects, hlevels⟩ := ih hdeep
              exact ⟨inner, .entry hview hentry hkey hselects, hlevels⟩
      · exact absurd h (houtline item)

end Values

end Yaml.Document

/-!
## Contexts
-/

namespace Context
variable [Host]

/-- A document fails without a report where it has no value. -/
theorem load_silent_iff {source : Option String} {text : String} {e : ContextError} :
    load source text = .error e ∧ e.report? = none ↔
      ∃ cause, e = .unreadable cause ∧
        Yaml.readDocument Yaml.ImplicitRule.literal .refused text = .error (.unreadable cause) := by
  constructor
  · rintro ⟨h, hnone⟩
    unfold load at h
    split at h
    · split at h
      · rw [← Except.error.inj h] at hnone
        cases hnone
      · cases h
    · rw [← Except.error.inj h] at hnone
      cases hnone
    · next cause hvalue => exact ⟨cause, (Except.error.inj h).symm, hvalue⟩
    · rw [← Except.error.inj h] at hnone
      cases hnone
  · rintro ⟨cause, rfl, hvalue⟩
    simp [load, hvalue, ContextError.report?]

variable [Listing]

/-- What stands in the lists of a context that has no text, with the reason for it: an integer with
too many digits, or an item with too many levels. -/
inductive Unshown (d : Yaml.Document) : DisplayFault → Prop
  | tooLong {n : Int} (hin : (value d).Holds (.scalar (.int n))) (h : TooLong n) :
      Unshown d .tooManyDigits
  | tooDeep {inner : Yaml.Item} (hin : d.Selects keys d.root inner)
      (h : Host.levelRoom < (d.wholeValue inner).levels) : Unshown d .tooDeep

/-- The errors of a context that have no report, by what its text holds. -/
inductive SilentError (source : Option String) (text : String) : ContextError → Prop
  | unreadable {cause : Yaml.Unreadable}
      (hvalueless : Yaml.Valueless Yaml.ImplicitRule.literal text cause)
      (hread : Yaml.readDocument Yaml.ImplicitRule.literal .refused text =
        .error (.unreadable cause)) : SilentError source text (.unreadable cause)
  | unprintable {d : Yaml.Document} {cause : DisplayFault} (hload : load source text = .ok d)
      (hunshown : Unshown d cause)
      (hvalue : Grammar.ofValue source (value d) = .error (.unprintable cause)) :
      SilentError source text (.build (.unprintable cause))

theorem grammar_eq_error_iff {source : Option String} {text : String} {e : ContextError} :
    grammar source text = .error e ↔ load source text = .error e ∨
      ∃ d cause, load source text = .ok d ∧ Grammar.ofValue source (value d) = .error cause ∧
        e = .build cause := by
  rw [grammar, Stepwise.bind_eq_error_iff]
  apply or_congr_right
  apply exists_congr
  intro d
  cases Grammar.ofValue source (value d) with
  | ok g => simp [pure, Except.pure]
  | error cause => simp [throw, throwThe, MonadExceptOf.throw, eq_comm]

theorem unshown_of_ofValue {source : Option String} {d : Yaml.Document} {cause : DisplayFault}
    (h : Grammar.ofValue source (value d) = .error (.unprintable cause)) : Unshown d cause := by
  cases Grammar.genuine_of_ofValue_eq_error h with
  | textless htextless =>
      obtain ⟨part, hpart, hin⟩ := htextless
      cases hpart with
      | tooLong hlong => exact .tooLong hin hlong
      | tooDeep =>
          obtain ⟨inner, hinner, hlevels⟩ := d.levels_of_select hin
          exact .tooDeep hinner hlevels

/-- A grammar fails without a report where its document does, or where a name in it has no
text. -/
theorem grammar_silent_iff {source : Option String} {text : String} {e : ContextError} :
    grammar source text = .error e ∧ e.report? = none ↔ SilentError source text e := by
  constructor
  · rintro ⟨h, hnone⟩
    rcases grammar_eq_error_iff.mp h with hload | ⟨d, cause, hload, hvalue, rfl⟩
    · obtain ⟨cause, rfl, hread⟩ := load_silent_iff.mp ⟨hload, hnone⟩
      exact .unreadable (Yaml.valueless_of_readDocument hread) hread
    · cases cause with
      | invalid fault location => cases hnone
      | unprintable cause => exact .unprintable hload (unshown_of_ofValue hvalue) hvalue
  · intro h
    cases h with
    | unreadable _ hread =>
        obtain ⟨hload, hnone⟩ := load_silent_iff.mpr ⟨_, rfl, hread⟩
        exact ⟨grammar_eq_error_iff.mpr (.inl hload), hnone⟩
    | unprintable hload _ hvalue =>
        exact ⟨grammar_eq_error_iff.mpr (.inr ⟨_, _, hload, hvalue, rfl⟩), rfl⟩

theorem compile_eq_error_iff {source project : Option String} {text : String} {e : ContextError} :
    compile source project text = .error e ↔ grammar source text = .error e := by
  rw [compile, Stepwise.bind_eq_error_iff]
  constructor
  · rintro (h | ⟨g, _, h⟩)
    · exact h
    · cases h
  · exact .inl

theorem compile_silent_iff {source project : Option String} {text : String} {e : ContextError} :
    compile source project text = .error e ∧ e.report? = none ↔ SilentError source text e := by
  rw [compile_eq_error_iff]
  exact grammar_silent_iff

/-- A context is not compiled where a scalar of it is met that its tag refuses. -/
theorem compile_ne_ok {source project : Option String} {text own : String} {g : Yaml.Graph}
    {root id : Yaml.NodeId} {cause : Yaml.Unreadable}
    (hgraph : Yaml.Graph.ofText Yaml.ImplicitRule.literal text = .ok (g, some root))
    (hmet : g.Met root id) (hcontent : (g.node id).content = .scalar own)
    (hrefuses : (g.tag id).Refuses own.toList cause) (result : String) :
    compile source project text ≠ .ok result := by
  intro h
  obtain ⟨_, hgrammar, _⟩ := Stepwise.bind_eq_ok_iff.mp h
  obtain ⟨d, hload, _⟩ := grammar_eq_ok_iff.mp hgrammar
  unfold load at hload
  split at hload
  · next hread => exact Yaml.readDocument_ne_ok hgraph hmet hcontent hrefuses _ hread
  all_goals cases hload

end Context

/-!
## Warnings

The names of slots and intents are identifiers, which hold no mark. A warning has a half in it where
it quotes a phrase that has one.
-/

namespace Text

theorem isHalf_toNat (c : Char) : isHalf c.toNat = false := by
  have h := c.valid
  simp only [isHalf, Bool.and_eq_false_iff, decide_eq_false_iff_not]
  change Nat.isValidChar c.toNat at h
  unfold Nat.isValidChar at h
  omega

/-- A text without a mark has no halves, whatever follows it. -/
theorem any_isHalf_codes_append {front : List Char} (h : halfMark ∉ front) (back : List Char) :
    (codes (front ++ back)).any isHalf = (codes back).any isHalf := by
  induction front with
  | nil => rfl
  | cons a rest ih =>
      obtain ⟨ha, hrest⟩ := not_or.mp (List.mem_cons.not.mp h)
      rw [List.cons_append, ← ih hrest]
      cases hmore : rest ++ back with
      | nil => simp [codes, isHalf_toNat]
      | cons b more => simp [codes, Ne.symm ha, isHalf_toNat]

/-- A character after a text makes no half of a mark at its end, unless it stands for one. -/
theorem any_isHalf_codes_concat {c : Char} (hmark : c ≠ halfMark)
    (hc : isHalf (c.toNat - halfShift) = false) (text : List Char) :
    (codes (text ++ [c])).any isHalf = (codes text).any isHalf := by
  fun_induction codes text with
  | case1 a b rest h ih => simp [codes, h, ih]
  | case2 a b rest h hhalf ih => simp [codes, h, hhalf, ih]
  | case3 a b rest h hhalf ih =>
      rw [List.cons_append, List.cons_append, codes, if_neg h, if_neg hhalf, List.any_cons,
        List.any_cons, ← ih]
      rfl
  | case4 a => simp [codes, hmark, hc, isHalf_toNat]
  | case5 => simp [codes, isHalf_toNat]

theorem hasHalf_of_not_mem {text : String} (h : halfMark ∉ text.toList) : hasHalf text = false := by
  rw [hasHalf, ← List.append_nil text.toList, any_isHalf_codes_append h]
  rfl

end Text

namespace Grammar
variable {g : Grammar} {w : Warning}

theorem halfMark_not_mem_of_usable {name : String} (h : Identifier.Usable name) :
    Text.halfMark ∉ name.toList :=
  h.not_mem (by decide +kernel)

/-- A warning on a repeated phrase has a half where the phrase has one. -/
theorem hasHalf_repeatedPhrase {intent : String} (hintent : Identifier.Usable intent)
    (phrase : String) :
    Text.hasHalf (Warning.repeatedPhrase intent phrase).describe = Text.hasHalf phrase := by
  have hfront : Text.halfMark ∉
      "Intent '".toList ++ intent.toList ++ "' repeats expression '".toList := by
    simp only [List.mem_append, not_or]
    exact ⟨⟨by decide, halfMark_not_mem_of_usable hintent⟩, by decide⟩
  have htext : (Warning.repeatedPhrase intent phrase).describe.toList =
      ("Intent '".toList ++ intent.toList ++ "' repeats expression '".toList) ++
        (phrase.toList ++ ['\'']) := by
    simp [Warning.describe, named]
  rw [Text.hasHalf, htext, Text.any_isHalf_codes_append hfront,
    Text.any_isHalf_codes_concat (by decide) (by decide)]
  rfl

theorem repeats_eq_repeatedPhrase {intent : String} {before rest : List String}
    (h : w ∈ repeats intent before rest) : ∃ phrase, w = .repeatedPhrase intent phrase := by
  induction rest generalizing before with
  | nil => cases h
  | cons phrase rest ih =>
      rcases List.mem_append.mp h with h | h
      · split at h
        · exact ⟨phrase, List.mem_singleton.mp h⟩
        · cases h
      · exact ih h

/-- A warning with a half is on a repeated phrase, which has the half. -/
theorem half_of_mem_lint (hg : g.WellFormed) (hw : w ∈ g.lint) :
    Text.hasHalf w.describe = true ↔
      ∃ intent phrase, w = .repeatedPhrase intent phrase ∧ Text.hasHalf phrase = true := by
  rcases List.mem_append.mp hw with hslot | hintent
  · obtain ⟨s, hs, hw⟩ := List.mem_flatMap.mp hslot
    have hname := halfMark_not_mem_of_usable (hg.slots_usable s hs)
    have hkind : w = .unusedSlot s.name ∨ w = .emptySlot s.name := by
      unfold lintSlot at hw
      rcases List.mem_append.mp hw with hw | hw
      · split at hw
        · cases hw
        · exact .inl (List.mem_singleton.mp hw)
      · split at hw
        · exact .inr (List.mem_singleton.mp hw)
        · cases hw
    have hnone : Text.hasHalf w.describe = false := by
      apply Text.hasHalf_of_not_mem
      rcases hkind with rfl | rfl
      · simp [Warning.describe, named, hname]
        decide
      · simp [Warning.describe, named, hname]
        decide
    rcases hkind with rfl | rfl <;> simp [hnone]
  · obtain ⟨i, hi, hw⟩ := List.mem_flatMap.mp hintent
    obtain ⟨phrase, rfl⟩ := repeats_eq_repeatedPhrase hw
    rw [hasHalf_repeatedPhrase (hg.intents_usable i hi)]
    constructor
    · intro h
      exact ⟨_, _, rfl, h⟩
    · rintro ⟨_, _, heq, h⟩
      cases heq
      exact h

end Grammar

theorem Context.half_of_mem_lint [Host] [Listing] {source : Option String} {text : String}
    {g : Grammar} (h : grammar source text = .ok g) {w : Grammar.Warning} (hw : w ∈ g.lint) :
    Text.hasHalf w.describe = true ↔
      ∃ intent phrase, w = .repeatedPhrase intent phrase ∧ Text.hasHalf phrase = true := by
  obtain ⟨d, _, hbuilt⟩ := grammar_eq_ok_iff.mp h
  exact Grammar.half_of_mem_lint (Grammar.wellFormed_of_ofValue hbuilt) hw

end VoiceIntents
