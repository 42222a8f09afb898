import VoiceIntents.Proofs.Loading
import VoiceIntents.Proofs.SlotLookup

/-!
# The decoder of a grammar

What the decoder of a generated module answers, stated on the grammar alone: whether what a
variable is given fills its field or fails, and that the first variable that fails decides. The
module with its variants, enumerations and cases does not occur in it. Names are those that the
host takes them for; variables and the slots that they refer to are in ASCII, so theirs are as
written.
-/

namespace VoiceIntents

namespace Variable
variable [Host]

/-- What the field of a variable is set to. -/
inductive Fills (v : Variable) (slots : List (Scalar × Value)) : Option EnumValue → Prop
  | absent (hgiven : v.given slots = none) (hoptional : v.required = false) : Fills v slots none
  | member {e : Element} (he : e ∈ v.slot.elements)
      (hgiven : v.given slots = some (.text e.raw)) :
      Fills v slots (some ⟨v.slot.name, Host.fold e.name, e.raw⟩)

/-- Why the field of a variable cannot be set. -/
inductive Fails (v : Variable) (intent : Value) (slots : List (Scalar × Value)) :
    DecodeError → Prop
  | missing (hgiven : v.given slots = none) (hrequired : v.required = true) :
      Fails v intent slots (.missingSlot intent v.rawName)
  | invalid {x : Value} (hgiven : v.given slots = some x)
      (hno : ∀ e ∈ v.slot.elements, x ≠ .text e.raw)
      (hasked : v.slot.elements ≠ [] ∨ Host.asksEmptyEnums = true) :
      Fails v intent slots (.invalidValue intent v.slot.name v.rawName x)
  | memberless {x : Value} (hgiven : v.given slots = some x) (hempty : v.slot.elements = [])
      (hasked : Host.asksEmptyEnums = false) : Fails v intent slots .noMembers

theorem Fills.given_eq {v : Variable} {slots : List (Scalar × Value)} {x : EnumValue}
    (h : v.Fills slots (some x)) : v.given slots = some (.text x.value) := by
  cases h with
  | member _ hgiven => exact hgiven

/-- Only an optional variable is filled without a value. -/
theorem Fills.required_eq_false {v : Variable} {slots : List (Scalar × Value)}
    {x : Option EnumValue} (h : v.Fills slots x) (hgiven : v.given slots = none) :
    v.required = false := by
  cases h with
  | absent _ hoptional => exact hoptional
  | member _ hword => simp [hgiven] at hword

/-- What fills a variable is settled by the slots, as no two elements have one word. -/
theorem Fills.unique {v : Variable} {slots : List (Scalar × Value)} {x y : Option EnumValue}
    (hwords : v.slot.words.Nodup) (hx : v.Fills slots x) (hy : v.Fills slots y) : x = y := by
  cases hx with
  | absent hgiven =>
      cases hy with
      | absent => rfl
      | member _ hword => simp [hgiven] at hword
  | member he hgiven =>
      cases hy with
      | absent hnone => simp [hgiven] at hnone
      | member he' hgiven' =>
          have hraw := Scalar.text.inj (Value.scalar.inj
            (Option.some.inj (hgiven.symm.trans hgiven')))
          rw [List.inj_on_of_nodup_map hwords he he' hraw]

end Variable

/-- How an error is raised: as it is, unless a value that it names has no text. -/
inductive DecodeError.Raised (e : DecodeError) : DecodeError → Prop
  | itself {reason : String} (h : e.reason = .ok reason) : Raised e e
  | unprintable {cause : DisplayFault} (h : e.reason = .error cause) :
      Raised e (.unprintable cause)

namespace Grammar
variable [Host]

/-- The answer to an inference. A falsy flag comes first, then the name of the intent, and then
the variables in their order, of which the first to fail decides. -/
inductive Decodes (g : Grammar) (understood intent : Value) (slots : List (Scalar × Value)) :
    Except DecodeError TypedIntent → Prop
  | notUnderstood (hflag : understood.isEmpty = true) :
      Decodes g understood intent slots (.ok ⟨"NotUnderstood", []⟩)
  | unknown (hflag : understood.isEmpty = false) (hno : ∀ i ∈ g.intents, intent ≠ .text i.name)
      {e : DecodeError} (he : (DecodeError.unknownIntent intent).Raised e) :
      Decodes g understood intent slots (.error e)
  | failed (hflag : understood.isEmpty = false) {i : Intent} (hi : i ∈ g.intents)
      (hname : intent = .text i.name) {before after : List Variable} {v : Variable}
      (hvars : i.vars = before ++ v :: after) (hbefore : ∀ w ∈ before, ∃ x, w.Fills slots x)
      {fault e : DecodeError} (hv : v.Fails intent slots fault) (he : fault.Raised e) :
      Decodes g understood intent slots (.error e)
  | typed (hflag : understood.isEmpty = false) {i : Intent} (hi : i ∈ g.intents)
      (hname : intent = .text i.name) {fields : List (String × Option EnumValue)}
      (hfields : List.Forall₂ (fun v field => field.1 = v.name ∧ v.Fills slots field.2)
        i.vars fields) :
      Decodes g understood intent slots (.ok ⟨Host.fold i.name, fields⟩)

end Grammar

section Errors
variable {α : Type} {e e' : DecodeError}

theorem raise_eq_error_iff : (e.raise : Except DecodeError α) = .error e' ↔ e.Raised e' := by
  unfold DecodeError.raise
  constructor
  · intro h
    split at h
    next reason hreason =>
        cases h
        exact .itself hreason
    next cause hcause =>
        cases h
        exact .unprintable hcause
  · intro h
    cases h with
    | itself h => rw [h]
    | unprintable h => rw [h]

theorem raise_ne_ok {a : α} : (e.raise : Except DecodeError α) ≠ .ok a := by
  unfold DecodeError.raise
  split <;> simp

end Errors

section Keys

theorem firstValue_eq_findSome? (slots : List (Scalar × Value)) (keys : List String) :
    TypedModule.firstValue slots keys = keys.findSome? (present slots) := by
  unfold TypedModule.firstValue
  congr
  funext key
  unfold present
  cases lookup slots key with
  | none => rfl
  | some v =>
      cases v with
      | scalar s => cases s <;> rfl
      | list | map | set | pair | again | deep => rfl

/-- The keys of an argument give what the two names of its variable give. -/
theorem firstValue_lookupKeys (v : Variable) (slots : List (Scalar × Value)) :
    TypedModule.firstValue slots v.toArgument.lookupKeys = v.given slots := by
  rw [firstValue_eq_findSome?]
  unfold Argument.lookupKeys Variable.toArgument Variable.given
  by_cases hname : v.name = v.rawName
  · simp only [hname, if_true, List.findSome?_cons, List.findSome?_nil]
    cases present slots v.rawName <;> rfl
  · simp only [hname, if_false, List.findSome?_cons, List.findSome?_nil]
    cases present slots v.rawName with
    | some x => rfl
    | none => cases present slots v.name <;> rfl

end Keys

section Arguments
variable [Host] {g : Grammar} {project : Option String} {slots : List (Scalar × Value)}

/-- Where the host keeps names apart, a slot's enumeration is the one that its name stands for. -/
theorem enum?_slot (hl : g.Loadable project) {s : Slot} (hs : s ∈ g.slots) :
    (g.toModule project).enum? s.name = some s.toEnum := by
  have hdistinct : ((g.toModule project).enums.reverse.map fun e => Host.fold e.name).Nodup := by
    rw [List.map_reverse, List.nodup_reverse]
    have hnames := hl.names_apart
    rw [List.map_append, List.nodup_append', List.map_map, List.map_map] at hnames
    simpa [Grammar.toModule, Function.comp_def, Slot.toEnum] using hnames.2.1
  have hmem : s.toEnum ∈ (g.toModule project).enums.reverse :=
    List.mem_reverse.mpr (List.mem_map_of_mem hs)
  exact (find?_key_eq_some_iff hdistinct).mpr ⟨hmem, rfl⟩

/-- A value is a member of an enumeration when it is a word of the slot. -/
theorem member?_eq_some_iff (hg : g.WellFormed) {s : Slot} (hs : s ∈ g.slots) {x : Value}
    {ev : EnumValue} :
    s.toEnum.member? x = some ev ↔
      ∃ e ∈ s.elements, x = .text e.raw ∧ ev = ⟨Host.fold s.name, Host.fold e.name, e.raw⟩ := by
  have hdistinct : (s.toEnum.members.map (·.value)).Nodup := by
    simpa [Slot.toEnum, Function.comp_def, Slot.words] using hg.words_distinct s hs
  have hmembers {m : EnumMember} :
      m ∈ s.toEnum.members ↔ ∃ e ∈ s.elements, m = ⟨e.name, e.raw⟩ := by
    simp [Slot.toEnum, eq_comm]
  constructor
  · intro h
    unfold EnumType.member? at h
    split at h
    next word =>
        obtain ⟨m, hfound, rfl⟩ := Option.map_eq_some_iff.mp h
        obtain ⟨hm, rfl⟩ := (find?_key_eq_some_iff hdistinct).mp hfound
        obtain ⟨e, he, rfl⟩ := hmembers.mp hm
        exact ⟨e, he, rfl, rfl⟩
    next => cases h
  · rintro ⟨e, he, rfl, rfl⟩
    have hfound : s.toEnum.members.find? (·.value = e.raw) = some ⟨e.name, e.raw⟩ :=
      (find?_key_eq_some_iff hdistinct).mpr ⟨hmembers.mpr ⟨e, he, rfl⟩, rfl⟩
    simp only [EnumType.member?, Value.text, hfound]
    rfl

theorem member?_eq_none_iff (hg : g.WellFormed) {s : Slot} (hs : s ∈ g.slots) {x : Value} :
    s.toEnum.member? x = none ↔ ∀ e ∈ s.elements, x ≠ .text e.raw := by
  rw [Option.eq_none_iff_forall_ne_some]
  constructor
  · intro h e he hx
    exact h _ ((member?_eq_some_iff hg hs).mpr ⟨e, he, hx, rfl⟩)
  · intro h ev hev
    obtain ⟨e, he, hx, _⟩ := (member?_eq_some_iff hg hs).mp hev
    exact h e he hx

section Variables
variable (hg : g.WellFormed) (hl : g.Loadable project)
include hg hl

/-- A value is read as a member of a slot, or fails, as the elements of the slot say. -/
theorem readMember_toArgument {i : Intent} (hi : i ∈ g.intents) {v : Variable} (hv : v ∈ i.vars)
    (intent given : Value) :
    (g.toModule project).readMember intent v.toArgument given =
      if v.slot.elements.isEmpty && !Host.asksEmptyEnums then .error .noMembers
      else
        match v.slot.toEnum.member? given with
        | some ev => .ok ev
        | none => DecodeError.raise (.invalidValue intent v.slot.name v.rawName given) := by
  have henum : (g.toModule project).enum? v.toArgument.enumName = some v.slot.toEnum :=
    enum?_slot hl (hg.vars_slot i hi v hv)
  have hname : Host.fold v.slot.toEnum.name = v.slot.name := fold_slot hg hi hv
  have hempty : v.slot.toEnum.members.isEmpty = v.slot.elements.isEmpty := by
    simp [Slot.toEnum]
  simp only [TypedModule.readMember, henum, hname, hempty]
  rfl

/-- One argument is read as its variable is filled. -/
theorem readArgument_eq_ok_iff {i : Intent} (hi : i ∈ g.intents) {v : Variable} (hv : v ∈ i.vars)
    {intent : Value} {x : Option EnumValue} :
    (g.toModule project).readArgument intent (.map slots) v.toArgument = .ok x ↔
      v.Fills slots x := by
  have hslot := hg.vars_slot i hi v hv
  simp only [TypedModule.readArgument, firstValue_lookupKeys]
  constructor
  · intro h
    split at h
    next hgiven =>
        split at h
        next => cases h
        next hrequired =>
            cases h
            exact .absent hgiven (by simpa [Variable.toArgument] using hrequired)
    next given hgiven =>
        obtain ⟨ev, hread, rfl⟩ := Stepwise.map_eq_ok_iff.mp h
        rw [readMember_toArgument hg hl hi hv] at hread
        split at hread
        next => cases hread
        next =>
            split at hread
            next ev hev =>
                cases hread
                obtain ⟨e, he, rfl, rfl⟩ := (member?_eq_some_iff hg hslot).mp hev
                rw [fold_slot hg hi hv]
                exact .member he hgiven
            next => exact absurd hread raise_ne_ok
  · intro h
    cases h with
    | absent hgiven hoptional => simp [hgiven, hoptional, Variable.toArgument]
    | @member e he hgiven =>
        have hmember := (member?_eq_some_iff hg hslot).mpr ⟨e, he, rfl, rfl⟩
        have hsome : v.slot.elements.isEmpty = false := by
          simpa using List.ne_nil_of_mem he
        rw [fold_slot hg hi hv] at hmember
        simp only [hgiven, readMember_toArgument hg hl hi hv, hmember, hsome]
        rfl

/-- One argument is refused as its variable fails. -/
theorem readArgument_eq_error_iff {i : Intent} (hi : i ∈ g.intents) {v : Variable}
    (hv : v ∈ i.vars) {intent : Value} {e : DecodeError} :
    (g.toModule project).readArgument intent (.map slots) v.toArgument = .error e ↔
      ∃ fault, v.Fails intent slots fault ∧ fault.Raised e := by
  have hslot := hg.vars_slot i hi v hv
  simp only [TypedModule.readArgument, firstValue_lookupKeys]
  constructor
  · intro h
    split at h
    next hgiven =>
        split at h
        next hrequired =>
            cases h
            exact ⟨_, .missing hgiven hrequired, .itself rfl⟩
        next => cases h
    next given hgiven =>
        have hread := Stepwise.map_eq_error_iff.mp h
        rw [readMember_toArgument hg hl hi hv] at hread
        split at hread
        next hnone =>
            cases hread
            rw [Bool.and_eq_true, List.isEmpty_iff, Bool.not_eq_true'] at hnone
            exact ⟨_, .memberless hgiven hnone.1 hnone.2, .itself rfl⟩
        next hasked =>
            split at hread
            next => cases hread
            next hnone =>
                have hno := (member?_eq_none_iff hg hslot).mp hnone
                refine ⟨_, .invalid hgiven hno ?_, raise_eq_error_iff.mp hread⟩
                simpa [imp_iff_not_or] using hasked
  · rintro ⟨fault, hfails, hraised⟩
    cases hfails with
    | missing hgiven hrequired =>
        cases hraised with
        | itself => simp [hgiven, hrequired, Variable.toArgument]
        | unprintable h => cases h
    | invalid hgiven hno hasked =>
        have hnone := (member?_eq_none_iff hg hslot).mpr hno
        have hsome : (v.slot.elements.isEmpty && !Host.asksEmptyEnums) = false := by
          rcases hasked with h | h <;> simp [h]
        simp only [hgiven, readMember_toArgument hg hl hi hv, hnone, hsome]
        exact Stepwise.map_eq_error_iff.mpr (raise_eq_error_iff.mpr hraised)
    | memberless hgiven hempty hasked =>
        cases hraised with
        | itself =>
            simp only [hgiven, readMember_toArgument hg hl hi hv, hempty, hasked]
            rfl
        | unprintable h => cases h

/-- All arguments are read when every variable is filled, each by itself. -/
theorem readArguments_eq_ok_iff {i : Intent} (hi : i ∈ g.intents) {intent : Value}
    {vars : List Variable} (hvars : vars ⊆ i.vars) {fields : List (String × Option EnumValue)} :
    (g.toModule project).readArguments intent (.map slots) (vars.map Variable.toArgument) =
        .ok fields ↔
      List.Forall₂ (fun v field => field.1 = v.name ∧ v.Fills slots field.2) vars fields := by
  induction vars generalizing fields with
  | nil => simp [TypedModule.readArguments, eq_comm]
  | cons v rest ih =>
      obtain ⟨hv, hrest⟩ := List.cons_subset.mp hvars
      have hname : Host.fold v.toArgument.field = v.name := fold_variable hg hi hv
      rw [List.map_cons, TypedModule.readArguments, Stepwise.bind_eq_ok_iff,
        List.forall₂_cons_left_iff, hname]
      simp only [readArgument_eq_ok_iff hg hl hi hv, Stepwise.bind_eq_ok_iff, ih hrest]
      constructor
      · rintro ⟨x, hx, tail, htail, h⟩
        exact ⟨(v.name, x), tail, ⟨rfl, hx⟩, htail, (Stepwise.pure_eq_ok_iff.mp h).symm⟩
      · rintro ⟨⟨name, x⟩, tail, ⟨rfl, hx⟩, htail, rfl⟩
        exact ⟨x, hx, tail, htail, rfl⟩

/-- The first variable that fails decides the error. -/
theorem readArguments_eq_error_iff {i : Intent} (hi : i ∈ g.intents) {intent : Value}
    {vars : List Variable} (hvars : vars ⊆ i.vars) {e : DecodeError} :
    (g.toModule project).readArguments intent (.map slots) (vars.map Variable.toArgument) =
        .error e ↔
      ∃ before v after fault, vars = before ++ v :: after ∧
        (∀ w ∈ before, ∃ x, w.Fills slots x) ∧ v.Fails intent slots fault ∧ fault.Raised e := by
  induction vars with
  | nil => simp [TypedModule.readArguments]
  | cons v rest ih =>
      obtain ⟨hv, hrest⟩ := List.cons_subset.mp hvars
      have hname : Host.fold v.toArgument.field = v.name := fold_variable hg hi hv
      have htail (x : Option EnumValue) :
          ((g.toModule project).readArguments intent (.map slots)
              (rest.map Variable.toArgument) >>= fun tail =>
                (pure ((v.name, x) :: tail) : Except DecodeError _)) = .error e ↔
            (g.toModule project).readArguments intent (.map slots)
              (rest.map Variable.toArgument) = .error e := by
        rw [Stepwise.bind_eq_error_iff]
        exact or_iff_left fun ⟨_, _, h⟩ => nomatch h
      rw [List.map_cons, TypedModule.readArguments, Stepwise.bind_eq_error_iff, hname]
      simp only [readArgument_eq_error_iff hg hl hi hv, readArgument_eq_ok_iff hg hl hi hv]
      constructor
      · rintro (⟨fault, hfails, hraised⟩ | ⟨x, hfills, h⟩)
        · exact ⟨[], v, rest, fault, rfl, by simp, hfails, hraised⟩
        · obtain ⟨before, w, after, fault, rfl, hbefore, hw⟩ := (ih hrest).mp ((htail x).mp h)
          exact ⟨v :: before, w, after, fault, rfl,
            List.forall_mem_cons.mpr ⟨⟨x, hfills⟩, hbefore⟩, hw⟩
      · rintro ⟨before, w, after, fault, hsplit, hbefore, hfails, hraised⟩
        cases before with
        | nil =>
            cases hsplit
            exact .inl ⟨fault, hfails, hraised⟩
        | cons _ before =>
            cases hsplit
            obtain ⟨⟨x, hfills⟩, hbefore⟩ := List.forall_mem_cons.mp hbefore
            exact .inr ⟨x, hfills, (htail x).mpr ((ih hrest).mpr
              ⟨before, w, after, fault, rfl, hbefore, hfails, hraised⟩)⟩

end Variables

end Arguments

section Cases
variable {g : Grammar} {project : Option String}

theorem case?_text (hn : (g.intents.map (·.name)).Nodup) {i : Intent} (hi : i ∈ g.intents) :
    (g.toModule project).case? (.text i.name) = some i.toCase := by
  have hdistinct : ((g.toModule project).decoder.cases.map (·.intentName)).Nodup := by
    simpa [Grammar.toModule, Function.comp_def, Intent.toCase] using hn
  exact (find?_key_eq_some_iff hdistinct).mpr ⟨List.mem_map_of_mem hi, rfl⟩

theorem case?_eq_none {intent : Value} (hno : ∀ i ∈ g.intents, intent ≠ .text i.name) :
    (g.toModule project).case? intent = none := by
  unfold TypedModule.case?
  split
  next name =>
      rw [List.find?_eq_none]
      intro c hc
      obtain ⟨i, hi, rfl⟩ := List.mem_map.mp hc
      intro hname
      have hname : i.name = name := of_decide_eq_true hname
      exact hno i hi (by rw [hname]; rfl)
  next => rfl

theorem sentinel_mem_ownNames : "NotUnderstood" ∈ TypedModule.ownNames := by
  rw [TypedModule.ownNames, TypedModule.boundNames_code TypedModule.wellFormed_empty]
  decide

theorem eq_of_text_eq (hn : (g.intents.map (·.name)).Nodup) {i j : Intent}
    (hi : i ∈ g.intents) (hj : j ∈ g.intents) (h : Value.text i.name = Value.text j.name) :
    j = i := by
  have hname : i.name = j.name := by simpa [Value.text] using h
  exact List.inj_on_of_nodup_map hn hj hi hname.symm

theorem lookup_of_mem {given : List (String × Option EnumValue)}
    (hdistinct : (given.map (·.1)).Nodup) {field : String × Option EnumValue}
    (hfield : field ∈ given) : given.lookup field.1 = some field.2 := by
  obtain ⟨before, after, rfl⟩ := List.append_of_mem hfield
  rw [List.lookup_eq_some_iff]
  refine ⟨before, after, rfl, ?_⟩
  intro p hp
  rw [List.map_append, List.map_cons, List.nodup_append] at hdistinct
  have hne := hdistinct.2.2 p.1 (List.mem_map_of_mem hp) field.1 List.mem_cons_self
  simpa using hne.symm

/-- Values that are looked up by the names that they stand under come out as they are. -/
theorem mapM_lookup_eq_some {given : List (String × Option EnumValue)}
    (hdistinct : (given.map (·.1)).Nodup) {names : List String} (hnames : names = given.map (·.1)) :
    (names.mapM fun name => (given.lookup name).map fun value => (name, value)) = some given := by
  -- The look-ups stay in the whole of the values while the names are gone through.
  have hrun (names : List String) (rest : List (String × Option EnumValue))
      (hrest : rest ⊆ given) (hnames : names = rest.map (·.1)) :
      (names.mapM fun name => (given.lookup name).map fun value => (name, value)) =
        some rest := by
    induction names generalizing rest with
    | nil =>
        obtain rfl : rest = [] := by simpa using hnames.symm
        rfl
    | cons name names ih =>
        cases rest with
        | nil => simp at hnames
        | cons field rest =>
            simp only [List.map_cons, List.cons.injEq] at hnames
            obtain ⟨hfield, hrest⟩ := List.cons_subset.mp hrest
            have hfound := lookup_of_mem hdistinct hfield
            rw [List.mapM_cons, hnames.1, hfound, ih rest hrest hnames.2]
            rfl
  exact hrun names given (fun _ h => h) hnames

end Cases

section Answers
variable [Host] {g : Grammar} {project : Option String} {slots : List (Scalar × Value)}

theorem fold_sentinel : Host.fold "NotUnderstood" = "NotUnderstood" := by
  apply Host.fold_ascii
  decide

/-- No intent and no slot has the name of the sentinel. -/
theorem fold_ne_sentinel (hl : g.Loadable project) {name : String}
    (h : name ∈ g.intents.map (·.name) ++ g.slots.map (·.name)) :
    Host.fold name ≠ Host.fold "NotUnderstood" := by
  rw [fold_sentinel]
  intro hname
  exact hl.names_free name h (hname ▸ sentinel_mem_ownNames)

/-- The names of the variants, with that of the sentinel, are distinct. -/
theorem variants_distinct (hl : g.Loadable project) :
    (((g.toModule project).sumType.sentinel :: (g.toModule project).sumType.variants).reverse.map
      fun v => Host.fold v.name).Nodup := by
  rw [List.map_reverse, List.nodup_reverse, List.map_cons, List.nodup_cons]
  constructor
  · intro h
    obtain ⟨_, hvariant, hname⟩ := List.mem_map.mp h
    obtain ⟨i, hi, rfl⟩ := List.mem_map.mp hvariant
    exact fold_ne_sentinel hl (List.mem_append_left _ (List.mem_map_of_mem hi)) hname
  · have hnames := hl.names_apart
    rw [List.map_append, List.nodup_append', List.map_map] at hnames
    simpa [Grammar.toModule, Function.comp_def, Intent.toVariant] using hnames.1

theorem enum?_eq_none {name : String} (h : ∀ s ∈ g.slots, Host.fold s.name ≠ Host.fold name) :
    (g.toModule project).enum? name = none := by
  rw [TypedModule.enum?, List.find?_eq_none]
  intro e he
  obtain ⟨s, hs, rfl⟩ := List.mem_map.mp (List.mem_reverse.mp he)
  exact fun hname => h s hs (of_decide_eq_true hname)

theorem variant?_intent (hl : g.Loadable project) {i : Intent} (hi : i ∈ g.intents) :
    (g.toModule project).variant? i.name = some i.toVariant := by
  have hnone : (g.toModule project).enum? i.name = none := by
    apply enum?_eq_none
    intro s hs hname
    have hnames := hl.names_apart
    rw [List.map_append, List.nodup_append'] at hnames
    apply hnames.2.2 (List.mem_map_of_mem (List.mem_map_of_mem hi))
    rw [← hname]
    exact List.mem_map_of_mem (List.mem_map_of_mem hs)
  rw [TypedModule.variant?, hnone]
  apply (find?_key_eq_some_iff (variants_distinct hl)).mpr
  exact ⟨List.mem_reverse.mpr (List.mem_cons_of_mem _ (List.mem_map_of_mem hi)), rfl⟩

theorem variant?_sentinel (hl : g.Loadable project) :
    (g.toModule project).variant? "NotUnderstood" = some ⟨"NotUnderstood", []⟩ := by
  have hnone : (g.toModule project).enum? "NotUnderstood" = none := by
    apply enum?_eq_none
    intro s hs
    exact fold_ne_sentinel hl (List.mem_append_right _ (List.mem_map_of_mem hs))
  rw [TypedModule.variant?, hnone]
  apply (find?_key_eq_some_iff (variants_distinct hl)).mpr
  exact ⟨List.mem_reverse.mpr List.mem_cons_self, rfl⟩

/-- A variant is constructed from values for its fields, in their order. -/
theorem construct_eq_ok {m : TypedModule} {v : Variant} {name : String}
    {given : List (String × Option EnumValue)} (hv : m.variant? name = some v)
    (hdistinct : (given.map (·.1)).Nodup)
    (hfields : v.fields.map (fun f => Host.fold f.name) = given.map (·.1)) :
    m.construct name given = .ok ⟨Host.fold v.name, given⟩ := by
  have hlength : v.fields.length = given.length := by
    simpa using congrArg List.length hfields
  have hset := mapM_lookup_eq_some hdistinct hfields
  simp only [TypedModule.construct, hv, if_pos hlength, hset]

/-- The case of an intent reads the arguments and wraps them up; only reading can fail. -/
theorem decode_intent (hg : g.WellFormed) (hl : g.Loadable project)
    (hn : (g.intents.map (·.name)).Nodup) {i : Intent} (hi : i ∈ g.intents) {understood : Value}
    (hflag : understood.isEmpty = false) :
    (g.toModule project).decode understood (.text i.name) (.map slots) =
      (TypedIntent.mk (Host.fold i.name)) <$> (g.toModule project).readArguments (.text i.name)
        (.map slots) (i.vars.map Variable.toArgument) := by
  unfold TypedModule.decode
  rw [hflag, if_neg Bool.false_ne_true, case?_text hn hi]
  change ((g.toModule project).readArguments (.text i.name) (.map slots)
      (i.vars.map Variable.toArgument) >>= (g.toModule project).construct i.name) = _
  cases hread : (g.toModule project).readArguments (.text i.name) (.map slots)
      (i.vars.map Variable.toArgument) with
  | error e => rfl
  | ok fields =>
      have hfill := (readArguments_eq_ok_iff hg hl hi (fun _ h => h)).mp hread
      have hnames : i.vars.map (·.name) = fields.map (·.1) := by
        rw [← List.forall₂_eq_eq_eq, List.forall₂_map_left_iff, List.forall₂_map_right_iff]
        exact hfill.imp fun _ _ h => h.1.symm
      have hdistinct : (fields.map (·.1)).Nodup := hnames ▸ hg.vars_distinct i hi
      apply construct_eq_ok (variant?_intent hl hi) hdistinct
      rw [← hnames, Intent.toVariant, List.map_map]
      exact List.map_congr_left fun v hv => fold_variable hg hi hv

/-- A known intent is answered by its variant when all its variables are filled. -/
theorem decodes_intent_ok_iff (hn : (g.intents.map (·.name)).Nodup) {i : Intent}
    (hi : i ∈ g.intents) {understood : Value} (hflag : understood.isEmpty = false)
    {t : TypedIntent} :
    g.Decodes understood (.text i.name) slots (.ok t) ↔
      ∃ fields, List.Forall₂ (fun v field => field.1 = v.name ∧ v.Fills slots field.2)
        i.vars fields ∧ t = ⟨Host.fold i.name, fields⟩ := by
  constructor
  · intro h
    cases h with
    | notUnderstood h => simp [hflag] at h
    | typed _ hj hname hfields =>
        obtain rfl := eq_of_text_eq hn hi hj hname
        exact ⟨_, hfields, rfl⟩
  · rintro ⟨fields, hfields, rfl⟩
    exact .typed hflag hi rfl hfields

/-- A known intent is refused when a variable fails and those before it are filled. -/
theorem decodes_intent_error_iff (hn : (g.intents.map (·.name)).Nodup) {i : Intent}
    (hi : i ∈ g.intents) {understood : Value} (hflag : understood.isEmpty = false)
    {e : DecodeError} :
    g.Decodes understood (.text i.name) slots (.error e) ↔
      ∃ before v after fault, i.vars = before ++ v :: after ∧
        (∀ w ∈ before, ∃ x, w.Fills slots x) ∧ v.Fails (.text i.name) slots fault ∧
          fault.Raised e := by
  constructor
  · intro h
    cases h with
    | unknown _ hno _ => exact absurd rfl (hno i hi)
    | failed _ hj hname hvars hbefore hv he =>
        obtain rfl := eq_of_text_eq hn hi hj hname
        exact ⟨_, _, _, _, hvars, hbefore, hv, he⟩
  · rintro ⟨before, v, after, fault, hvars, hbefore, hv, he⟩
    exact .failed hflag hi rfl hvars hbefore hv he

theorem decodes_unknown_iff {understood intent : Value} (hflag : understood.isEmpty = false)
    (hno : ∀ i ∈ g.intents, intent ≠ .text i.name) {answer : Except DecodeError TypedIntent} :
    g.Decodes understood intent slots answer ↔
      (DecodeError.unknownIntent intent).raise = answer := by
  constructor
  · intro h
    cases h with
    | notUnderstood h => simp [hflag] at h
    | unknown _ _ he => exact raise_eq_error_iff.mpr he
    | failed _ hi hname => exact absurd hname (hno _ hi)
    | typed _ hi hname => exact absurd hname (hno _ hi)
  · rintro rfl
    cases hraise : ((DecodeError.unknownIntent intent).raise : Except DecodeError TypedIntent) with
    | ok t => exact absurd hraise raise_ne_ok
    | error e => exact .unknown hflag hno (raise_eq_error_iff.mp hraise)

/-- The decoder of a module answers as its grammar says, to every inference. -/
theorem decode_eq_iff (hg : g.WellFormed) (hl : g.Loadable project)
    (hn : (g.intents.map (·.name)).Nodup) {understood intent : Value}
    {answer : Except DecodeError TypedIntent} :
    (g.toModule project).decode understood intent (.map slots) = answer ↔
      g.Decodes understood intent slots answer := by
  cases hflag : understood.isEmpty with
  | true =>
      have hdecode : (g.toModule project).decode understood intent (.map slots) =
          .ok ⟨"NotUnderstood", []⟩ := by
        unfold TypedModule.decode
        rw [if_pos hflag]
        rw [← fold_sentinel]
        exact construct_eq_ok (variant?_sentinel hl) List.nodup_nil rfl
      rw [hdecode]
      constructor
      · rintro rfl
        exact .notUnderstood hflag
      · intro h
        cases h <;> simp_all
  | false =>
      by_cases hno : ∀ i ∈ g.intents, intent ≠ .text i.name
      · rw [decodes_unknown_iff hflag hno]
        unfold TypedModule.decode
        rw [hflag, if_neg Bool.false_ne_true, case?_eq_none hno]
      · push Not at hno
        obtain ⟨i, hi, rfl⟩ := hno
        rw [decode_intent hg hl hn hi hflag]
        cases answer with
        | ok t =>
            rw [decodes_intent_ok_iff hn hi hflag, Stepwise.map_eq_ok_iff]
            simp only [readArguments_eq_ok_iff hg hl hi (fun _ h => h)]
        | error e =>
            rw [decodes_intent_error_iff hn hi hflag, Stepwise.map_eq_error_iff,
              readArguments_eq_error_iff hg hl hi (fun _ h => h)]

/-- There is an answer to every inference. -/
theorem exists_decodes (hg : g.WellFormed) (hl : g.Loadable project)
    (hn : (g.intents.map (·.name)).Nodup) (understood intent : Value)
    (slots : List (Scalar × Value)) : ∃ answer, g.Decodes understood intent slots answer :=
  ⟨(g.toModule project).decode understood intent (.map slots), (decode_eq_iff hg hl hn).mp rfl⟩

end Answers

/-- The decoder of a built grammar is its specification: a module answers an inference exactly
when its grammar is loadable, and then as the grammar says. An inference whose slots may be
absent is answered in the same way, with no slots for absent ones. -/
theorem decoder_spec [Host] (source project : Option String) (document : Value) (g : Grammar)
    (hbuilt : Grammar.ofValue source document = .ok g)
    (hn : (g.intents.map (·.name)).Nodup) (understood intent : Value)
    (slots : List (Scalar × Value)) :
    (∀ answer, ((g.toModule project).loads = true ∧
        (g.toModule project).decode understood intent (.map slots) = answer) ↔
      g.Loadable project ∧ g.Decodes understood intent slots answer) ∧
    (g.toModule project).fromInference understood intent (.map slots) =
      (g.toModule project).decode understood intent (.map slots) ∧
    ∀ absent : Value, absent.isEmpty = true →
      (g.toModule project).fromInference understood intent absent =
        (g.toModule project).decode understood intent (.map []) := by
  have hg := Grammar.wellFormed_of_ofValue hbuilt
  refine ⟨fun answer => ?_, ?_, ?_⟩
  · rw [loads_iff hg]
    exact and_congr_right fun hl => decode_eq_iff hg hl hn
  · unfold TypedModule.fromInference
    cases slots with
    | nil => rfl
    | cons entry rest => rfl
  · intro absent habsent
    unfold TypedModule.fromInference
    rw [if_pos habsent]

/-- A context with a required variable and one that a phrase leaves out. -/
def lampContext : Value :=
  .map [(.text "context", .map
    [(.text "slots", .map
        [(.text "State", .list [.text "on", .text "off"]), (.text "Room", .list [.text "with"])]),
      (.text "expressions", .map
        [(.text "Turn", .list [.text "turn $State:to", .text "turn $State:to in $Room:class"])])])]

def stateSlot : Slot := ⟨"State", [⟨"on", "on"⟩, ⟨"off", "off"⟩]⟩

def roomSlot : Slot := ⟨"Room", [⟨"With", "with"⟩]⟩

def turn : Intent :=
  { name := "Turn"
    vars := [⟨"to", "to", stateSlot, true⟩, ⟨"Class", "class", roomSlot, false⟩]
    phrases := ["turn $State:to", "turn $State:to in $Room:class"] }

def lampGrammar : Grammar := ⟨[turn], [stateSlot, roomSlot], none⟩

/-- A context whose module does not load. -/
def orderContext : Value :=
  .map [(.text "context", .map
    [(.text "slots", .map [(.text "State", .list [.text "on", .text "off"])]),
      (.text "expressions", .map
        [(.text "Swap", .list [.text "swap $State:mro and $State:other"])])])]

def swap : Intent :=
  { name := "Swap"
    vars := [⟨"mro", "mro", stateSlot, true⟩, ⟨"other", "other", stateSlot, true⟩]
    phrases := ["swap $State:mro and $State:other"] }

def orderGrammar : Grammar := ⟨[swap], [stateSlot], none⟩

/-- A context with two elements that are one to a host that folds ligatures. -/
def ligatureDocument : Value :=
  .map [(.text "context", .map
    [(.text "slots", .map [(.text "Letter", .list [.text "\ufb01", .text "fi"])]),
      (.text "expressions", .map [(.text "Spell", .list [.text "spell $Letter:it"])])])]

def letterSlot : Slot := ⟨"Letter", [⟨"\ufb01", "\ufb01"⟩, ⟨"fi", "fi"⟩]⟩

def ligatureGrammar : Grammar :=
  ⟨[⟨"Spell", [⟨"it", "it", letterSlot, true⟩], ["spell $Letter:it"]⟩], [letterSlot], none⟩

/-- A context with a slot that is still empty. -/
def toolContext : Value :=
  .map [(.text "context", .map
    [(.text "slots", .map [(.text "Tool", .null)]),
      (.text "expressions", .map [(.text "Use", .list [.text "use $Tool:it"])])])]

def toolSlot : Slot := ⟨"Tool", []⟩

def useTool : Intent := ⟨"Use", [⟨"it", "it", toolSlot, true⟩], ["use $Tool:it"]⟩

def toolGrammar : Grammar := ⟨[useTool], [toolSlot], none⟩

section Inferences
variable [Host]

theorem lampGrammar_loadable : lampGrammar.Loadable none := by
  have hbuilt : Grammar.ofValue none lampContext = .ok lampGrammar := rfl
  have hascii : ∀ name ∈ lampGrammar.names, Text.IsAscii name := by decide
  exact (Grammar.wellFormed_of_ofValue hbuilt).loadable_of_isAscii (by decide) hascii (by decide)
    (by simp [lampGrammar]) (by simp)

theorem toolGrammar_loadable : toolGrammar.Loadable none := by
  have hbuilt : Grammar.ofValue none toolContext = .ok toolGrammar := rfl
  have hascii : ∀ name ∈ toolGrammar.names, Text.IsAscii name := by decide
  exact (Grammar.wellFormed_of_ofValue hbuilt).loadable_of_isAscii (by decide) hascii (by decide)
    (by simp [toolGrammar]) (by simp)

/-- The second variable is given under its escaped name. -/
theorem lamp_turned : lampGrammar.Decodes (.bool true) (.text "Turn")
    [(.text "class", .null), (.text "Class", .text "with"), (.text "to", .text "off")]
    (.ok ⟨"Turn", [("to", some ⟨"State", "off", "off"⟩),
      ("Class", some ⟨"Room", "With", "with"⟩)]⟩) := by
  have hfold : ∀ name ∈ ["Turn", "off", "With"], Host.fold name = name := by
    have hascii : ∀ name ∈ ["Turn", "off", "With"], Text.IsAscii name := by decide
    exact fun name hname => Host.fold_ascii name (hascii name hname)
  have hoff : (⟨"off", "off"⟩ : Element) ∈ stateSlot.elements := by decide
  have hwith : (⟨"With", "with"⟩ : Element) ∈ roomSlot.elements := by decide
  apply (decodes_intent_ok_iff (g := lampGrammar) (by decide) (List.mem_singleton_self turn)
    rfl).mpr
  refine ⟨[("to", some ⟨"State", Host.fold "off", "off"⟩),
    ("Class", some ⟨"Room", Host.fold "With", "with"⟩)], ?_, ?_⟩
  · refine .cons ⟨rfl, ?_⟩ (.cons ⟨rfl, ?_⟩ .nil)
    · exact .member (v := ⟨"to", "to", stateSlot, true⟩) hoff rfl
    · exact .member (v := ⟨"Class", "class", roomSlot, false⟩) hwith rfl
  · rw [show Host.fold turn.name = "Turn" from hfold "Turn" (by decide), hfold "off" (by decide),
      hfold "With" (by decide)]

theorem tool_invalid (hasked : Host.asksEmptyEnums = true) :
    toolGrammar.Decodes (.bool true) (.text "Use") [(.text "it", .int 3)]
      (.error (.invalidValue (.text "Use") "Tool" "it" (.int 3))) := by
  have hvars : useTool.vars = [] ++ ⟨"it", "it", toolSlot, true⟩ :: [] := rfl
  exact .failed rfl (List.mem_singleton_self useTool) rfl hvars (by simp)
    (.invalid rfl (by simp [toolSlot]) (.inr hasked)) (.itself rfl)

theorem tool_memberless (hasked : Host.asksEmptyEnums = false) :
    toolGrammar.Decodes (.bool true) (.text "Use") [(.text "it", .int 3)] (.error .noMembers) := by
  have hvars : useTool.vars = [] ++ ⟨"it", "it", toolSlot, true⟩ :: [] := rfl
  exact .failed rfl (List.mem_singleton_self useTool) rfl hvars (by simp)
    (.memberless rfl rfl hasked) (.itself rfl)

end Inferences

/-- A host on which an enumeration without members cannot be asked for one. -/
@[reducible] def Host.strict : Host := { Host.plain with asksEmptyEnums := false }

section Runs
attribute [local instance] Host.plain

/-- The lamp is decoded by its grammar, under either name of a variable. The contexts with a
variable after `mro` and with a ligature are accepted, and a project may have a null character in
its name, but their modules do not load. An enumeration without members has no value to give, and
it depends on the host how that is said. -/
theorem lamp_decoded :
    Grammar.ofValue none lampContext = .ok lampGrammar ∧
    (lampGrammar.toModule none).decode (.bool true) (.text "Turn")
      (.map [(.text "class", .null), (.text "Class", .text "with"), (.text "to", .text "off")]) =
      .ok ⟨"Turn", [("to", some ⟨"State", "off", "off"⟩),
        ("Class", some ⟨"Room", "With", "with"⟩)]⟩ ∧
    (lampGrammar.toModule (some "\x00")).loads = false ∧
    Grammar.ofValue none orderContext = .ok orderGrammar ∧
    (orderGrammar.toModule none).loads = false ∧
    Grammar.ofValue none ligatureDocument = .ok ligatureGrammar ∧
    (ligatureGrammar.toModule none).loads = false ∧
    Grammar.ofValue none toolContext = .ok toolGrammar ∧
    (toolGrammar.toModule none).decode (.bool true) (.text "Use") (.map [(.text "it", .int 3)]) =
      .error (.invalidValue (.text "Use") "Tool" "it" (.int 3)) ∧
    @TypedModule.decode Host.strict (toolGrammar.toModule none) (.bool true) (.text "Use")
      (.map [(.text "it", .int 3)]) = .error .noMembers := by
  have hunloaded {document : Value} {g : Grammar} {project : Option String}
      (hbuilt : Grammar.ofValue none document = .ok g) (hn : (g.intents.map (·.name)).Nodup)
      (hno : ¬g.Loadable project) : (g.toModule project).loads = false := by
    have hspec := decoder_spec none project document g hbuilt hn (.bool false) .null []
    rw [Bool.eq_false_iff]
    exact fun hloads => hno ((hspec.1 _).mp ⟨hloads, rfl⟩).1
  have hlamp : Grammar.ofValue none lampContext = .ok lampGrammar := rfl
  have horder : Grammar.ofValue none orderContext = .ok orderGrammar := rfl
  have hligature : Grammar.ofValue none ligatureDocument = .ok ligatureGrammar :=
    Stepwise.toOption_eq_some_iff.mp (by decide +kernel)
  have htool : Grammar.ofValue none toolContext = .ok toolGrammar := rfl
  have hturn := decoder_spec none none lampContext lampGrammar hlamp (by decide)
    (.bool true) (.text "Turn")
    [(.text "class", .null), (.text "Class", .text "with"), (.text "to", .text "off")]
  have huse (host : Host) := (@decoder_spec host none none toolContext toolGrammar htool (by decide)
    (.bool true) (.text "Use") [(.text "it", .int 3)]).1
  refine ⟨hlamp, ((hturn.1 _).mpr ⟨lampGrammar_loadable, lamp_turned⟩).2,
    hunloaded hlamp (by decide) fun hl => ?_, horder,
    hunloaded horder (by decide) fun hl => ?_, hligature,
    hunloaded hligature (by decide) fun hl => ?_, htool,
    ((huse Host.plain _).mpr ⟨toolGrammar_loadable, tool_invalid rfl⟩).2,
    ((huse Host.strict _).mpr ⟨@toolGrammar_loadable Host.strict,
      @tool_memberless Host.strict rfl⟩).2⟩
  · exact hl.project_readable _ rfl (by decide)
  · exact absurd (hl.variables_ordered swap List.mem_cons_self) (by decide)
  · exact absurd (hl.elements_apart letterSlot List.mem_cons_self) (by decide +kernel)

end Runs

end VoiceIntents
