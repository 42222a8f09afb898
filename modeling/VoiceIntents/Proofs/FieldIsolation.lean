import VoiceIntents.Proofs.Decoder

/-!
# Fields by themselves

A decoder looks up the value of a field under the keys of its own variable. No two variables of
an intent have a key in common, so what is given for one of them reaches its own field and no
other, and what stands under other keys reaches nothing.
-/

namespace VoiceIntents

/-- The same values under some keys, where null counts as no value. -/
def AgreeOn (keys : List String) (slots slots' : List (Scalar × Value)) : Prop :=
  ∀ key ∈ keys, present slots key = present slots' key

/-- The same values under all keys but some. -/
def AgreeOff (keys : List String) (slots slots' : List (Scalar × Value)) : Prop :=
  ∀ key, key ∉ keys → present slots key = present slots' key

/-- Two values of one variant with the same fields, which differ in one of them at most. -/
structure TypedIntent.SameBut (field : String) (t t' : TypedIntent) : Prop where
  variant_eq : t.variant = t'.variant
  fields_eq : List.Forall₂ (fun a b => a.1 = b.1 ∧ (a.1 ≠ field → a.2 = b.2)) t.fields t'.fields

theorem TypedIntent.SameBut.refl (field : String) (t : TypedIntent) : t.SameBut field t :=
  ⟨rfl, List.forall₂_same.mpr fun _ _ => ⟨rfl, fun _ => rfl⟩⟩

section Keys
variable {g : Grammar} {i : Intent} {v w : Variable}

/-- The keys of an argument are the two names of its variable. -/
theorem mem_lookupKeys_iff {key : String} :
    key ∈ v.toArgument.lookupKeys ↔ key ∈ v.names := by
  unfold Argument.lookupKeys Variable.toArgument Variable.names
  by_cases hname : v.name = v.rawName
  · simp [hname]
  · simp [hname]

theorem lookupKeys_disjoint (hg : g.WellFormed) (hi : i ∈ g.intents) (hv : v ∈ i.vars)
    (hw : w ∈ i.vars) (hne : v ≠ w) :
    v.toArgument.lookupKeys.Disjoint w.toArgument.lookupKeys := by
  intro key hkey hkey'
  apply hne
  exact eq_of_mem_names hg hi hv hw (mem_lookupKeys_iff.mp hkey) (mem_lookupKeys_iff.mp hkey')

/-- The variables of an intent are different, so their keys are apart. -/
theorem lookupKeys_pairwise_disjoint (hg : g.WellFormed) (hi : i ∈ g.intents) :
    i.vars.Pairwise fun v w => v.toArgument.lookupKeys.Disjoint w.toArgument.lookupKeys := by
  have hdistinct : i.vars.Nodup := (hg.vars_distinct i hi).of_map
  apply List.Pairwise.imp_of_mem _ hdistinct
  intro v w hv hw hne
  exact lookupKeys_disjoint hg hi hv hw hne

end Keys

theorem firstValue_congr {slots slots' : List (Scalar × Value)} {keys : List String}
    (h : AgreeOn keys slots slots') :
    TypedModule.firstValue slots keys = TypedModule.firstValue slots' keys := by
  rw [firstValue_eq_findSome?, firstValue_eq_findSome?]
  induction keys with
  | nil => rfl
  | cons key rest ih =>
      obtain ⟨hkey, hrest⟩ := List.forall_mem_cons.mp h
      rw [List.findSome?_cons, List.findSome?_cons, hkey, ih hrest]

section Reading
variable [Host] {m : TypedModule} {intent : Value} {slots slots' : List (Scalar × Value)}

theorem readArgument_congr {a : Argument} (h : AgreeOn a.lookupKeys slots slots') :
    m.readArgument intent (.map slots) a = m.readArgument intent (.map slots') a := by
  simp only [TypedModule.readArgument, firstValue_congr h]

theorem readArguments_congr {arguments : List Argument}
    (h : ∀ a ∈ arguments, AgreeOn a.lookupKeys slots slots') :
    m.readArguments intent (.map slots) arguments =
      m.readArguments intent (.map slots') arguments := by
  induction arguments with
  | nil => rfl
  | cons a rest ih =>
      have hrest := ih fun b hb => h b (List.mem_cons_of_mem a hb)
      rw [TypedModule.readArguments, TypedModule.readArguments,
        readArgument_congr (h a List.mem_cons_self), hrest]

/-- Decoding reads nothing but the keys of the case that the intent has. -/
theorem decode_congr {understood : Value}
    (h : ∀ c, m.case? intent = some c → ∀ a ∈ c.arguments, AgreeOn a.lookupKeys slots slots') :
    m.decode understood intent (.map slots) = m.decode understood intent (.map slots') := by
  unfold TypedModule.decode
  cases hcase : m.case? intent with
  | none => rfl
  | some c => simp only [readArguments_congr (h c hcase)]

end Reading

section Lookups
variable {given given' : List (String × Option EnumValue)}

/-- What is looked up under another name is the same in both. -/
theorem lookup_sameBut {field name : String}
    (h : List.Forall₂ (fun a b => a.1 = b.1 ∧ (a.1 ≠ field → a.2 = b.2)) given given')
    (hname : name ≠ field) : given.lookup name = given'.lookup name := by
  induction h with
  | nil => rfl
  | @cons a b _ _ hab _ ih =>
      rw [List.lookup_cons, List.lookup_cons, ih, ← hab.1]
      by_cases hkey : name = a.1
      · rw [hab.2 (hkey ▸ hname)]
      · rw [beq_eq_false_iff_ne.mpr hkey]

/-- So is what is looked up under several names, but for the field. -/
theorem mapM_lookup_sameBut {field : String}
    (h : List.Forall₂ (fun a b => a.1 = b.1 ∧ (a.1 ≠ field → a.2 = b.2)) given given')
    {names : List String} {found found' : List (String × Option EnumValue)}
    (hfound : (names.mapM fun name => (given.lookup name).map fun value => (name, value)) =
      some found)
    (hfound' : (names.mapM fun name => (given'.lookup name).map fun value => (name, value)) =
      some found') :
    List.Forall₂ (fun a b => a.1 = b.1 ∧ (a.1 ≠ field → a.2 = b.2)) found found' := by
  induction names generalizing found found' with
  | nil =>
      cases hfound
      cases hfound'
      exact .nil
  | cons name names ih =>
      simp only [List.mapM_cons, Option.bind_eq_bind, Option.bind_eq_some_iff,
        Option.map_eq_some_iff, Option.pure_def, Option.some.injEq] at hfound hfound'
      obtain ⟨_, ⟨x, hx, rfl⟩, rest, hrest, rfl⟩ := hfound
      obtain ⟨_, ⟨y, hy, rfl⟩, rest', hrest', rfl⟩ := hfound'
      refine .cons ⟨rfl, fun hname => ?_⟩ (ih hrest hrest')
      exact Option.some.inj (hx.symm.trans ((lookup_sameBut h hname).trans hy))

end Lookups

section Fields
variable [Host] {g : Grammar} {i : Intent} {m : TypedModule} {intent : Value}
variable {slots slots' : List (Scalar × Value)} {given given' : List (String × Option EnumValue)}

/-- An intent is one of the class of the name, with the values that stand under its fields. -/
theorem exists_of_construct {name : String} {t : TypedIntent} (h : m.construct name given = .ok t) :
    ∃ v fields, m.variant? name = some v ∧
      ((v.fields.map fun f => Host.fold f.name).mapM fun name =>
        (given.lookup name).map fun value => (name, value)) = some fields ∧
      t = ⟨Host.fold v.name, fields⟩ := by
  simp only [TypedModule.construct] at h
  split at h
  · cases h
  · next v hv =>
      split at h
      · split at h
        · next fields hfields =>
            cases h
            exact ⟨v, fields, hv, hfields, rfl⟩
        · cases h
      · cases h

/-- Values that differ in one field at most make intents that do. -/
theorem construct_sameBut {field name : String} {t t' : TypedIntent}
    (h : List.Forall₂ (fun a b => a.1 = b.1 ∧ (a.1 ≠ field → a.2 = b.2)) given given')
    (ht : m.construct name given = .ok t) (ht' : m.construct name given' = .ok t') :
    t.SameBut field t' := by
  obtain ⟨v, fields, hv, hfields, rfl⟩ := exists_of_construct ht
  obtain ⟨w, fields', hw, hfields', rfl⟩ := exists_of_construct ht'
  obtain rfl := Option.some.inj (hv.symm.trans hw)
  exact ⟨rfl, mapM_lookup_sameBut h hfields hfields'⟩

/-- Values read from slots that agree off the keys of one variable agree off its field. -/
theorem readArguments_sameBut (hg : g.WellFormed) (hi : i ∈ g.intents) {v : Variable}
    (hv : v ∈ i.vars) (h : AgreeOff v.toArgument.lookupKeys slots slots') {vars : List Variable}
    (hvars : vars ⊆ i.vars)
    (hread : m.readArguments intent (.map slots) (vars.map Variable.toArgument) = .ok given)
    (hread' : m.readArguments intent (.map slots') (vars.map Variable.toArgument) = .ok given') :
    List.Forall₂ (fun a b => a.1 = b.1 ∧ (a.1 ≠ v.name → a.2 = b.2)) given given' := by
  induction vars generalizing given given' with
  | nil =>
      cases hread
      cases hread'
      exact .nil
  | cons w rest ih =>
      obtain ⟨hw, hrest⟩ := List.cons_subset.mp hvars
      obtain ⟨x, hx, hread⟩ := Stepwise.bind_eq_ok_iff.mp hread
      obtain ⟨tail, htail, hread⟩ := Stepwise.bind_eq_ok_iff.mp hread
      obtain ⟨x', hx', hread'⟩ := Stepwise.bind_eq_ok_iff.mp hread'
      obtain ⟨tail', htail', hread'⟩ := Stepwise.bind_eq_ok_iff.mp hread'
      cases hread
      cases hread'
      refine .cons ⟨rfl, fun hne => ?_⟩ (ih hrest htail htail')
      -- Only the variable itself has its name, so the keys of this one are apart from its keys.
      have hwv : w ≠ v := by
        rintro rfl
        exact hne (fold_variable hg hi hw)
      have hagree : AgreeOn w.toArgument.lookupKeys slots slots' :=
        fun key hkey => h key (lookupKeys_disjoint hg hi hw hv hwv hkey)
      rw [readArgument_congr hagree] at hx
      exact Except.ok.inj (hx.symm.trans hx')

end Fields

/-- The fields of an intent do not share what is given for them. The keys of two variables are
apart; slots with the same values under the keys of the intent are answered alike, whatever else
they hold; and slots that differ under the keys of one variable give values that differ in its
field at most. -/
theorem fields_isolated [Host] (source project : Option String) (document : Value) (g : Grammar)
    (hbuilt : Grammar.ofValue source document = .ok g)
    (hn : (g.intents.map (·.name)).Nodup) :
    (∀ i ∈ g.intents,
      i.vars.Pairwise fun v w => v.toArgument.lookupKeys.Disjoint w.toArgument.lookupKeys) ∧
    ∀ understood intent slots slots',
      ((∀ i ∈ g.intents, intent = .text i.name →
          ∀ v ∈ i.vars, AgreeOn v.toArgument.lookupKeys slots slots') →
        (g.toModule project).decode understood intent (.map slots) =
          (g.toModule project).decode understood intent (.map slots')) ∧
      ∀ i ∈ g.intents, intent = .text i.name → ∀ v ∈ i.vars,
        AgreeOff v.toArgument.lookupKeys slots slots' → ∀ t t',
        (g.toModule project).decode understood intent (.map slots) = .ok t →
        (g.toModule project).decode understood intent (.map slots') = .ok t' →
        t.SameBut v.name t' := by
  have hg := Grammar.wellFormed_of_ofValue hbuilt
  refine ⟨fun i hi => lookupKeys_pairwise_disjoint hg hi, ?_⟩
  intro understood intent slots slots'
  constructor
  · intro hagree
    apply decode_congr
    intro c hcase a ha
    by_cases hno : ∀ i ∈ g.intents, intent ≠ .text i.name
    · simp [case?_eq_none hno] at hcase
    · push Not at hno
      obtain ⟨i, hi, rfl⟩ := hno
      rw [case?_text hn hi, Option.some.injEq] at hcase
      subst hcase
      obtain ⟨v, hv, rfl⟩ := List.mem_map.mp ha
      exact hagree i hi rfl v hv
  · intro i hi hname v hv hagree t t' ht ht'
    subst hname
    cases hflag : understood.isEmpty with
    | true =>
        have hsame : t = t' := by
          simp only [TypedModule.decode, hflag, if_true] at ht ht'
          exact Except.ok.inj (ht.symm.trans ht')
        exact hsame ▸ .refl v.name t
    | false =>
        simp only [TypedModule.decode, hflag, case?_text hn hi] at ht ht'
        obtain ⟨given, hread, ht⟩ := Stepwise.bind_eq_ok_iff.mp ht
        obtain ⟨given', hread', ht'⟩ := Stepwise.bind_eq_ok_iff.mp ht'
        have hsame := readArguments_sameBut hg hi hv hagree (fun _ h => h) hread hread'
        exact construct_sameBut hsame ht ht'

section Runs
attribute [local instance] Host.plain

/-- The lamp in another room: the state is read from its own key, whatever the room is given
and whatever stands under keys of no variable. -/
theorem lamp_isolated :
    (lampGrammar.toModule none).decode (.bool true) (.text "Turn")
        (.map [(.text "to", .text "on"), (.text "hum", .int 3), (.text "Class", .null)]) =
      (lampGrammar.toModule none).decode (.bool true) (.text "Turn")
        (.map [(.text "to", .text "on")]) ∧
    TypedIntent.SameBut "Class"
      ⟨"Turn", [("to", some ⟨"State", "on", "on"⟩), ("Class", some ⟨"Room", "With", "with"⟩)]⟩
      ⟨"Turn", [("to", some ⟨"State", "on", "on"⟩), ("Class", none)]⟩ := by
  have h := (fields_isolated none none lampContext lampGrammar rfl (by decide)).2
  have hturn : turn ∈ lampGrammar.intents := List.mem_singleton_self turn
  constructor
  · refine (h _ _ _ _).1 ?_
    intro i hi _ v hv key hkey
    obtain rfl := List.mem_singleton.mp hi
    simp only [turn, List.mem_cons, List.not_mem_nil, or_false] at hv
    rcases hv with rfl | rfl
    · obtain rfl : key = "to" := by simpa [Variable.toArgument, Argument.lookupKeys] using hkey
      rfl
    · have hkey : key = "class" ∨ key = "Class" := by
        simpa [Variable.toArgument, Argument.lookupKeys] using hkey
      rcases hkey with rfl | rfl <;> rfl
  · have hclass : (⟨"Class", "class", roomSlot, false⟩ : Variable) ∈ turn.vars := by decide
    refine (h (.bool true) (.text "Turn") [(.text "to", .text "on"), (.text "class", .text "with")]
      [(.text "to", .text "on")]).2 turn hturn rfl _ hclass ?_ _ _
      (Stepwise.toOption_eq_some_iff.mp (by decide +kernel))
      (Stepwise.toOption_eq_some_iff.mp (by decide +kernel))
    intro key hkey
    have hne : key ≠ "class" := by
      rintro rfl
      exact hkey (by decide)
    simp [present, lookup, Ne.symm hne, List.find?]

end Runs

end VoiceIntents
