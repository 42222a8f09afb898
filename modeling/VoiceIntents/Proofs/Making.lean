import VoiceIntents.Context
import VoiceIntents.Proofs.Stepwise

/-!
# Making documents

What one step of making a document may change. Reading items and keys meets collections and
remembers defaults; only the turn of a mapping rewrites the graph, by merging its own merge
keys; and only the end of a turn adds a filled collection. A run is a list of turns.
-/

namespace VoiceIntents.Yaml

open Stepwise (bind_eq_ok_iff)

/-- The keys that are compared with each other: scalars that do not merge. -/
def Graph.isChecked (g : Graph) (keyId : NodeId) : Bool :=
  (g.node keyId).content.isScalar && g.tag keyId ≠ .merge

/-- Mappings and sets, whose merge keys are replaced when they are filled. -/
def Graph.isMapped (g : Graph) (id : NodeId) : Bool := g.tag id = .map || g.tag id = .set

/-- The graph after a node has been filled. -/
def Graph.mergedAt [Host] (g : Graph) (id : NodeId) : Except Error Graph :=
  if g.isMapped id then g.mergeKeys id else .ok g

/-- The scalars by which a collection is looked up. -/
def Collection.keys : Collection → List Scalar
  | .map entries => entries.map (·.1)
  | .set members => members
  | .list _ | .pairs _ => []

/-- No two keys of a collection are the same. -/
def Collection.KeysApart (c : Collection) : Prop := c.keys.Pairwise fun a b => a.same b = false

/-- The keys after an entry has been put into a map. -/
theorem Key.keys_put (key : Key) (item : Item) (made : List (Key × Item)) :
    (key.put item made).map (·.1) =
      if (made.map (·.1)).any (·.same key) then made.map (·.1) else made.map (·.1) ++ [key] := by
  induction made with
  | nil => rfl
  | cons entry rest ih =>
      rw [Key.put]
      cases hsame : entry.1.same key with
      | true => simp [hsame]
      | false =>
          simp only [Bool.false_eq_true, if_false, List.map_cons, ih, List.any_cons, hsame,
            Bool.false_or]
          split <;> rfl

/-- Putting an entry into a map keeps its keys apart. -/
theorem Key.put_keys_apart {key : Key} {item : Item} {made : List (Key × Item)}
    (h : (made.map (·.1)).Pairwise fun a b => a.same b = false) :
    ((key.put item made).map (·.1)).Pairwise fun a b => a.same b = false := by
  rw [Key.keys_put]
  split
  · exact h
  · next hnew =>
      simp only [List.any_eq_true, not_exists, not_and, Bool.not_eq_true] at hnew
      refine List.pairwise_append.mpr ⟨h, List.pairwise_singleton _ _, ?_⟩
      intro a ha b hb
      rw [List.mem_singleton.mp hb]
      exact hnew a ha

namespace Make

section Run
variable {α β : Type} {s s' : Making}

/-- Two steps succeed when the first does and the second does from where the first ends. -/
theorem bind_run_eq_ok_iff {x : Make α} {f : α → Make β} {b : β} :
    (x >>= f).run s = .ok (b, s') ↔
      ∃ a between, x.run s = .ok (a, between) ∧ (f a).run between = .ok (b, s') := by
  rw [StateT.run_bind, bind_eq_ok_iff]
  constructor
  · rintro ⟨⟨a, between⟩, hx, hf⟩
    exact ⟨a, between, hx, hf⟩
  · rintro ⟨a, between, hx, hf⟩
    exact ⟨(a, between), hx, hf⟩

theorem get_bind_run (f : Making → Make β) : (get >>= f).run s = (f s).run s := rfl

theorem modify_bind_run (f : Making → Making) (x : Unit → Make β) :
    (modify f >>= x).run s = (x ()).run (f s) := rfl

theorem lift_bind_run (x : Except Error α) (f : α → Make β) :
    ((x : Make α) >>= f).run s = x >>= fun a => (f a).run s := by
  cases x <;> rfl

theorem pure_run_eq_ok_iff {a b : α} : (pure a : Make α).run s = .ok (b, s') ↔ a = b ∧ s = s' := by
  rw [StateT.run_pure]
  change Except.ok (a, s) = .ok (b, s') ↔ _
  simp

theorem fail_run (cause : Malformed) (id : NodeId) :
    (fail cause id : Make α).run s = .error (.malformed cause (s.graph.node id).start) := rfl

theorem unreadable_run (cause : Unreadable) :
    (unreadable cause : Make α).run s = .error (.unreadable cause) := rfl

end Run

end Make

namespace Making

/-- The state after a collection has been met. -/
def meet (s : Making) (id : NodeId) : Making :=
  if s.met.contains id then s else { s with met := id :: s.met, waiting := s.waiting ++ [id] }

/-- The state after a key has been read, which is remembered for a collection. -/
def remember (s : Making) (id : NodeId) (key : Key) : Making :=
  if (s.graph.node id).content.isScalar then s
  else { s with defaults := (id, key) :: s.defaults }

/-- What reading items and keys may change: collections that were not met before are met and
wait, and more defaults of collections are remembered. -/
structure Extends (s s' : Making) : Prop where
  graph_eq : s'.graph = s.graph
  filled_eq : s'.filled = s.filled
  waiting_new : ∃ new, s'.waiting = s.waiting ++ new ∧ s'.met = new.reverse ++ s.met ∧
    new.Nodup ∧ ∀ id ∈ new, id ∉ s.met
  defaults_new : ∀ e ∈ s'.defaults,
    e ∈ s.defaults ∨ (s.graph.node e.1).content.isScalar = false

namespace Extends

theorem refl (s : Making) : s.Extends s :=
  ⟨rfl, rfl, ⟨[], by simp⟩, fun _ => .inl⟩

theorem trans {s t u : Making} (h : s.Extends t) (h' : t.Extends u) : s.Extends u where
  graph_eq := h'.graph_eq.trans h.graph_eq
  filled_eq := h'.filled_eq.trans h.filled_eq
  waiting_new := by
    obtain ⟨new, hwaiting, hmet, hnodup, hfresh⟩ := h.waiting_new
    obtain ⟨new', hwaiting', hmet', hnodup', hfresh'⟩ := h'.waiting_new
    simp only [hmet, List.mem_append, List.mem_reverse, not_or] at hfresh'
    refine ⟨new ++ new', by simp [hwaiting', hwaiting], by simp [hmet', hmet], ?_, ?_⟩
    · refine List.nodup_append.mpr ⟨hnodup, hnodup', ?_⟩
      intro a ha b hb hab
      exact (hfresh' b hb).1 (hab ▸ ha)
    · intro id hid
      rcases List.mem_append.mp hid with hid | hid
      · exact hfresh id hid
      · exact (hfresh' id hid).2
  defaults_new := by
    intro e he
    rcases h'.defaults_new e he with hold | hnew
    · exact h.defaults_new e hold
    · rw [h.graph_eq] at hnew
      exact .inr hnew

end Extends

theorem extends_meet (s : Making) (id : NodeId) : s.Extends (s.meet id) := by
  unfold meet
  split
  · exact .refl s
  · next hnew => exact ⟨rfl, rfl, ⟨[id], rfl, rfl, by simp, by simpa using hnew⟩, fun _ => .inl⟩

theorem extends_remember (s : Making) (id : NodeId) (key : Key) :
    s.Extends (s.remember id key) := by
  unfold remember
  split
  · exact .refl s
  · next hscalar =>
      refine ⟨rfl, rfl, ⟨[], by simp⟩, ?_⟩
      intro e he
      rcases List.mem_cons.mp he with rfl | hold
      · exact .inr (Bool.not_eq_true _ ▸ hscalar)
      · exact .inl hold

/-- Collections are done or wait once, and only if they were met. -/
structure Scheduled (done waiting met : List NodeId) : Prop where
  once : (done ++ waiting).Nodup
  known : ∀ id ∈ done ++ waiting, id ∈ met

/-- Collections that were not met before may wait behind the others. -/
theorem Scheduled.append {done waiting met new : List NodeId} (h : Scheduled done waiting met)
    (hnodup : new.Nodup) (hfresh : ∀ id ∈ new, id ∉ met) :
    Scheduled done (waiting ++ new) (new.reverse ++ met) := by
  constructor
  · rw [← List.append_assoc]
    refine List.nodup_append.mpr ⟨h.once, hnodup, ?_⟩
    intro a ha b hb hab
    exact hfresh b hb (hab ▸ h.known a ha)
  · intro id hid
    rw [← List.append_assoc] at hid
    rcases List.mem_append.mp hid with hid | hid
    · exact List.mem_append_right _ (h.known id hid)
    · exact List.mem_append_left _ (List.mem_reverse.mpr hid)

end Making

namespace Make

section Items
variable {s s' : Making} {id : NodeId}

theorem meet_run : (meet id).run s = .ok (.node id, s.meet id) := by
  unfold meet Making.meet
  rw [get_bind_run]
  cases hmet : s.met.contains id <;> rfl

variable [Host]

/-- The key of a node that is read now. -/
def freshKey (g : Graph) (id : NodeId) : Except Error Key := do
  let scalar ← scalarOf g id
  return ⟨scalar, makerOf g id scalar⟩

theorem scalarKey_run : (scalarKey id).run s =
    match s.defaults.lookup id with
    | some key => .ok (key, s)
    | none => freshKey s.graph id >>= fun key => .ok (key, s.remember id key) := by
  unfold scalarKey
  rw [get_bind_run]
  cases s.defaults.lookup id with
  | some key => rfl
  | none =>
      dsimp only
      rw [get_bind_run, lift_bind_run]
      unfold freshKey Making.remember
      cases scalarOf s.graph id with
      | error e => rfl
      | ok scalar => cases (s.graph.node id).content.isScalar <;> rfl

theorem item_run : (item id).run s =
    if isCollection (s.graph.tag id) then .ok (.node id, s.meet id)
    else (scalarKey id).run s >>= fun (key, s') => .ok (.scalar key.scalar, s') := by
  unfold item
  rw [get_bind_run]
  split
  · exact meet_run
  · rfl

theorem key?_run : (key? id).run s =
    if isCollection (s.graph.tag id) then .ok (none, s.meet id)
    else (scalarKey id).run s >>= fun (key, s') => .ok (some key, s') := by
  unfold key?
  rw [get_bind_run]
  split
  · rw [StateT.run_bind, meet_run]
    rfl
  · rfl

end Items

/-- A step that leaves the graph and the filled collections as they are. -/
def Steady {α : Type} (x : Make α) : Prop :=
  ∀ ⦃s a s'⦄, x.run s = .ok (a, s') → s.Extends s'

section Steady
variable {α β : Type}

theorem steady_pure (a : α) : Steady (pure a) := by
  intro s b s' h
  obtain ⟨_, rfl⟩ := pure_run_eq_ok_iff.mp h
  exact .refl s

theorem Steady.bind {x : Make α} {f : α → Make β} (hx : Steady x) (hf : ∀ a, Steady (f a)) :
    Steady (x >>= f) := by
  intro s b s' h
  obtain ⟨a, between, hfirst, hsecond⟩ := bind_run_eq_ok_iff.mp h
  exact (hx hfirst).trans (hf a hsecond)

theorem steady_fail (cause : Malformed) (id : NodeId) : Steady (fail cause id : Make α) := by
  intro s a s' h
  cases h

theorem Steady.mapM {f : α → Make β} (hf : ∀ a, Steady (f a)) (items : List α) :
    Steady (items.mapM f) := by
  induction items with
  | nil =>
      rw [List.mapM_nil]
      exact steady_pure []
  | cons a rest ih =>
      rw [List.mapM_cons]
      exact (hf a).bind fun b => ih.bind fun bs => steady_pure (b :: bs)

variable [Host]

theorem steady_scalarKey (id : NodeId) : Steady (scalarKey id) := by
  intro s key s' h
  rw [scalarKey_run] at h
  split at h
  · cases h
    exact .refl s
  · obtain ⟨fresh, _, hend⟩ := bind_eq_ok_iff.mp h
    cases hend
    exact s.extends_remember id _

theorem steady_item (id : NodeId) : Steady (item id) := by
  intro s result s' h
  rw [item_run] at h
  split at h
  · cases h
    exact s.extends_meet id
  · obtain ⟨⟨key, between⟩, hkey, hend⟩ := bind_eq_ok_iff.mp h
    cases hend
    exact steady_scalarKey id hkey

theorem steady_key? (id : NodeId) : Steady (key? id) := by
  intro s result s' h
  rw [key?_run] at h
  split at h
  · cases h
    exact s.extends_meet id
  · obtain ⟨⟨key, between⟩, hkey, hend⟩ := bind_eq_ok_iff.mp h
    cases hend
    exact steady_scalarKey id hkey

theorem steady_entries (made : List (Key × Item)) (pairs : List (NodeId × NodeId)) :
    Steady (entries made pairs) := by
  induction pairs generalizing made with
  | nil => exact steady_pure made
  | cons pair rest ih =>
      refine (steady_key? pair.1).bind ?_
      rintro (_ | key)
      · exact steady_fail .collectionKey pair.1
      · exact (steady_item pair.2).bind fun item => ih (key.put item made)

theorem steady_sequence (id : NodeId) : Steady (sequence id) := by
  intro s items s' h
  unfold sequence at h
  rw [get_bind_run] at h
  split at h
  · exact Steady.mapM steady_item _ h
  · cases h

theorem steady_singlePair (id : NodeId) : Steady (singlePair id) := by
  intro s pair s' h
  unfold singlePair at h
  rw [get_bind_run] at h
  split at h
  · next first second _ =>
      have hsecond (a : Item) := (steady_item second).bind fun b => steady_pure (a, b)
      exact (steady_item first).bind hsecond h
  · cases h

end Steady

section Checks
variable [Host] {s s' : Making} {id : NodeId}

/-- The keys that are checked are scalars, which nothing is remembered of. -/
theorem key?_state_eq (hscalar : (s.graph.node id).content.isScalar = true) {key : Key}
    (h : (key? id).run s = .ok (some key, s')) : s' = s := by
  rw [key?_run] at h
  split at h
  · cases h
  · obtain ⟨⟨key', between⟩, hkey, hend⟩ := bind_eq_ok_iff.mp h
    cases hend
    rw [scalarKey_run] at hkey
    split at hkey
    · cases hkey
      rfl
    · obtain ⟨fresh, _, hend⟩ := bind_eq_ok_iff.mp hkey
      cases hend
      rw [Making.remember, if_pos hscalar]

/-- One step of the check: a key that is checked can be read and is the same as none before. -/
theorem refuseRepeats_cons_eq_ok_iff {before : List Key} {pair : NodeId × NodeId}
    {rest : List (NodeId × NodeId)} :
    (refuseRepeats id before (pair :: rest)).run s = .ok ((), s') ↔
      if s.graph.isChecked pair.1 then
        ∃ key, (key? pair.1).run s = .ok (some key, s) ∧ before.any key.same = false ∧
          (refuseRepeats id (before ++ [key]) rest).run s = .ok ((), s')
      else (refuseRepeats id before rest).run s = .ok ((), s') := by
  rw [refuseRepeats, get_bind_run]
  dsimp only
  cases hscalar : (s.graph.node pair.1).content.isScalar with
  | false => simp [Graph.isChecked, hscalar]
  | true =>
      by_cases hmerge : s.graph.tag pair.1 = .merge
      · simp [Graph.isChecked, hmerge]
      · simp only [Graph.isChecked, hscalar, hmerge, Bool.not_true, decide_false, Bool.or_false,
          Bool.false_eq_true, if_false, decide_not, Bool.not_false, Bool.and_true, if_true]
        constructor
        · intro h
          obtain ⟨key, between, hkey, h⟩ := bind_run_eq_ok_iff.mp h
          cases key with
          | none => cases h
          | some key =>
              obtain rfl := key?_state_eq hscalar hkey
              refine ⟨key, hkey, ?_⟩
              cases hrepeats : before.any key.same with
              | false =>
                  simp only [hrepeats, Bool.false_eq_true, if_false] at h
                  exact ⟨rfl, h⟩
              | true =>
                  simp only [hrepeats, if_true] at h
                  obtain ⟨_, _, _, h⟩ := bind_run_eq_ok_iff.mp h
                  obtain ⟨_, _, hthrow, _⟩ := bind_run_eq_ok_iff.mp h
                  cases hthrow
        · rintro ⟨key, hkey, hrepeats, h⟩
          refine bind_run_eq_ok_iff.mpr ⟨some key, s, hkey, ?_⟩
          simp only [hrepeats, Bool.false_eq_true, if_false]
          exact h

/-- The check passes over pairs: the keys that are checked can be read, and no two are the
same. -/
def KeysPass (s : Making) (pairs : List (NodeId × NodeId)) : Prop :=
  ∃ keys, List.Forall₂ (fun p key => (key? p.1).run s = .ok (some key, s))
    (pairs.filter fun p => s.graph.isChecked p.1) keys ∧
    keys.Pairwise fun earlier later => later.same earlier = false

/-- The check changes nothing, and it passes when all keys can be read and are apart from each
other and from those before. -/
theorem refuseRepeats_eq_ok_iff {before : List Key} {pairs : List (NodeId × NodeId)} :
    (refuseRepeats id before pairs).run s = .ok ((), s') ↔
      s' = s ∧ ∃ keys, List.Forall₂ (fun p key => (key? p.1).run s = .ok (some key, s))
        (pairs.filter fun p => s.graph.isChecked p.1) keys ∧
        (keys.Pairwise fun earlier later => later.same earlier = false) ∧
        ∀ earlier ∈ before, ∀ later ∈ keys, later.same earlier = false := by
  induction pairs generalizing before with
  | nil =>
      rw [refuseRepeats, pure_run_eq_ok_iff]
      constructor
      · rintro ⟨_, rfl⟩
        exact ⟨rfl, [], .nil, .nil, by simp⟩
      · rintro ⟨rfl, _⟩
        exact ⟨rfl, rfl⟩
  | cons pair rest ih =>
      rw [refuseRepeats_cons_eq_ok_iff]
      cases hchecked : s.graph.isChecked pair.1 with
      | false =>
          rw [if_neg Bool.false_ne_true, ih, List.filter_cons_of_neg (by simp [hchecked])]
      | true =>
          rw [if_pos rfl, List.filter_cons_of_pos (by simp [hchecked])]
          simp only [ih, List.forall₂_cons_left_iff]
          constructor
          · rintro ⟨key, hkey, hfresh, rfl, keys, hkeys, hapart, hbefore⟩
            refine ⟨rfl, key :: keys, ⟨key, keys, hkey, hkeys, rfl⟩, ?_, ?_⟩
            · refine List.pairwise_cons.mpr ⟨?_, hapart⟩
              exact hbefore key (by simp)
            · intro earlier hearlier
              refine List.forall_mem_cons.mpr ⟨?_, ?_⟩
              · simpa using List.any_eq_false.mp hfresh earlier hearlier
              · exact hbefore earlier (by simp [hearlier])
          · rintro ⟨rfl, _, ⟨key, keys, hkey, hkeys, rfl⟩, hapart, hbefore⟩
            obtain ⟨hnext, hapart⟩ := List.pairwise_cons.mp hapart
            refine ⟨key, hkey, ?_, rfl, keys, hkeys, hapart, ?_⟩
            · rw [List.any_eq_false]
              intro earlier hearlier
              simp [hbefore earlier hearlier key List.mem_cons_self]
            · intro earlier hearlier later hlater
              rcases List.mem_append.mp hearlier with hold | hnew
              · exact hbefore earlier hold later (List.mem_cons_of_mem key hlater)
              · rw [List.mem_singleton.mp hnew]
                exact hnext later hlater

/-- The check changes nothing. Whatever is no mapping passes it only when it is empty. -/
theorem checkKeys_eq_ok_iff : (checkKeys id).run s = .ok ((), s') ↔ s' = s ∧
    match (s.graph.node id).content with
    | .mapping pairs => KeysPass s pairs
    | .scalar text => text = ""
    | .sequence items => items = [] := by
  rw [checkKeys, get_bind_run]
  cases (s.graph.node id).content with
  | mapping pairs =>
      dsimp only
      rw [refuseRepeats_eq_ok_iff]
      simp [KeysPass]
  | scalar text =>
      by_cases hempty : text = ""
      · simp only [hempty, ne_eq, not_true_eq_false, if_false, pure_run_eq_ok_iff]
        simp [eq_comm]
      · simp [hempty, unreadable_run]
  | sequence items =>
      cases items with
      | nil =>
          simp only [List.isEmpty_nil, Bool.not_true, Bool.false_eq_true, if_false,
            pure_run_eq_ok_iff]
          simp [eq_comm]
      | cons item items => simp [unreadable_run]

end Checks

section Mappings
variable [Host] {s s' : Making} {id : NodeId} {made : List (Key × Item)}

/-- A mapping is merged before its entries are read. -/
theorem mapping_lastWins_eq_ok_iff :
    (mapping .lastWins id).run s = .ok (made, s') ↔
      ∃ pairs g, (s.graph.node id).content = .mapping pairs ∧ s.graph.mergeKeys id = .ok g ∧
        (entries [] (g.pairs id)).run { s with graph := g } = .ok (made, s') := by
  rw [mapping, if_neg (by decide), get_bind_run]
  split
  · next pairs hcontent =>
      rw [get_bind_run, lift_bind_run, bind_eq_ok_iff]
      simp only [modify_bind_run, hcontent, Content.mapping.injEq]
      constructor
      · rintro ⟨g, hmerge, hentries⟩
        exact ⟨pairs, g, rfl, hmerge, hentries⟩
      · rintro ⟨_, g, rfl, hmerge, hentries⟩
        exact ⟨g, hmerge, hentries⟩
  · next hcontent =>
      rw [fail_run]
      constructor
      · intro h
        cases h
      · rintro ⟨pairs, _, hpairs, _⟩
        exact absurd hpairs (hcontent pairs)

/-- Refusing repeats adds the check and nothing else. -/
theorem mapping_refused (id : NodeId) :
    mapping .refused id = checkKeys id >>= fun _ => mapping .lastWins id := by
  unfold mapping
  simp

theorem mapping_refused_eq_ok_iff :
    (mapping .refused id).run s = .ok (made, s') ↔
      KeysPass s (s.graph.pairs id) ∧ (mapping .lastWins id).run s = .ok (made, s') := by
  rw [mapping_refused, bind_run_eq_ok_iff]
  constructor
  · rintro ⟨⟨⟩, between, hcheck, h⟩
    obtain ⟨rfl, hpass⟩ := checkKeys_eq_ok_iff.mp hcheck
    obtain ⟨pairs, _, hcontent, _⟩ := mapping_lastWins_eq_ok_iff.mp h
    rw [hcontent] at hpass
    exact ⟨by rwa [Graph.pairs, hcontent], h⟩
  · rintro ⟨hpass, h⟩
    obtain ⟨pairs, _, hcontent, _⟩ := mapping_lastWins_eq_ok_iff.mp h
    refine ⟨(), s, checkKeys_eq_ok_iff.mpr ⟨rfl, ?_⟩, h⟩
    rw [Graph.pairs, hcontent] at hpass
    rwa [hcontent]

theorem entries_keys_apart {pairs : List (NodeId × NodeId)} {made' : List (Key × Item)}
    (hmade : (made.map (·.1)).Pairwise fun a b => a.same b = false)
    (h : (entries made pairs).run s = .ok (made', s')) :
    (made'.map (·.1)).Pairwise fun a b => a.same b = false := by
  induction pairs generalizing made s with
  | nil =>
      obtain ⟨rfl, _⟩ := pure_run_eq_ok_iff.mp h
      exact hmade
  | cons pair rest ih =>
      obtain ⟨key, _, _, h⟩ := bind_run_eq_ok_iff.mp h
      cases key with
      | none => cases h
      | some key =>
          obtain ⟨item, _, _, h⟩ := bind_run_eq_ok_iff.mp h
          exact ih (Key.put_keys_apart hmade) h

/-- The graph after a mapping has been read is the merged one, and the rest is as after
reading its entries. -/
theorem mapping_spec {repeats : RepeatedKeys} (h : (mapping repeats id).run s = .ok (made, s')) :
    ∃ g, s.graph.mergeKeys id = .ok g ∧ Making.Extends { s with graph := g } s' ∧
      (made.map (·.1)).Pairwise fun a b => a.same b = false := by
  have hplain : (mapping .lastWins id).run s = .ok (made, s') := by
    cases repeats with
    | refused => exact (mapping_refused_eq_ok_iff.mp h).2
    | lastWins => exact h
  obtain ⟨_, g, _, hmerge, hentries⟩ := mapping_lastWins_eq_ok_iff.mp hplain
  exact ⟨g, hmerge, steady_entries _ _ hentries, entries_keys_apart .nil hentries⟩

end Mappings

/-- The collection of the entries that a mapping or set is made of. -/
def collect (tag : Tag) (made : List (Key × Item)) : Collection :=
  if tag = .map then .map (made.map fun (k, i) => (k.scalar, i))
  else .set (made.map fun (k, _) => k.scalar)

theorem keys_collect (tag : Tag) (made : List (Key × Item)) :
    (collect tag made).keys = (made.map (·.1)).map (·.scalar) := by
  unfold collect
  split <;> simp [Collection.keys, Function.comp_def]

section Fill
variable [Host] {repeats : RepeatedKeys} {s s' : Making} {id : NodeId} {c : Collection}

theorem fill_run_of_isMapped (h : s.graph.isMapped id = true) :
    (fill repeats id).run s =
      (mapping repeats id).run s >>= fun (made, s') => .ok (collect (s.graph.tag id) made, s') := by
  rw [fill, get_bind_run]
  rcases Bool.or_eq_true_iff.mp h with hmap | hset
  · rw [of_decide_eq_true hmap]
    rfl
  · rw [of_decide_eq_true hset]
    rfl

/-- What is neither a mapping nor a set is filled without a check. -/
theorem fill_run_of_not_isMapped (h : s.graph.isMapped id = false) :
    (fill .refused id).run s = (fill .lastWins id).run s := by
  obtain ⟨hmap, hset⟩ := Bool.or_eq_false_iff.mp h
  rw [fill, get_bind_run, fill, get_bind_run]
  split
  · next htag => simp [htag] at hmap
  · next htag => simp [htag] at hset
  · rfl
  · rfl

/-- What is neither a mapping nor a set has no keys, and filling it keeps the graph. -/
theorem fill_spec_of_not_isMapped (h : s.graph.isMapped id = false)
    (hfill : (fill repeats id).run s = .ok (c, s')) : s.Extends s' ∧ c.keys = [] := by
  obtain ⟨hmap, hset⟩ := Bool.or_eq_false_iff.mp h
  rw [fill, get_bind_run] at hfill
  split at hfill
  · next htag => simp [htag] at hmap
  · next htag => simp [htag] at hset
  · obtain ⟨items, _, hitems, hend⟩ := bind_run_eq_ok_iff.mp hfill
    obtain ⟨rfl, rfl⟩ := pure_run_eq_ok_iff.mp hend
    exact ⟨steady_sequence id hitems, rfl⟩
  · rw [get_bind_run] at hfill
    split at hfill
    · obtain ⟨items, _, hitems, hend⟩ := bind_run_eq_ok_iff.mp hfill
      obtain ⟨rfl, rfl⟩ := pure_run_eq_ok_iff.mp hend
      exact ⟨Steady.mapM steady_singlePair _ hitems, rfl⟩
    · cases hfill

/-- Refusing repeats checks the keys of mappings and sets before they are filled. -/
theorem fill_refused_eq_ok_iff :
    (fill .refused id).run s = .ok (c, s') ↔
      (s.graph.isMapped id = true → KeysPass s (s.graph.pairs id)) ∧
        (fill .lastWins id).run s = .ok (c, s') := by
  cases hmapped : s.graph.isMapped id with
  | false =>
      rw [fill_run_of_not_isMapped hmapped]
      simp
  | true =>
      rw [fill_run_of_isMapped hmapped, fill_run_of_isMapped hmapped]
      simp only [bind_eq_ok_iff, Prod.exists, mapping_refused_eq_ok_iff, true_imp_iff]
      constructor
      · rintro ⟨made, between, ⟨hpass, hmade⟩, hend⟩
        exact ⟨hpass, made, between, hmade, hend⟩
      · rintro ⟨hpass, made, between, hmade, hend⟩
        exact ⟨made, between, ⟨hpass, hmade⟩, hend⟩

/-- Filling a collection merges its own merge keys and keeps its keys apart. -/
theorem fill_spec (h : (fill repeats id).run s = .ok (c, s')) :
    ∃ g, s.graph.mergedAt id = .ok g ∧ Making.Extends { s with graph := g } s' ∧
      c.KeysApart := by
  cases hmapped : s.graph.isMapped id with
  | false =>
      obtain ⟨hextends, hkeys⟩ := fill_spec_of_not_isMapped hmapped h
      refine ⟨s.graph, by simp [Graph.mergedAt, hmapped], hextends, ?_⟩
      rw [Collection.KeysApart, hkeys]
      exact .nil
  | true =>
      rw [fill_run_of_isMapped hmapped] at h
      obtain ⟨⟨made, between⟩, hmade, hend⟩ := bind_eq_ok_iff.mp h
      cases hend
      obtain ⟨g, hmerge, hextends, hapart⟩ := mapping_spec hmade
      refine ⟨g, by rwa [Graph.mergedAt, if_pos hmapped], hextends, ?_⟩
      rw [Collection.KeysApart, keys_collect, List.pairwise_map]
      refine hapart.imp ?_
      intro a b hab
      exact (Bool.or_eq_false_iff.mp hab).1

end Fill

/-- The first collection that waits is filled. -/
def Turn [Host] (repeats : RepeatedKeys) (id : NodeId) (s s' : Making) : Prop :=
  ∃ rest c between, s.waiting = id :: rest ∧
    (fill repeats id).run { s with waiting := rest } = .ok (c, between) ∧
    s' = { between with filled := between.filled ++ [(id, c)] }

section Turns
variable [Host] {repeats : RepeatedKeys} {s s' : Making} {id : NodeId} {fuel : Nat}

/-- A turn adds a collection with keys that are apart, and merges the graph at its node. -/
theorem Turn.spec (h : Turn repeats id s s') :
    ∃ c, s'.filled = s.filled ++ [(id, c)] ∧ c.KeysApart ∧ s.graph.mergedAt id = .ok s'.graph ∧
      ∀ e ∈ s'.defaults, e ∈ s.defaults ∨ (s'.graph.node e.1).content.isScalar = false := by
  obtain ⟨rest, c, between, _, hfill, rfl⟩ := h
  obtain ⟨g, hmerge, hextends, hapart⟩ := fill_spec hfill
  refine ⟨c, by rw [hextends.filled_eq], hapart, by rwa [hextends.graph_eq], ?_⟩
  intro e he
  rw [hextends.graph_eq]
  exact hextends.defaults_new e he

/-- A turn fills what waited first, so nothing is filled twice. -/
theorem Turn.scheduled (hs : Making.Scheduled (s.filled.map (·.1)) s.waiting s.met)
    (h : Turn repeats id s s') :
    Making.Scheduled (s'.filled.map (·.1)) s'.waiting s'.met := by
  obtain ⟨rest, c, between, hwaiting, hfill, rfl⟩ := h
  obtain ⟨g, _, hextends, _⟩ := fill_spec hfill
  obtain ⟨new, hnew, hmet, hnodup, hfresh⟩ := hextends.waiting_new
  have hnext : Making.Scheduled ((s.filled ++ [(id, c)]).map (·.1)) rest s.met := by
    rw [hwaiting] at hs
    exact ⟨by simpa using hs.once, by simpa using hs.known⟩
  dsimp only
  rw [hextends.filled_eq, hnew, hmet]
  exact hnext.append hnodup hfresh

theorem fillAll_succ_run {rest : List NodeId} (h : s.waiting = id :: rest) :
    (fillAll repeats (fuel + 1)).run s =
      (fill repeats id).run { s with waiting := rest } >>= fun (c, between) =>
        (fillAll repeats fuel).run { between with filled := between.filled ++ [(id, c)] } := by
  rw [fillAll, get_bind_run, h]
  rfl

/-- A run goes on after a turn. -/
theorem fillAll_succ_run_of_turn (h : Turn repeats id s s') :
    (fillAll repeats (fuel + 1)).run s = (fillAll repeats fuel).run s' := by
  obtain ⟨rest, c, between, hwaiting, hfill, rfl⟩ := h
  rw [fillAll_succ_run hwaiting, hfill]
  rfl

/-- A run ends when nothing waits, or goes on after a turn. -/
theorem fillAll_succ_eq_ok_iff :
    (fillAll repeats (fuel + 1)).run s = .ok ((), s') ↔
      (s.waiting = [] ∧ s' = s) ∨
        ∃ id between, Turn repeats id s between ∧
          (fillAll repeats fuel).run between = .ok ((), s') := by
  rw [fillAll, get_bind_run]
  cases hwaiting : s.waiting with
  | nil =>
      dsimp only
      rw [pure_run_eq_ok_iff]
      constructor
      · rintro ⟨_, rfl⟩
        exact .inl ⟨rfl, rfl⟩
      · rintro (⟨_, rfl⟩ | ⟨id, between, ⟨rest, _, _, hrest, _⟩, _⟩)
        · exact ⟨rfl, rfl⟩
        · simp [hwaiting] at hrest
  | cons first rest =>
      dsimp only
      rw [modify_bind_run, bind_run_eq_ok_iff]
      simp only [modify_bind_run]
      constructor
      · rintro ⟨c, between, hfill, hrun⟩
        exact .inr ⟨first, _, ⟨rest, c, between, hwaiting, hfill, rfl⟩, hrun⟩
      · rintro (⟨hnone, _⟩ | ⟨id, between, ⟨rest', c, filled, hrest, hfill, rfl⟩, hrun⟩)
        · cases hnone
        · rw [hwaiting] at hrest
          cases hrest
          exact ⟨c, filled, hfill, hrun⟩

/-- What every turn keeps, a run keeps. -/
theorem fillAll_induction {P : Making → Prop}
    (hturn : ∀ id s s', P s → Turn repeats id s s' → P s') (hs : P s)
    (h : (fillAll repeats fuel).run s = .ok ((), s')) : P s' := by
  induction fuel generalizing s with
  | zero =>
      obtain ⟨_, rfl⟩ := pure_run_eq_ok_iff.mp h
      exact hs
  | succ fuel ih =>
      rcases fillAll_succ_eq_ok_iff.mp h with ⟨_, rfl⟩ | ⟨id, between, hfirst, hrest⟩
      · exact hs
      · exact ih (hturn id s between hs hfirst) hrest

end Turns

end Make

section Documents
variable [Host] {repeats : RepeatedKeys} {g : Graph} {root : NodeId} {d : Document}

theorem Document.ofGraph_of_item {item : Item} {s : Making}
    (h : (Make.item root).run ⟨g, [], [], [], []⟩ = .ok (item, s)) :
    ofGraph repeats g root =
      (Make.fillAll repeats (g.size + 1)).run s >>= fun (_, s') => .ok ⟨item, s'.filled⟩ := by
  unfold ofGraph
  dsimp only
  rw [StateT.run_bind, h]
  change ((Make.fillAll repeats (g.size + 1) >>= fun _ => pure item).run s >>= _) = _
  rw [StateT.run_bind]
  cases (Make.fillAll repeats (g.size + 1)).run s <;> rfl

/-- A document is what the turns from its root make. -/
theorem Document.ofGraph_eq_ok_iff : ofGraph repeats g root = .ok d ↔
    ∃ item s s', (Make.item root).run ⟨g, [], [], [], []⟩ = .ok (item, s) ∧
      (Make.fillAll repeats (g.size + 1)).run s = .ok ((), s') ∧ d = ⟨item, s'.filled⟩ := by
  unfold ofGraph
  dsimp only
  rw [bind_eq_ok_iff]
  constructor
  · rintro ⟨⟨item, s'⟩, hmake, hend⟩
    obtain ⟨first, s, hitem, hmake⟩ := Make.bind_run_eq_ok_iff.mp hmake
    obtain ⟨⟨⟩, filled, hfill, hmake⟩ := Make.bind_run_eq_ok_iff.mp hmake
    obtain ⟨rfl, rfl⟩ := Make.pure_run_eq_ok_iff.mp hmake
    cases hend
    exact ⟨first, s, filled, hitem, hfill, rfl⟩
  · rintro ⟨item, s, s', hitem, hfill, rfl⟩
    refine ⟨(item, s'), Make.bind_run_eq_ok_iff.mpr ⟨item, s, hitem, ?_⟩, rfl⟩
    exact Make.bind_run_eq_ok_iff.mpr ⟨(), s', hfill, Make.pure_run_eq_ok_iff.mpr ⟨rfl, rfl⟩⟩

/-- Every node of a document is filled once. -/
theorem Document.nodes_nodup (h : ofGraph repeats g root = .ok d) :
    (d.collections.map (·.1)).Nodup := by
  obtain ⟨item, s, s', hitem, hfill, rfl⟩ := ofGraph_eq_ok_iff.mp h
  have hextends := Make.steady_item root hitem
  obtain ⟨new, hwaiting, hmet, hnodup, hfresh⟩ := hextends.waiting_new
  have hstart : Making.Scheduled (s.filled.map (·.1)) s.waiting s.met := by
    rw [hextends.filled_eq, hwaiting, hmet]
    exact Making.Scheduled.append ⟨by simp, by simp⟩ hnodup hfresh
  have hend := Make.fillAll_induction
    (P := fun s => Making.Scheduled (s.filled.map (·.1)) s.waiting s.met)
    (fun _ _ _ hs hturn => hturn.scheduled hs) hstart hfill
  exact (List.nodup_append.mp hend.once).1

/-- No two keys of a collection of a document are the same. -/
theorem Document.keysApart_of_mem (h : ofGraph repeats g root = .ok d) :
    ∀ e ∈ d.collections, e.2.KeysApart := by
  obtain ⟨item, s, s', hitem, hfill, rfl⟩ := ofGraph_eq_ok_iff.mp h
  refine Make.fillAll_induction (P := fun s => ∀ e ∈ s.filled, e.2.KeysApart) ?_ ?_ hfill
  · intro id s s' hs hturn
    obtain ⟨c, hfilled, hapart, _⟩ := hturn.spec
    rw [hfilled]
    intro e he
    rcases List.mem_append.mp he with hold | hnew
    · exact hs e hold
    · rw [List.mem_singleton.mp hnew]
      exact hapart
  · rw [(Make.steady_item root hitem).filled_eq]
    simp

end Documents

/-- A text holds the document that is made of its graph. -/
theorem readDocument_eq_ok_iff [Host] {rules : List ImplicitRule} {repeats : RepeatedKeys}
    {text : String} {d : Document} : readDocument rules repeats text = .ok (some d) ↔
      ∃ g root, Graph.ofText rules text = .ok (g, some root) ∧
        Document.ofGraph repeats g root = .ok d := by
  rw [readDocument, bind_eq_ok_iff]
  constructor
  · rintro ⟨⟨g, root⟩, hgraph, h⟩
    cases root with
    | none => cases h
    | some root =>
        obtain ⟨d', hmade, hend⟩ := bind_eq_ok_iff.mp h
        obtain rfl := Option.some.inj (Stepwise.pure_eq_ok_iff.mp hend)
        exact ⟨g, root, hgraph, hmade⟩
  · rintro ⟨g, root, hgraph, hmade⟩
    exact ⟨(g, some root), hgraph, bind_eq_ok_iff.mpr ⟨d, hmade, rfl⟩⟩

end VoiceIntents.Yaml

namespace VoiceIntents.Context

open Yaml

/-- A document that is loaded is made of the graph of its text, with repeated keys refused, and
it is not null. -/
theorem load_eq_ok_iff [Host] {source : Option String} {text : String} {d : Document} :
    load source text = .ok d ↔
      ∃ g root, Graph.ofText ImplicitRule.literal text = .ok (g, some root) ∧
        Document.ofGraph .refused g root = .ok d ∧ d.root ≠ .scalar .null := by
  have hread : load source text = .ok d ↔
      readDocument ImplicitRule.literal .refused text = .ok (some d) ∧
        d.root ≠ .scalar .null := by
    unfold load
    split
    · next d' hread =>
        rw [hread, Stepwise.guard_eq_ok_iff]
        constructor
        · rintro ⟨hroot, h⟩
          obtain rfl := Except.ok.inj h
          exact ⟨rfl, hroot⟩
        · rintro ⟨h, hroot⟩
          obtain rfl := Option.some.inj (Except.ok.inj h)
          exact ⟨hroot, rfl⟩
    all_goals simp [*]
  rw [hread, readDocument_eq_ok_iff]
  constructor
  · rintro ⟨⟨g, root, hgraph, hmade⟩, hroot⟩
    exact ⟨g, root, hgraph, hmade, hroot⟩
  · rintro ⟨g, root, hgraph, hmade, hroot⟩
    exact ⟨⟨g, root, hgraph, hmade⟩, hroot⟩

end VoiceIntents.Context
