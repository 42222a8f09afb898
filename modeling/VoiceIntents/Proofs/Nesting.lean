import Mathlib.Algebra.BigOperators.Group.List.Basic
import VoiceIntents.Proofs.Stepwise
import VoiceIntents.Yaml.Node.Parse

/-!
# Collections inside each other

A text has no graph, other than for its form, where its tokens cannot be had or where collections
are opened inside each other without end: among the tokens up to some place there are too many more
that open a collection than close one. A block or a bracket may hold one collection that has no
token of its own, so every token counts twice.
-/

namespace VoiceIntents.Yaml

open Stepwise (bind_eq_ok_iff bind_eq_error_iff)

/-- How many more collections are open after a token than before it. -/
def TokenKind.weight : TokenKind → Int
  | .blockSequenceStart | .blockMappingStart | .flowSequenceStart | .flowMappingStart => 1
  | .blockEnd | .flowSequenceEnd | .flowMappingEnd => -1
  | _ => 0

/-- How many collections tokens leave open. -/
def balance : List Token → Int
  | [] => 0
  | token :: rest => token.kind.weight + balance rest

@[simp] theorem balance_nil : balance [] = 0 := rfl

@[simp] theorem balance_cons (token : Token) (rest : List Token) :
    balance (token :: rest) = token.kind.weight + balance rest := rfl

@[simp] theorem balance_append (first second : List Token) :
    balance (first ++ second) = balance first + balance second := by
  induction first with
  | nil => simp
  | cons token rest ih => rw [List.cons_append, balance_cons, balance_cons, ih, Int.add_assoc]

namespace Reading

/-- The next token. -/
def first (r : Reading) : Token := r.tokens.headD Read.endToken

/-- The state after the next token. -/
def passed (r : Reading) : Reading := { r with tokens := r.tokens.drop 1 }

/-- Reading has gone on, over tokens that leave at least so many collections open. -/
structure GoneOn (r r' : Reading) (least : Int) : Prop where
  error_eq : r'.error = r.error
  depth_eq : r'.depth = r.depth
  passes : ∃ taken, r.tokens = taken ++ r'.tokens ∧ least ≤ balance taken

/-- Reading stands where it stood. -/
structure Same (r r' : Reading) : Prop where
  error_eq : r'.error = r.error
  depth_eq : r'.depth = r.depth
  tokens_eq : r'.tokens = r.tokens

theorem Same.refl (r : Reading) : r.Same r := ⟨rfl, rfl, rfl⟩

theorem Same.trans {r r' r'' : Reading} (h : r.Same r') (h' : r'.Same r'') : r.Same r'' :=
  ⟨h'.error_eq.trans h.error_eq, h'.depth_eq.trans h.depth_eq, h'.tokens_eq.trans h.tokens_eq⟩

theorem Same.first_eq {r r' : Reading} (h : r.Same r') : r'.first = r.first := by
  rw [first, first, h.tokens_eq]

theorem Same.goneOn {r r' : Reading} (h : r.Same r') : r.GoneOn r' 0 :=
  ⟨h.error_eq, h.depth_eq, [], h.tokens_eq.symm, Int.le_refl 0⟩

theorem GoneOn.trans {r r' r'' : Reading} {least least' : Int} (h : r.GoneOn r' least)
    (h' : r'.GoneOn r'' least') : r.GoneOn r'' (least + least') := by
  obtain ⟨taken, htaken, hleast⟩ := h.passes
  obtain ⟨taken', htaken', hleast'⟩ := h'.passes
  refine ⟨h'.error_eq.trans h.error_eq, h'.depth_eq.trans h.depth_eq, taken ++ taken', ?_, ?_⟩
  · rw [htaken, htaken', List.append_assoc]
  · rw [balance_append]
    omega

theorem goneOn_passed (r : Reading) : r.GoneOn r.passed r.first.kind.weight := by
  refine ⟨rfl, rfl, ?_⟩
  cases htokens : r.tokens with
  | nil =>
      refine ⟨[], by simp [passed, htokens], ?_⟩
      simp [first, htokens, Read.endToken, TokenKind.weight]
  | cons token rest => exact ⟨[token], by simp [passed, htokens], by simp [first, htokens]⟩

end Reading

namespace Read

open Reading (GoneOn Same)

section Nests
variable [Host] {α β : Type} {r : Reading} {k k' m m' : Int}

/-- Tokens that open too many collections, some being open already and some having no token. -/
def TooDeep (r : Reading) (m : Int) : Prop :=
  ∃ taken rest, r.tokens = taken ++ rest ∧ (Host.openRoom : Int) ≤ r.depth + m + 2 * balance taken

/-- A reader passes tokens that leave at least `k` collections open. Other than for its form it
fails with the error of the tokens, or because they open too many collections, not counting `m`. -/
structure Nests (x : Read α) (r : Reading) (k m : Int) : Prop where
  done : ∀ a r', x.run r = .ok (a, r') → r.GoneOn r' k
  failed : ∀ cause, x.run r = .error (.unreadable cause) →
    r.error = some (.unreadable cause) ∨ (cause = .tooDeep ∧ TooDeep r m)

omit [Host] in
theorem run_bind_eq_ok_iff {x : Read α} {f : α → Read β} {b : β} {r' : Reading} :
    (x >>= f).run r = .ok (b, r') ↔
      ∃ a between, x.run r = .ok (a, between) ∧ (f a).run between = .ok (b, r') := by
  rw [StateT.run_bind, bind_eq_ok_iff, Prod.exists]

omit [Host] in
theorem run_bind_eq_error_iff {x : Read α} {f : α → Read β} {e : Error} :
    (x >>= f).run r = .error e ↔ x.run r = .error e ∨
      ∃ a between, x.run r = .ok (a, between) ∧ (f a).run between = .error e := by
  rw [StateT.run_bind, bind_eq_error_iff, Prod.exists]

theorem TooDeep.mono (h : TooDeep r m) (hm : m ≤ m') : TooDeep r m' := by
  obtain ⟨taken, rest, htokens, hdeep⟩ := h
  exact ⟨taken, rest, htokens, by omega⟩

/-- What is too deep after some tokens is too deep before them. -/
theorem TooDeep.before {r' : Reading} (h : TooDeep r' m') (hgone : r.GoneOn r' k)
    (hm : m' ≤ m + 2 * k) : TooDeep r m := by
  obtain ⟨taken, rest, htokens, hdeep⟩ := h
  obtain ⟨passed, hpassed, hleast⟩ := hgone.passes
  refine ⟨passed ++ taken, rest, by rw [hpassed, htokens, List.append_assoc], ?_⟩
  rw [hgone.depth_eq] at hdeep
  rw [balance_append]
  omega

theorem Nests.mono {x : Read α} (h : Nests x r k m) (hk : k' ≤ k) (hm : m ≤ m') :
    Nests x r k' m' where
  done a r' hrun := by
    obtain ⟨herror, hdepth, taken, htaken, hleast⟩ := h.done a r' hrun
    exact ⟨herror, hdepth, taken, htaken, by omega⟩
  failed cause hrun :=
    (h.failed cause hrun).imp_right fun ⟨hcause, hdeep⟩ => ⟨hcause, hdeep.mono hm⟩

/-- One reader after another. -/
theorem Nests.bind {x : Read α} {f : α → Read β} {k₁ k₂ m₁ m₂ : Int} (hx : Nests x r k₁ m₁)
    (hf : ∀ a r', r.GoneOn r' k₁ → Nests (f a) r' k₂ m₂) (hk : k ≤ k₁ + k₂) (hm₁ : m₁ ≤ m)
    (hm₂ : m₂ ≤ m + 2 * k₁) : Nests (x >>= f) r k m where
  done b r' hrun := by
    obtain ⟨a, between, ha, hb⟩ := run_bind_eq_ok_iff.mp hrun
    have hgone := hx.done a between ha
    obtain ⟨herror, hdepth, taken, htaken, hleast⟩ :=
      hgone.trans ((hf a between hgone).done b r' hb)
    exact ⟨herror, hdepth, taken, htaken, by omega⟩
  failed cause hrun := by
    rcases run_bind_eq_error_iff.mp hrun with hrun | ⟨a, between, ha, hrun⟩
    · exact (hx.failed cause hrun).imp_right fun ⟨hcause, hdeep⟩ => ⟨hcause, hdeep.mono hm₁⟩
    · have hgone := hx.done a between ha
      rcases (hf a between hgone).failed cause hrun with herror | ⟨hcause, hdeep⟩
      · exact .inl (hgone.error_eq ▸ herror)
      · exact .inr ⟨hcause, hdeep.before hgone hm₂⟩

theorem nests_pure (a : α) : Nests (pure a) r 0 m where
  done b r' hrun := by
    cases hrun
    exact (Same.refl r).goneOn
  failed cause hrun := by cases hrun

theorem nests_fail (cause : Malformed) (mark : Mark) : Nests (fail cause mark : Read α) r k m where
  done b r' hrun := by cases hrun
  failed cause hrun := by cases hrun

/-- What stands after a failure does not matter. -/
theorem nests_fail_bind {f : β → Read α} (cause : Malformed) (mark : Mark) :
    Nests (fail cause mark >>= f) r k m where
  done b r' hrun := by cases hrun
  failed cause hrun := by cases hrun

theorem Nests.congr {x y : Read α} (h : Nests y r k m) (hrun : x.run r = y.run r) :
    Nests x r k m where
  done a r' hx := h.done a r' (hrun ▸ hx)
  failed cause hx := h.failed cause (hrun ▸ hx)

omit [Host] in
theorem peek_run (r : Reading) :
    peek.run r = .ok (r.first, r) ∨ ∃ e, r.error = some e ∧ peek.run r = .error e := by
  obtain ⟨tokens, error, _, _, _, _, _⟩ := r
  cases tokens with
  | cons token rest => exact .inl rfl
  | nil =>
      cases error with
      | none => exact .inl rfl
      | some e => exact .inr ⟨e, rfl, rfl⟩

theorem nests_peek_bind {f : Token → Read α} (h : Nests (f r.first) r k m) :
    Nests (peek >>= f) r k m := by
  rcases peek_run r with hpeek | ⟨e, herror, hpeek⟩
  · apply h.congr
    rw [StateT.run_bind, hpeek]
    rfl
  · have hrun : (peek >>= f).run r = .error e := by
      rw [StateT.run_bind, hpeek]
      rfl
    constructor
    · intro a r' ha
      rw [hrun] at ha
      cases ha
    · intro cause hcause
      rw [hrun] at hcause
      exact .inl (herror.trans (congrArg some (Except.error.inj hcause)))

theorem nests_peekKind_bind {f : TokenKind → Read α} (h : Nests (f r.first.kind) r k m) :
    Nests (peekKind >>= f) r k m := by
  unfold peekKind
  rw [bind_assoc]
  exact nests_peek_bind h

theorem nests_next_bind {f : Token → Read α} (h : Nests (f r.first) r.passed k' m')
    (hk : k ≤ r.first.kind.weight + k') (hm : m' ≤ m + 2 * r.first.kind.weight) :
    Nests (next >>= f) r k m := by
  have hpass : Nests (modify (fun s : Reading => { s with tokens := s.tokens.drop 1 }) >>=
      fun _ => f r.first) r k m := by
    constructor
    · intro a r' ha
      obtain ⟨herror, hdepth, taken, htaken, hleast⟩ :=
        r.goneOn_passed.trans (h.done a r' ha)
      exact ⟨herror, hdepth, taken, htaken, by omega⟩
    · intro cause hcause
      rcases h.failed cause hcause with herror | ⟨hcause, hdeep⟩
      · exact .inl herror
      · exact .inr ⟨hcause, hdeep.before r.goneOn_passed hm⟩
  unfold next
  rw [bind_assoc]
  refine nests_peek_bind (hpass.congr ?_)
  rw [bind_assoc]
  rfl

/-- Passing a token that opens and closes nothing. -/
theorem nests_pass_bind {f : Token → Read α} (hweight : r.first.kind.weight = 0)
    (h : Nests (f r.first) r.passed k m) : Nests (next >>= f) r k m :=
  nests_next_bind h (by omega) (by omega)

/-- The token that closes a collection. -/
theorem nests_close (a : α) (hweight : r.first.kind.weight = -1) :
    Nests (next >>= fun _ => pure a) r (-1) m := by
  have hend : Nests (pure a : Read α) r.passed 0 (m - 2) := nests_pure a
  exact nests_next_bind hend (by omega) (by omega)

/-- A reader that closes what it opens, before another one. -/
theorem Nests.bind_closed {x : Read α} {f : α → Read β} (hx : Nests x r 0 m)
    (hf : ∀ a r', Nests (f a) r' k m) : Nests (x >>= f) r k m :=
  hx.bind (fun a r' _ => hf a r') (by omega) (by omega) (by omega)

/-- A step that stands where it stood and fails for its form only. -/
def Still (x : Read α) : Prop :=
  ∀ r, (∀ a r', x.run r = .ok (a, r') → r.Same r') ∧ ∀ cause, x.run r ≠ .error (.unreadable cause)

omit [Host] in
theorem Still.bind {x : Read α} {f : α → Read β} (hx : Still x) (hf : ∀ a, Still (f a)) :
    Still (x >>= f) := by
  intro r
  constructor
  · intro b r' hrun
    obtain ⟨a, between, ha, hb⟩ := run_bind_eq_ok_iff.mp hrun
    exact ((hx r).1 a between ha).trans ((hf a between).1 b r' hb)
  · intro cause hrun
    rcases run_bind_eq_error_iff.mp hrun with hrun | ⟨a, between, ha, hrun⟩
    · exact (hx r).2 cause hrun
    · exact (hf a between).2 cause hrun

theorem Still.nests_bind {x : Read α} {f : α → Read β} (hx : Still x)
    (hf : ∀ a r', r.Same r' → Nests (f a) r' k m) : Nests (x >>= f) r k m where
  done b r' hrun := by
    obtain ⟨a, between, ha, hb⟩ := run_bind_eq_ok_iff.mp hrun
    have hsame := (hx r).1 a between ha
    obtain ⟨herror, hdepth, taken, htaken, hleast⟩ :=
      hsame.goneOn.trans ((hf a between hsame).done b r' hb)
    exact ⟨herror, hdepth, taken, htaken, by omega⟩
  failed cause hrun := by
    rcases run_bind_eq_error_iff.mp hrun with hrun | ⟨a, between, ha, hrun⟩
    · exact absurd hrun ((hx r).2 cause)
    · have hsame := (hx r).1 a between ha
      rcases (hf a between hsame).failed cause hrun with herror | ⟨hcause, hdeep⟩
      · exact .inl (hsame.error_eq ▸ herror)
      · exact .inr ⟨hcause, hdeep.before hsame.goneOn (by omega)⟩

theorem Still.nests {x : Read α} (hx : Still x) : Nests x r 0 m := by
  rw [← bind_pure x]
  exact hx.nests_bind fun a r' _ => nests_pure a

theorem Nests.bind_still {x : Read α} {f : α → Read β} (hx : Nests x r k m)
    (hf : ∀ a, Still (f a)) : Nests (x >>= f) r k m :=
  hx.bind (fun a _ _ => (hf a).nests (m := m + 2 * k)) (by omega) (by omega) (by omega)

end Nests

section Still
variable {α : Type}

theorem still_pure (a : α) : Still (pure a) := by
  intro r
  constructor
  · intro b r' h
    cases h
    exact .refl r
  · intro cause h
    cases h

theorem still_fail (cause : Malformed) (mark : Mark) : Still (fail cause mark : Read α) := by
  intro r
  constructor
  · intro a r' h
    cases h
  · intro cause h
    cases h

theorem still_modify {f : Reading → Reading} (hf : ∀ r : Reading, r.Same (f r)) :
    Still (modify f) := by
  intro r
  constructor
  · intro a r' h
    cases h
    exact hf r
  · intro cause h
    cases h

/-- Looking at the state. -/
theorem still_get_bind {f : Reading → Read α} (hf : ∀ r, Still (f r)) : Still (get >>= f) :=
  fun r => hf r r

theorem still_addNode (tag : Tag) (start : Mark) (content : Content) :
    Still (addNode tag start content) := by
  refine still_get_bind fun r => Still.bind ?_ fun _ => still_pure r.graph.size
  exact still_modify fun _ => ⟨rfl, rfl, rfl⟩

theorem still_setContent (id : NodeId) (content : Content) : Still (setContent id content) :=
  still_modify fun _ => ⟨rfl, rfl, rfl⟩

theorem still_implicit (text : String) : Still (implicit text) :=
  still_get_bind fun _ => still_pure _

theorem still_emptyScalar (mark : Mark) : Still (emptyScalar mark) :=
  (still_implicit "").bind fun _ => still_addNode _ _ _

theorem still_expandTag (handle : Option String) (suffix : String) (mark : Mark) :
    Still (expandTag handle suffix mark) := by
  unfold expandTag
  split
  · exact still_pure suffix
  · apply still_get_bind
    intro r
    split
    · exact still_fail _ _
    · exact still_pure _

theorem still_checkAnchor (p : Properties) (mark : Mark) : Still (checkAnchor p mark) := by
  unfold checkAnchor
  split
  · exact still_pure ()
  · apply still_get_bind
    intro r
    split
    · exact still_fail _ _
    · exact still_pure ()

theorem still_setAnchor (p : Properties) (id : NodeId) : Still (setAnchor p id) := by
  unfold setAnchor
  split
  · exact still_pure ()
  · exact still_modify fun _ => ⟨rfl, rfl, rfl⟩

theorem still_scalarNode (p : Properties) (start : Mark) (text : String) (plain : Bool) :
    Still (scalarNode p start text plain) := by
  have hend (tag : Tag) : Still (addNode tag start (.scalar text) >>= fun id =>
      setAnchor p id >>= fun _ => pure id) :=
    (still_addNode _ _ _).bind fun id => (still_setAnchor p id).bind fun _ => still_pure id
  unfold scalarNode
  dsimp only
  split
  · exact (still_pure _).bind hend
  · split
    · exact (still_implicit text).bind hend
    · exact (still_pure _).bind hend

theorem still_aliasNode (name : String) (mark : Mark) : Still (aliasNode name mark) := by
  apply still_get_bind
  intro r
  split
  · exact still_fail _ _
  · exact still_pure _

end Still

section Nodes
variable [Host] {r : Reading} {k m m' : Int}

theorem nests_properties : Nests properties r 0 m := by
  unfold properties
  apply nests_peek_bind
  split
  · next name hkind =>
      apply nests_pass_bind (by rw [hkind]; rfl)
      apply nests_peek_bind
      split
      · next handle suffix hkind' =>
          apply nests_pass_bind (by rw [hkind']; rfl)
          exact ((still_expandTag _ _ _).bind fun _ => still_pure _).nests
      · exact nests_pure _
  · next handle suffix hkind =>
      have hend (anchor : Option String) := (still_expandTag handle suffix r.first.start).bind
        fun tag => still_pure (⟨anchor, some tag, some r.first.start⟩ : Properties)
      apply nests_pass_bind (by rw [hkind]; rfl)
      apply nests_peek_bind
      dsimp only
      split
      · next name hkind' =>
          apply nests_pass_bind (by rw [hkind']; rfl)
          exact ((still_pure (some name)).bind hend).nests
      · exact ((still_pure none).bind hend).nests
  · exact nests_pure _

/-- A collection once its level is open: its node is added, and its content is read and set. -/
def filledNode (p : Properties) (start : Mark) (plain : Tag) (content : Content)
    (read : Read Content) : Read NodeId := do
  let id ← addNode (p.explicit?.getD plain) start content
  setAnchor p id
  setContent id (← read)
  return id

theorem collection_run (p : Properties) (start : Mark) (plain : Tag) (content : Content)
    (read : Read Content) (r : Reading) :
    (collection p start plain content read).run r =
      if Host.openRoom ≤ r.depth then .error (.unreadable .tooDeep)
      else (filledNode p start plain content read).run { r with depth := r.depth + 1 } >>=
        fun (id, r') => .ok (id, { r' with depth := r'.depth - 1 }) := by
  have hopen : (filledNode p start plain content read >>= fun id => do
      modify fun s => { s with depth := s.depth - 1 }
      return id) = do
        let id ← addNode (p.explicit?.getD plain) start content
        setAnchor p id
        setContent id (← read)
        modify fun s => { s with depth := s.depth - 1 }
        return id := by
    simp only [filledNode, bind_assoc, pure_bind]
  unfold collection
  change (if Host.openRoom ≤ r.depth then _ else _ : Read NodeId).run r = _
  split
  · rfl
  · have hlevel (x : Read NodeId) : (modify (fun s : Reading => { s with depth := s.depth + 1 }) >>=
        fun _ => x).run r = x.run { r with depth := r.depth + 1 } := rfl
    rw [← hopen, hlevel, StateT.run_bind]
    rfl

/-- A collection has one level more inside. -/
theorem nests_collection (p : Properties) (start : Mark) (plain : Tag) (content : Content)
    {read : Read Content}
    (hread : ∀ r', ({ r with depth := r.depth + 1 } : Reading).Same r' → Nests read r' k m')
    (hm : m' + 1 ≤ m) (hzero : 0 ≤ m) : Nests (collection p start plain content read) r k m := by
  have hinside : Nests (filledNode p start plain content read) { r with depth := r.depth + 1 } k
      m' := by
    refine (still_addNode _ _ _).nests_bind fun id r₁ h₁ => ?_
    refine (still_setAnchor p id).nests_bind fun _ r₂ h₂ => ?_
    refine (hread r₂ (h₁.trans h₂)).bind_still fun filled => ?_
    exact (still_setContent id filled).bind fun _ => still_pure id
  constructor
  · intro id r' h
    rw [collection_run] at h
    split at h
    · cases h
    · obtain ⟨⟨id, r₁⟩, hrun, hend⟩ := bind_eq_ok_iff.mp h
      cases hend
      obtain ⟨herror, hdepth, hpasses⟩ := hinside.done id r₁ hrun
      exact ⟨herror, by simp [hdepth], hpasses⟩
  · intro cause h
    rw [collection_run] at h
    split at h
    · next hroom =>
        cases h
        exact .inr ⟨rfl, [], r.tokens, rfl, by simp only [balance_nil]; omega⟩
    · rcases bind_eq_error_iff.mp h with h | ⟨_, _, h⟩
      · rcases hinside.failed cause h with herror | ⟨hcause, taken, rest, htokens, hdeep⟩
        · exact .inl herror
        · refine .inr ⟨hcause, taken, rest, htokens, ?_⟩
          push_cast at hdeep
          omega
      · cases h

end Nodes

/-- The readers of nodes and of what stands in collections. A node is closed at its end, and what
stands in a block or in brackets closes one collection more than it opens. -/
structure NodesNest [Host] (fuel : Nat) : Prop where
  node : ∀ block indentless r, Nests (node block indentless fuel) r 0 (if indentless then 1 else 0)
  blockEntries : ∀ r, Nests (blockEntries fuel) r (-1) 1
  indentlessEntries : ∀ r, Nests (indentlessEntries fuel) r 0 0
  blockPairs : ∀ r, Nests (blockPairs fuel) r (-1) 1
  blockValue : ∀ r, Nests (blockValue fuel) r 0 1
  flowItems : ∀ first r, Nests (flowItems first fuel) r (-1) 1
  flowPair : ∀ r, r.first.kind = .key → Nests (flowPair fuel) r 0 0
  flowValue : ∀ close r, Nests (flowValue close fuel) r 0 0
  flowPairs : ∀ first r, Nests (flowPairs first fuel) r (-1) 1

theorem nodesNest_zero [Host] : NodesNest 0 where
  node block indentless r := by
    unfold node
    exact nests_fail _ _
  blockEntries r := by
    unfold blockEntries
    exact (nests_pure []).mono (by omega) (Int.le_refl 1)
  indentlessEntries r := by
    unfold indentlessEntries
    exact nests_pure []
  blockPairs r := by
    unfold blockPairs
    exact (nests_pure []).mono (by omega) (Int.le_refl 1)
  blockValue r := by
    unfold blockValue
    exact (still_emptyScalar _).nests
  flowItems first r := by
    unfold flowItems
    exact (nests_pure []).mono (by omega) (Int.le_refl 1)
  flowPair r _ := by
    unfold flowPair
    exact ((still_emptyScalar _).bind fun _ => (still_emptyScalar _).bind fun _ =>
      still_pure _).nests
  flowValue close r := by
    unfold flowValue
    exact (still_emptyScalar _).nests
  flowPairs first r := by
    unfold flowPairs
    exact (nests_pure []).mono (by omega) (Int.le_refl 1)

section Succ
variable [Host] {fuel : Nat} (h : NodesNest fuel)
include h

theorem nests_node (block indentless : Bool) (r : Reading) :
    Nests (node block indentless (fuel + 1)) r 0 (if indentless then 1 else 0) := by
  have hslack : (0 : Int) ≤ if indentless then 1 else 0 := by
    split <;> decide
  unfold node
  apply nests_peek_bind
  split
  · next name start stop hfirst =>
      apply nests_pass_bind (by rw [hfirst]; rfl)
      exact (still_aliasNode name start).nests
  · refine nests_properties.bind_closed fun p r₁ => nests_peek_bind ?_
    dsimp only
    generalize p.start.getD r₁.first.start = start
    generalize hlevel : (if indentless then (1 : Int) else 0) = m at hslack ⊢
    -- A token that opens a collection, and what stands in it up to its end.
    have hopened {plain : Tag} {content : Content} {read : Read Content}
        (hweight : r₁.first.kind.weight = 1) (hread : ∀ r', Nests read r' (-1) 1) :
        Nests (checkAnchor p start >>= fun _ => next >>= fun _ =>
          collection p start plain content read) r₁ 0 m := by
      refine (still_checkAnchor p start).nests_bind fun _ r₂ h₂ => ?_
      rw [← h₂.first_eq] at hweight
      have hinside : Nests (collection p start plain content read) r₂.passed (-1) 2 :=
        nests_collection p start plain content (fun r' _ => hread r') (by omega) (by omega)
      exact nests_next_bind hinside (by omega) (by omega)
    split
    · next hkind =>
        refine (still_checkAnchor p start).nests_bind fun _ r₂ h₂ => ?_
        refine nests_collection p start .seq (.sequence []) (fun r' _ =>
          (h.indentlessEntries r').bind_still fun _ => still_pure _) ?_ hslack
        rw [← hlevel]
        decide
    · next text plain hkind =>
        refine (still_checkAnchor p start).nests_bind fun _ r₂ h₂ => ?_
        apply nests_pass_bind (by rw [h₂.first_eq, hkind]; rfl)
        exact (still_scalarNode p start text plain).nests
    · next hkind =>
        exact hopened (by rw [hkind]; rfl) fun r' =>
          (h.flowItems true r').bind_still fun _ => still_pure _
    · next hkind =>
        exact hopened (by rw [hkind]; rfl) fun r' =>
          (h.flowPairs true r').bind_still fun _ => still_pure _
    · next hkind =>
        exact hopened (by rw [hkind]; rfl) fun r' =>
          (h.blockEntries r').bind_still fun _ => still_pure _
    · next hkind =>
        exact hopened (by rw [hkind]; rfl) fun r' =>
          (h.blockPairs r').bind_still fun _ => still_pure _
    · split
      · exact ((still_checkAnchor p start).bind fun _ => still_scalarNode p start "" true).nests
      · exact nests_fail _ _

/-- A node inside a collection. -/
theorem nests_inner (block indentless : Bool) (r : Reading) :
    Nests (node block indentless fuel) r 0 1 :=
  (h.node block indentless r).mono (Int.le_refl 0) (by split <;> decide)

theorem nests_blockEntries (r : Reading) : Nests (blockEntries (fuel + 1)) r (-1) 1 := by
  have hend (id : NodeId) (r' : Reading) := (h.blockEntries r').bind_still fun rest =>
    still_pure (id :: rest)
  unfold blockEntries
  apply nests_peek_bind
  split
  · next hkind =>
      apply nests_pass_bind (by rw [hkind]; rfl)
      apply nests_peekKind_bind
      dsimp only
      split
      · exact (still_emptyScalar _).nests.bind_closed hend
      · exact (still_emptyScalar _).nests.bind_closed hend
      · exact (nests_inner h true false _).bind_closed hend
  · next hkind => exact nests_close [] (by rw [hkind]; rfl)
  · exact nests_fail _ _

theorem nests_indentlessEntries (r : Reading) : Nests (indentlessEntries (fuel + 1)) r 0 0 := by
  have hend (id : NodeId) (r' : Reading) := (h.indentlessEntries r').bind_still fun rest =>
    still_pure (id :: rest)
  unfold indentlessEntries
  apply nests_peekKind_bind
  split
  · next hkind =>
      apply nests_pass_bind (by rw [hkind]; rfl)
      apply nests_peekKind_bind
      dsimp only
      split
      · exact (still_emptyScalar _).nests.bind_closed hend
      · exact (still_emptyScalar _).nests.bind_closed hend
      · exact (still_emptyScalar _).nests.bind_closed hend
      · exact (still_emptyScalar _).nests.bind_closed hend
      · exact (h.node true false _).bind_closed hend
  · exact nests_pure []

theorem nests_blockPairs (r : Reading) : Nests (blockPairs (fuel + 1)) r (-1) 1 := by
  have hend (key : NodeId) (r' : Reading) := (h.blockValue r').bind_closed fun entry r'' =>
    (h.blockPairs r'').bind_still fun rest => still_pure ((key, entry) :: rest)
  unfold blockPairs
  apply nests_peek_bind
  split
  · next hkind =>
      apply nests_pass_bind (by rw [hkind]; rfl)
      apply nests_peekKind_bind
      dsimp only
      split
      · exact (still_emptyScalar _).nests.bind_closed hend
      · exact (still_emptyScalar _).nests.bind_closed hend
      · exact (still_emptyScalar _).nests.bind_closed hend
      · exact (nests_inner h true true _).bind_closed hend
  · next hkind => exact nests_close [] (by rw [hkind]; rfl)
  · exact nests_fail _ _

theorem nests_blockValue (r : Reading) : Nests (blockValue (fuel + 1)) r 0 1 := by
  unfold blockValue
  apply nests_peek_bind
  split
  · next hkind =>
      apply nests_pass_bind (by rw [hkind]; rfl)
      apply nests_peekKind_bind
      split
      · exact (still_emptyScalar _).nests
      · exact (still_emptyScalar _).nests
      · exact (still_emptyScalar _).nests
      · exact nests_inner h true true _
  · exact (still_emptyScalar _).nests

theorem nests_flowItems (first : Bool) (r : Reading) :
    Nests (flowItems first (fuel + 1)) r (-1) 1 := by
  have hend (id : NodeId) (r' : Reading) := (h.flowItems false r').bind_still fun rest =>
    still_pure (id :: rest)
  unfold flowItems
  apply nests_peek_bind
  split
  · next hkind => exact nests_close [] (by rw [hkind]; rfl)
  · extract_lets jp
    have hjp (u : Unit) (r : Reading) : Nests (jp u) r (-1) 1 := by
      apply nests_peek_bind
      split
      · next hkind => exact nests_close [] (by rw [hkind]; rfl)
      · next hkind =>
          have hpair (r' : Reading) (h' : ({ r with depth := r.depth + 1 } : Reading).Same r') :=
            (h.flowPair r' (h'.first_eq ▸ hkind)).bind_still fun pair =>
              still_pure (Content.mapping [pair])
          exact (nests_collection _ _ _ _ hpair (by omega) (by omega)).bind_closed hend
      · exact (nests_inner h false false _).bind_closed hend
    clear_value jp
    split
    · split
      · next hkind => exact nests_pass_bind (by rw [hkind]; rfl) (hjp () _)
      · exact nests_fail_bind _ _
    · exact hjp () r

theorem nests_flowValue (close : TokenKind) (r : Reading) :
    Nests (flowValue close (fuel + 1)) r 0 0 := by
  unfold flowValue
  apply nests_peek_bind
  split
  · next hkind =>
      apply nests_pass_bind (by rw [hkind]; rfl)
      apply nests_peekKind_bind
      split
      · exact (still_emptyScalar _).nests
      · exact h.node false false _
  · exact (still_emptyScalar _).nests

theorem nests_flowPair (r : Reading) (hkey : r.first.kind = .key) :
    Nests (flowPair (fuel + 1)) r 0 0 := by
  have hend (key : NodeId) (r' : Reading) :=
    (h.flowValue .flowSequenceEnd r').bind_still fun entry => still_pure (key, entry)
  unfold flowPair
  apply nests_pass_bind (by rw [hkey]; rfl)
  apply nests_peekKind_bind
  dsimp only
  split
  · exact (still_emptyScalar _).nests.bind_closed hend
  · exact (still_emptyScalar _).nests.bind_closed hend
  · exact (still_emptyScalar _).nests.bind_closed hend
  · exact (h.node false false _).bind_closed hend

theorem nests_flowPairs (first : Bool) (r : Reading) :
    Nests (flowPairs first (fuel + 1)) r (-1) 1 := by
  have hend (key entry : NodeId) (r' : Reading) := (h.flowPairs false r').bind_still fun rest =>
    still_pure ((key, entry) :: rest)
  have hvalue (key : NodeId) (r' : Reading) :=
    ((h.flowValue .flowMappingEnd r').mono (Int.le_refl 0) (by decide)).bind_closed (hend key)
  unfold flowPairs
  apply nests_peek_bind
  split
  · next hkind => exact nests_close [] (by rw [hkind]; rfl)
  · extract_lets value jp
    have hjp (u : Unit) (r : Reading) : Nests (jp u) r (-1) 1 := by
      apply nests_peekKind_bind
      split
      · next hkind => exact nests_close [] (by rw [hkind]; rfl)
      · next hkind =>
          apply nests_pass_bind (by rw [hkind]; rfl)
          apply nests_peekKind_bind
          split
          · exact (still_emptyScalar _).nests.bind_closed hvalue
          · exact (still_emptyScalar _).nests.bind_closed hvalue
          · exact (still_emptyScalar _).nests.bind_closed hvalue
          · exact (nests_inner h false false _).bind_closed hvalue
      · refine (nests_inner h false false _).bind_closed fun key r' => nests_peek_bind ?_
        exact (still_emptyScalar _).nests.bind_closed (hend key)
    clear_value jp
    split
    · split
      · next hkind => exact nests_pass_bind (by rw [hkind]; rfl) (hjp () _)
      · exact nests_fail_bind _ _
    · exact hjp () r

end Succ

theorem nodesNest [Host] (fuel : Nat) : NodesNest fuel := by
  induction fuel with
  | zero => exact nodesNest_zero
  | succ fuel ih =>
      exact ⟨nests_node ih, nests_blockEntries ih, nests_indentlessEntries ih, nests_blockPairs ih,
        nests_blockValue ih, nests_flowItems ih, nests_flowPair ih, nests_flowValue ih,
        nests_flowPairs ih⟩

section Documents
variable [Host] {m : Int}

theorem nests_directives (fuel : Nat) (version : Bool) (handles : List (String × String))
    (r : Reading) : Nests (directives fuel version handles) r 0 m := by
  induction fuel generalizing version handles r with
  | zero => exact nests_pure handles
  | succ fuel ih =>
      unfold directives
      apply nests_peek_bind
      split
      · next d hkind =>
          apply nests_pass_bind (by rw [hkind]; rfl)
          split
          · dsimp only
            split
            · exact nests_fail_bind _ _
            · split
              · exact nests_fail_bind _ _
              · exact ih true handles _
          · dsimp only
            split
            · exact nests_fail_bind _ _
            · exact ih version _ _
          · exact ih version handles _
      · exact nests_pure handles

theorem nests_skipDocumentEnds (fuel : Nat) (r : Reading) :
    Nests (skipDocumentEnds fuel) r 0 m := by
  induction fuel generalizing r with
  | zero => exact nests_pure ()
  | succ fuel ih =>
      unfold skipDocumentEnds
      apply nests_peekKind_bind
      split
      · next hkind => exact nests_pass_bind (by rw [hkind]; rfl) (ih _)
      · exact nests_pure ()

theorem nests_documentStart (fuel : Nat) (r : Reading) : Nests (documentStart fuel) r 0 m := by
  unfold documentStart
  refine (nests_skipDocumentEnds fuel r).bind_closed fun _ r₁ => nests_peekKind_bind ?_
  split
  · exact nests_pure false
  · refine (nests_directives fuel false [] r₁).bind_closed fun handles r₂ => nests_peek_bind ?_
    extract_lets jp
    have hjp (hkind : r₂.first.kind = .documentStart) : Nests (jp ()) r₂ 0 m := by
      apply nests_pass_bind (by rw [hkind]; rfl)
      refine Still.nests (Still.bind ?_ fun _ => still_pure true)
      exact still_modify fun _ => ⟨rfl, rfl, rfl⟩
    clear_value jp
    split
    · exact nests_fail_bind _ _
    · next hkind => exact hjp (not_not.mp hkind)

theorem nests_documentContent (fuel : Nat) (r : Reading) : Nests (documentContent fuel) r 0 0 := by
  unfold documentContent
  apply nests_peek_bind
  split
  · exact (still_emptyScalar _).nests
  · exact (still_emptyScalar _).nests
  · exact (still_emptyScalar _).nests
  · exact (still_emptyScalar _).nests
  · exact (nodesNest fuel).node true false r

theorem nests_document (fuel : Nat) (r : Reading) : Nests (document fuel) r 0 0 := by
  unfold document
  apply nests_peek_bind
  extract_lets jp
  have hjp (root : Option NodeId) (r : Reading) : Nests (jp root) r 0 0 := by
    dsimp only [jp]
    split
    · refine nests_peek_bind ((nests_documentStart fuel r).bind_closed fun more r' => ?_)
      split
      · exact nests_fail_bind _ _
      · exact nests_pure root
    · exact nests_pure root
  clear_value jp
  have hexplicit : Nests (documentStart fuel >>= fun started =>
      if started = true then documentContent fuel >>= fun id => pure (some id) >>= jp
      else pure none >>= jp) r 0 0 := by
    refine (nests_documentStart fuel r).bind_closed fun started r' => ?_
    split
    · exact (nests_documentContent fuel r').bind_closed fun id _ =>
        (nests_pure _).bind_closed hjp
    · exact (nests_pure none).bind_closed hjp
  split
  · exact hexplicit
  · exact hexplicit
  · exact hexplicit
  · exact ((nodesNest fuel).node true false r).bind_closed fun id _ =>
      (nests_pure _).bind_closed hjp

end Documents

end Read

/-- A text without a graph, other than for its form, has tokens that cannot be had, or tokens that
open too many collections. -/
theorem Graph.unreadable_of_ofText [Host] {rules : List ImplicitRule} {text : String}
    {cause : Unreadable} (h : Graph.ofText rules text = .error (.unreadable cause)) :
    (TokenStream.ofText text.toList).error = some (.unreadable cause) ∨
      cause = .tooDeep ∧ ∃ taken rest, (TokenStream.ofText text.toList).tokens = taken ++ rest ∧
        (Host.openRoom : Int) ≤ 2 * balance taken := by
  unfold Graph.ofText at h
  dsimp only at h
  rcases bind_eq_error_iff.mp h with h | ⟨_, _, h⟩
  · rcases (Read.nests_document _ _).failed cause h with
      herror | ⟨hcause, taken, rest, htokens, hdeep⟩
    · exact .inl herror
    · exact .inr ⟨hcause, taken, rest, htokens, by simpa using hdeep⟩
  · cases h

end VoiceIntents.Yaml
