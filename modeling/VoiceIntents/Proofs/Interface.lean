import VoiceIntents.Proofs.StrayCharacters
import VoiceIntents.Proofs.Planning

/-!
# The interface that a module's text tells

Two grammars whose modules have one text have the same slots and, up to their phrases, the same
intents. So has one whose module a check finds up to date.
-/

namespace VoiceIntents

open Text

variable {g g' : Grammar}

/-- What the text of a module tells of an intent: all but its phrases. -/
def Intent.signature (i : Intent) : String × List Variable := (i.name, i.vars)

/-- Where one view of two lists agrees and decides another, the other agrees. -/
theorem map_eq_of_map_eq {α β γ : Type} {view : α → β} {other : α → γ} {as bs : List α}
    (h : as.map view = bs.map view)
    (hview : ∀ a ∈ as, ∀ b ∈ bs, view a = view b → other a = other b) :
    as.map other = bs.map other := by
  induction as generalizing bs with
  | nil =>
      cases bs with
      | nil => rfl
      | cons b bs => simp at h
  | cons a as ih =>
      cases bs with
      | nil => simp at h
      | cons b bs =>
          rw [List.map_cons, List.map_cons, List.cons.injEq] at h
          rw [List.map_cons, List.map_cons, hview a (by simp) b (by simp) h.1, ih h.2]
          intro c hc d hd
          exact hview c (by simp [hc]) d (by simp [hd])

theorem Slot.toEnum_injective : Function.Injective Slot.toEnum := by
  rintro ⟨name, elements⟩ ⟨name', elements'⟩ h
  obtain ⟨rfl, helements⟩ := EnumType.mk.inj h
  have hinjective : Function.Injective fun e : Element => (⟨e.name, e.raw⟩ : EnumMember) := by
    rintro ⟨name, raw⟩ ⟨name', raw'⟩ h
    obtain ⟨rfl, rfl⟩ := EnumMember.mk.inj h
    rfl
  obtain rfl : elements = elements' := List.map_injective_iff.mpr hinjective helements
  rfl

/-- Variables of one field and one argument differ in nothing, once their grammars have the
same slots. -/
theorem variable_eq_of_declared (hg : g.WellFormed) (hslots : g.slots = g'.slots) {v v' : Variable}
    (hv : v.slot ∈ g.slots) (hv' : v'.slot ∈ g'.slots)
    (hfield : v.toField = v'.toField) (hargument : v.toArgument = v'.toArgument) : v = v' := by
  obtain ⟨name, raw, slot, required⟩ := v
  obtain ⟨name', raw', slot', required'⟩ := v'
  obtain ⟨rfl, hslot, hrequired⟩ := Field.mk.inj hfield
  obtain ⟨_, rfl, _⟩ := Argument.mk.inj hargument
  obtain rfl : slot = slot' :=
    List.inj_on_of_nodup_map hg.slots_distinct hv (hslots ▸ hv') hslot
  obtain rfl : required = required' := by simpa using hrequired
  rfl

/-- Grammars whose modules have one code have one interface. -/
theorem interface_of_code {project project' : Option String} (hg : g.WellFormed)
    (hg' : g'.WellFormed) (h : (g.toModule project).code = (g'.toModule project').code) :
    g.slots = g'.slots ∧ g.intents.map Intent.signature = g'.intents.map Intent.signature := by
  obtain ⟨hvariants, henums, hcases⟩ := TypedModule.declarations_of_code hg hg' h
  have hslots : g.slots = g'.slots := List.map_injective_iff.mpr Slot.toEnum_injective henums
  refine ⟨hslots, ?_⟩
  have hviews : g.intents.map (fun i => (i.toVariant, i.toCase)) =
      g'.intents.map fun i => (i.toVariant, i.toCase) := by
    rw [← List.zip_map', ← List.zip_map', hvariants, hcases]
  refine map_eq_of_map_eq hviews ?_
  intro i hi j hj hview
  obtain ⟨hvariant, hcase⟩ := Prod.mk.inj hview
  obtain ⟨hname, hfields⟩ := Variant.mk.inj hvariant
  obtain ⟨_, _, harguments⟩ := Case.mk.inj hcase
  have hvars : i.vars.map (fun v => (v.toField, v.toArgument)) =
      j.vars.map fun v => (v.toField, v.toArgument) := by
    rw [← List.zip_map', ← List.zip_map', hfields, harguments]
  have hsame : i.vars.map id = j.vars.map id := by
    refine map_eq_of_map_eq hvars ?_
    intro v hv w hw hboth
    obtain ⟨hfield, hargument⟩ := Prod.mk.inj hboth
    exact variable_eq_of_declared hg hslots (hg.vars_slot i hi v hv) (hg'.vars_slot j hj w hw)
      hfield hargument
  rw [List.map_id, List.map_id] at hsame
  rw [Intent.signature, Intent.signature, hname, hsame]

/-- Grammars whose modules have one text have one interface. -/
theorem interface_of_render {project project' : Option String} (hg : g.WellFormed)
    (hg' : g'.WellFormed) (h : (g.toModule project).render = (g'.toModule project').render) :
    g.slots = g'.slots ∧ g.intents.map Intent.signature = g'.intents.map Intent.signature := by
  obtain ⟨body, hbody, hcode⟩ := TypedModule.exists_toList_render (g.toModule project)
  obtain ⟨body', hbody', hcode'⟩ := TypedModule.exists_toList_render (g'.toModule project')
  rw [h, hbody'] at hbody
  obtain rfl : body' = body := by simpa using hbody
  have hsame : (g.toModule project).code = (g'.toModule project').code :=
    String.toList_injective (List.cons.inj (hcode.symm.trans hcode')).2
  exact interface_of_code hg hg' hsame

/-- Nothing of a grammar is in its module but its interface and its source. -/
theorem toModule_of_interface (project : Option String) (hsource : g.source = g'.source)
    (hslots : g.slots = g'.slots)
    (hintents : g.intents.map Intent.signature = g'.intents.map Intent.signature) :
    g.toModule project = g'.toModule project := by
  have hparts {γ : Type} (part : Intent → γ)
      (hpart : ∀ i j : Intent, i.signature = j.signature → part i = part j) :
      g.intents.map part = g'.intents.map part :=
    map_eq_of_map_eq hintents fun i _ j _ => hpart i j
  have hvariants : g.intents.map Intent.toVariant = g'.intents.map Intent.toVariant := by
    refine hparts _ fun i j h => ?_
    obtain ⟨hname, hvars⟩ := Prod.mk.inj h
    rw [Intent.toVariant, Intent.toVariant, hname, hvars]
  have hcases : g.intents.map Intent.toCase = g'.intents.map Intent.toCase := by
    refine hparts _ fun i j h => ?_
    obtain ⟨hname, hvars⟩ := Prod.mk.inj h
    rw [Intent.toCase, Intent.toCase, hname, hvars]
  rw [Grammar.toModule, Grammar.toModule, hsource, hslots, hvariants, hcases]

/-- The text of a module begins with its docstring, and the banner does not. -/
theorem render_of_bannered {wanted wanted' : Bool} {m m' : TypedModule}
    (h : universalLines (Command.bannered wanted m.render) = Command.bannered wanted' m'.render) :
    universalLines m.render = m'.render := by
  have hbanner (text : String) : (Command.banner ++ text).toList.head? = some '#' := by
    rw [String.toList_append]
    rfl
  have hrender (m : TypedModule) : m.render.toList.head? = some '"' := by
    obtain ⟨body, hbody, _⟩ := TypedModule.exists_toList_render m
    rw [hbody, List.head?_cons]
  have hjoined : (universalLines m.render).toList.head? = some '"' := by
    obtain ⟨body, hbody, _⟩ := TypedModule.exists_toList_render m
    rw [universalLines, String.toList_ofList, hbody, joinLines_cons (by simp)]
    rfl
  cases wanted with
  | false =>
      cases wanted' with
      | false => exact h
      | true =>
          have hhead := hbanner m'.render
          rw [← show universalLines m.render = Command.banner ++ m'.render from h, hjoined] at hhead
          exact absurd hhead (by decide)
  | true =>
      have h : Command.banner ++ universalLines m.render = Command.bannered wanted' m'.render := by
        rw [← h]
        exact (universalLines_append (TypedModule.stray_not_mem_banner (by decide))).symm
      cases wanted' with
      | false =>
          have hhead := hbanner (universalLines m.render)
          rw [show Command.banner ++ universalLines m.render = m'.render from h, hrender] at hhead
          exact absurd hhead (by decide)
      | true => exact String.append_right_inj _ |>.mp h

/-- The text of a module determines its interface, whatever sources and projects are named: from
one text of two accepted documents, and from an older output that a check finds up to date, the
slots and the signatures of the intents are the same. -/
theorem interface_of_text {source source' : Option String} {document document' : Value}
    (h : Grammar.ofValue source document = .ok g)
    (h' : Grammar.ofValue source' document' = .ok g') (project project' : Option String) :
    ((g.toModule project).render = (g'.toModule project').render →
      g.slots = g'.slots ∧ g.intents.map Intent.signature = g'.intents.map Intent.signature) ∧
    ∀ wanted wanted' output context transcript,
      (Command.checkOutput
        (.ok (.file (Utf8.encode (Command.bannered wanted (g.toModule project).render))))
        output context (Command.bannered wanted' (g'.toModule project').render)
        transcript).ending = .exit 0 →
      g.slots = g'.slots ∧ g.intents.map Intent.signature = g'.intents.map Intent.signature := by
  have hg := Grammar.wellFormed_of_ofValue h
  have hg' := Grammar.wellFormed_of_ofValue h'
  constructor
  · exact interface_of_render hg hg'
  · intro wanted wanted' output context transcript hcheck
    have hread := Command.checkOutput_exit_zero_iff.mp hcheck
    rw [Look.text_encode, Except.ok.injEq] at hread
    exact interface_of_code hg hg'
      (TypedModule.code_of_universalLines hg (render_of_bannered hread))

/-- A context with one intent, said in one phrase. -/
def tripContext (phrase : String) : Value :=
  .map [(.text "context", .map
    [(.text "slots", .map [(.text "Room", .list [.text "hall"])]),
      (.text "expressions", .map [(.text "Go", .list [.text phrase])])])]

def tripGrammar (phrase : String) : Grammar :=
  let room : Slot := ⟨"Room", [⟨"hall", "hall"⟩]⟩
  ⟨[⟨"Go", [⟨"where", "where", room, true⟩], [phrase]⟩], [room], none⟩

/-- Two contexts that differ in a phrase have one text, so a check finds the module of the first
up to date with the second, and their interfaces are the same. -/
theorem trips_alike :
    Grammar.ofValue none (tripContext "go to $Room:where") =
      .ok (tripGrammar "go to $Room:where") ∧
    Grammar.ofValue none (tripContext "walk to $Room:where") =
      .ok (tripGrammar "walk to $Room:where") ∧
    (Command.checkOutput
      (.ok (.file (Utf8.encode
        (Command.bannered true ((tripGrammar "go to $Room:where").toModule none).render))))
      ⟨.here, ["out.py"]⟩ ⟨.here, ["trip.yml"]⟩
      (Command.bannered true ((tripGrammar "walk to $Room:where").toModule none).render)
      {}).ending = .exit 0 ∧
    (tripGrammar "go to $Room:where").slots = (tripGrammar "walk to $Room:where").slots ∧
    (tripGrammar "go to $Room:where").intents.map Intent.signature =
      (tripGrammar "walk to $Room:where").intents.map Intent.signature := by
  have hgo : Grammar.ofValue none (tripContext "go to $Room:where") =
      .ok (tripGrammar "go to $Room:where") := rfl
  have hwalk : Grammar.ofValue none (tripContext "walk to $Room:where") =
      .ok (tripGrammar "walk to $Room:where") := rfl
  have hcheck : (Command.checkOutput
      (.ok (.file (Utf8.encode
        (Command.bannered true ((tripGrammar "go to $Room:where").toModule none).render))))
      ⟨.here, ["out.py"]⟩ ⟨.here, ["trip.yml"]⟩
      (Command.bannered true ((tripGrammar "walk to $Room:where").toModule none).render)
      {}).ending = .exit 0 := by
    rw [Command.checkOutput_exit_zero_iff, Look.text_encode, universalLines_eq_self_iff.mpr]
    · rfl
    · rw [TypedModule.stray_mem_content_iff (by decide) (Grammar.wellFormed_of_ofValue hgo)]
      simp [tripGrammar]
  exact ⟨hgo, hwalk, hcheck, (interface_of_text hgo hwalk none none).2 _ _ _ _ _ hcheck⟩

end VoiceIntents
