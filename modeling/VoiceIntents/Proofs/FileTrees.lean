import VoiceIntents.File.Tree
import VoiceIntents.Proofs.Stepwise

/-!
# Changes of a file tree

What saving a file does to a tree: the file is where its path leads afterwards, directories may
have come up where nothing was, and nothing else is changed. So every path that led somewhere
before leads there after it.
-/

namespace VoiceIntents.FileTree

section Entries
variable {t : FileTree} {place other : Place} {entry : Entry}

theorem find?_putEntry (place other : Place) (entry : Entry) (entries : List (Place × Entry)) :
    (putEntry place entry entries).find? (fun e => e.1 = other) =
      if other = place then some (place, entry) else entries.find? fun e => e.1 = other := by
  induction entries with
  | nil =>
      by_cases h : other = place
      · simp [putEntry, h]
      · simp [putEntry, h, Ne.symm h]
  | cons first rest ih =>
      obtain ⟨at', old⟩ := first
      rw [putEntry]
      by_cases hfirst : at' = place
      · subst hfirst
        by_cases h : other = at'
        · simp [h]
        · simp [h, Ne.symm h]
      · rw [if_neg hfirst]
        by_cases hother : at' = other
        · subst hother
          simp [hfirst]
        · simp [hother, ih]

/-- The root stays a directory; any other place has what was put there. -/
theorem get?_put (hplace : place ≠ []) :
    (t.put place entry).get? other = if other = place then some entry else t.get? other := by
  unfold get?
  by_cases hroot : other = []
  · subst hroot
    simp [Ne.symm hplace]
  · rw [if_neg hroot, if_neg hroot, put, find?_putEntry]
    by_cases h : other = place <;> simp [h]

theorem ne_nil_of_get? (h : t.get? place ≠ some .directory) : place ≠ [] := by
  rintro rfl
  exact h rfl

end Entries

/-- Every directory of a tree is one of another. -/
def DirectoriesStay (t t' : FileTree) : Prop :=
  ∀ place, t.get? place = some .directory → t'.get? place = some .directory

section Walk
variable {t t' : FileTree} {directory place : Place} {path : Path}

theorem walk_cons_eq_ok_iff {name : String} {rest : List String} {start : Place} :
    t.walk start (name :: rest) = .ok place ↔
      ∃ next, t.step start name = .ok next ∧ t.walk next rest = .ok place := by
  rw [walk, Stepwise.bind_eq_ok_iff]

theorem walk_append_eq_ok_iff {before after : List String} {start : Place} :
    t.walk start (before ++ after) = .ok place ↔
      ∃ next, t.walk start before = .ok next ∧ t.walk next after = .ok place := by
  induction before generalizing start with
  | nil => simp [walk]
  | cons name rest ih =>
      rw [List.cons_append, walk_cons_eq_ok_iff]
      constructor
      · rintro ⟨next, hnext, hwalk⟩
        obtain ⟨stop, hstop, hwalk⟩ := ih.mp hwalk
        exact ⟨stop, walk_cons_eq_ok_iff.mpr ⟨next, hnext, hstop⟩, hwalk⟩
      · rintro ⟨stop, hstop, hwalk⟩
        obtain ⟨next, hnext, hstop⟩ := walk_cons_eq_ok_iff.mp hstop
        exact ⟨next, hnext, ih.mpr ⟨stop, hstop, hwalk⟩⟩

/-- A step leads on from directories only. -/
theorem step_eq_ok_iff {name : String} {start : Place} :
    t.step start name = .ok place ↔ t.get? start = some .directory ∧
      (name = ".." ∧ place = start.dropLast ∨
        name ≠ ".." ∧ name.utf8ByteSize ≤ nameLimit ∧ place = start ++ [name]) := by
  unfold step
  cases hstart : t.get? start with
  | none => simp
  | some entry =>
      cases entry with
      | file data => simp
      | directory =>
          by_cases hup : name = ".."
          · simp [hup, eq_comm]
          · by_cases hlong : nameLimit < name.utf8ByteSize
            · simp [hup, hlong, Nat.not_le.mpr hlong]
            · simp [hup, hlong, Nat.not_lt.mp hlong, eq_comm]

theorem DirectoriesStay.walk (h : DirectoriesStay t t') {names : List String} {start : Place}
    (hwalk : t.walk start names = .ok place) : t'.walk start names = .ok place := by
  induction names generalizing start with
  | nil => exact hwalk
  | cons name rest ih =>
      obtain ⟨next, hnext, hrest⟩ := walk_cons_eq_ok_iff.mp hwalk
      obtain ⟨hstart, hname⟩ := step_eq_ok_iff.mp hnext
      exact walk_cons_eq_ok_iff.mpr
        ⟨next, step_eq_ok_iff.mpr ⟨h start hstart, hname⟩, ih hrest⟩

theorem locate_eq_ok_iff : t.locate directory path = .ok place ↔ refusal? path = none ∧
    t.walk (if path.isAbsolute then [] else directory) path.names = .ok place := by
  unfold locate
  cases refusal? path <;> simp

theorem DirectoriesStay.locate (h : DirectoriesStay t t')
    (hlocate : t.locate directory path = .ok place) : t'.locate directory path = .ok place := by
  rw [locate_eq_ok_iff] at hlocate ⊢
  exact ⟨hlocate.1, h.walk hlocate.2⟩

theorem look_of_locate (h : t.locate directory path = .ok place) :
    t.look directory path =
      match t.get? place with
      | some entry => .ok entry
      | none => .error .missing := by
  rw [look, h]
  rfl

theorem look_of_locate_error {e : FileError} (h : t.locate directory path = .error e) :
    t.look directory path = .error e := by
  rw [look, h]
  rfl

theorem look_eq_ok_iff {entry : Entry} : t.look directory path = .ok entry ↔
    ∃ place, t.locate directory path = .ok place ∧ t.get? place = some entry := by
  rw [look, Stepwise.bind_eq_ok_iff]
  apply exists_congr
  intro place
  apply and_congr_right
  intro _
  cases t.get? place <;> simp

end Walk

/-- Directories come up where nothing was. -/
def Grows (t t' : FileTree) : Prop :=
  ∀ place, t'.get? place = t.get? place ∨
    t.get? place = none ∧ t'.get? place = some .directory

theorem Grows.directoriesStay {t t' : FileTree} (h : t.Grows t') : DirectoriesStay t t' := by
  intro place hplace
  rcases h place with heq | ⟨hnone, _⟩
  · rw [heq, hplace]
  · rw [hplace] at hnone
    cases hnone

/-- A directory has come up where nothing was, on the way of a path: the first names of the path
lead there. -/
structure Paved (directory : Place) (path : Path) (t t' : FileTree) (place : Place) : Prop where
  absent : t.get? place = none
  made : t'.get? place = some .directory
  on_way : ∃ n, t'.locate directory (path.upTo n) = .ok place

theorem Paved.of_directoriesStay {directory place : Place} {path : Path} {t t' t'' : FileTree}
    (h : Paved directory path t t' place) (hstay : DirectoriesStay t' t'') :
    Paved directory path t t'' place where
  absent := h.absent
  made := hstay place h.made
  on_way := by
    obtain ⟨n, hway⟩ := h.on_way
    exact ⟨n, hstay.locate hway⟩

/-- Nothing changes but that directories come up on the way of a path. -/
def Paves (directory : Place) (path : Path) (t t' : FileTree) : Prop :=
  ∀ place, t'.get? place = t.get? place ∨ Paved directory path t t' place

namespace Paves
variable {directory : Place} {path : Path} {t t' t'' : FileTree}

theorem refl (directory : Place) (path : Path) (t : FileTree) : Paves directory path t t :=
  fun _ => .inl rfl

theorem grows (h : Paves directory path t t') : t.Grows t' := by
  intro place
  exact (h place).imp_right fun hpaved => ⟨hpaved.absent, hpaved.made⟩

theorem trans (h : Paves directory path t t') (h' : Paves directory path t' t'') :
    Paves directory path t t'' := by
  intro place
  rcases h place with heq | hpaved
  · rcases h' place with heq' | hpaved'
    · exact .inl (heq'.trans heq)
    · exact .inr ⟨heq ▸ hpaved'.absent, hpaved'.made, hpaved'.on_way⟩
  · exact .inr (hpaved.of_directoriesStay h'.grows.directoriesStay)

end Paves

section Save
variable {t t' : FileTree} {directory : Place} {path : Path}

theorem makeDirectory_paves {n : Nat} (h : t.makeDirectory directory (path.upTo n) = .ok t') :
    Paves directory path t t' := by
  obtain ⟨made, hlocate, hmade⟩ := Stepwise.bind_eq_ok_iff.mp h
  cases hplace : t.get? made with
  | some entry => simp [hplace] at hmade
  | none =>
      simp only [hplace, Except.ok.injEq] at hmade
      subst hmade
      have hput (other : Place) : (t.put made .directory).get? other =
          if other = made then some .directory else t.get? other :=
        get?_put (ne_nil_of_get? (t := t) (by simp [hplace]))
      have hstay : DirectoriesStay t (t.put made .directory) := by
        intro other hother
        rw [hput]
        split
        · rfl
        · exact hother
      intro other
      by_cases hother : other = made
      · subst hother
        exact .inr ⟨hplace, by rw [hput, if_pos rfl], n, hstay.locate hlocate⟩
      · exact .inl (by rw [hput, if_neg hother])

theorem ensureDirectory_paves (t : FileTree) (directory : Place) (path : Path) (n : Nat) :
    Paves directory path t (t.ensureDirectory directory (path.upTo n)).2 := by
  unfold ensureDirectory
  cases hmade : t.makeDirectory directory (path.upTo n) with
  | ok made => exact makeDirectory_paves hmade
  | error e =>
      dsimp only
      split
      · exact .refl directory path t
      · exact .refl directory path t

theorem ensureUpTo_paves (t : FileTree) (directory : Place) (path : Path) (n : Nat) :
    Paves directory path t (t.ensureUpTo directory path n).2 := by
  induction n with
  | zero => exact ensureDirectory_paves t directory path 0
  | succ n ih =>
      unfold ensureUpTo
      split
      · -- The directory above is missing and is made first.
        split
        · next above habove =>
            rw [habove] at ih
            exact ih.trans (ensureDirectory_paves above directory path (n + 1))
        · exact ih
      · exact ensureDirectory_paves t directory path (n + 1)

/-- A file is written at a place that was no directory, and elsewhere a tree only grows. -/
structure Saved (place : Place) (data : List UInt8) (t t' : FileTree) : Prop where
  written : t'.get? place = some (.file data)
  free : t.get? place ≠ some .directory
  grows : ∀ other, other ≠ place → t'.get? other = t.get? other ∨
    t.get? other = none ∧ t'.get? other = some .directory

theorem Saved.directoriesStay {place : Place} {data : List UInt8} (h : Saved place data t t') :
    DirectoriesStay t t' := by
  intro other hother
  have hne : other ≠ place := by
    rintro rfl
    exact h.free hother
  rcases h.grows other hne with heq | ⟨hnone, _⟩
  · rw [heq, hother]
  · rw [hother] at hnone
    cases hnone

/-- What was somewhere else is there after a save. -/
theorem Saved.look {place : Place} {data : List UInt8} {entry : Entry}
    (h : Saved place data t t') (hlook : t.look directory path = .ok entry)
    (hother : t'.locate directory path ≠ .ok place) : t'.look directory path = .ok entry := by
  obtain ⟨there, hthere, hentry⟩ := look_eq_ok_iff.mp hlook
  have hthere' := h.directoriesStay.locate hthere
  have hne : there ≠ place := by
    rintro rfl
    exact hother hthere'
  refine look_eq_ok_iff.mpr ⟨there, hthere', ?_⟩
  rcases h.grows there hne with heq | ⟨hnone, _⟩
  · rw [heq, hentry]
  · rw [hentry] at hnone
    cases hnone

theorem write_eq_ok_iff {data : List UInt8} : t.write directory path data = .ok t' ↔
    ∃ place, t.locate directory path = .ok place ∧ t.get? place ≠ some .directory ∧
      t' = t.put place (.file data) := by
  rw [write, Stepwise.bind_eq_ok_iff]
  apply exists_congr
  intro place
  apply and_congr_right
  intro _
  cases t.get? place with
  | none => simp [eq_comm]
  | some entry => cases entry <;> simp [eq_comm]

/-- A save that fails has made directories at most. -/
theorem save_eq_error {data : List UInt8} {e : FileError}
    (h : t.save directory path data = (.error e, t')) : Paves directory path.parent t t' := by
  have hpaves := ensureUpTo_paves t directory path.parent path.parent.names.length
  unfold save ensureDirectories at h
  generalize t.ensureUpTo directory path.parent path.parent.names.length = made at h hpaves
  obtain ⟨result, between⟩ := made
  cases result with
  | error e' =>
      obtain rfl : between = t' := congrArg Prod.snd h
      exact hpaves
  | ok made =>
      cases hwrite : between.write directory path data with
      | ok after => simp [hwrite] at h
      | error e' =>
          obtain rfl : between = t' := by simpa [hwrite] using congrArg Prod.snd h
          exact hpaves

/-- A file that is saved is where its path leads afterwards. Elsewhere directories have come up on
the way to it, and nothing else is changed. -/
theorem save_eq_ok_paves {data : List UInt8} (h : t.save directory path data = (.ok (), t')) :
    ∃ place, t'.locate directory path = .ok place ∧ t'.get? place = some (.file data) ∧
      t.get? place ≠ some .directory ∧
      ∀ other, other ≠ place → t'.get? other = t.get? other ∨
        Paved directory path.parent t t' other := by
  have hpaves := ensureUpTo_paves t directory path.parent path.parent.names.length
  unfold save ensureDirectories at h
  generalize t.ensureUpTo directory path.parent path.parent.names.length = made at h hpaves
  obtain ⟨result, between⟩ := made
  cases result with
  | error e => cases h
  | ok made =>
      cases hwrite : between.write directory path data with
      | error e => simp [hwrite] at h
      | ok after =>
          obtain rfl : after = t' := by simpa [hwrite] using h
          obtain ⟨place, hlocate, hfree, rfl⟩ := write_eq_ok_iff.mp hwrite
          have hput (other : Place) : (between.put place (.file data)).get? other =
              if other = place then some (.file data) else between.get? other :=
            get?_put (ne_nil_of_get? hfree)
          have hstay : DirectoriesStay between (between.put place (.file data)) := by
            intro other hother
            have hne : other ≠ place := by
              rintro rfl
              exact hfree hother
            rw [hput, if_neg hne, hother]
          refine ⟨place, hstay.locate hlocate, by rw [hput, if_pos rfl], ?_, ?_⟩
          · intro hdirectory
            exact hfree (hpaves.grows.directoriesStay place hdirectory)
          · intro other hother
            rw [hput, if_neg hother]
            exact (hpaves other).imp_right fun hpaved => hpaved.of_directoriesStay hstay

theorem save_eq_ok {data : List UInt8} (h : t.save directory path data = (.ok (), t')) :
    ∃ place, t'.locate directory path = .ok place ∧ Saved place data t t' := by
  obtain ⟨place, hlocate, hwritten, hfree, helsewhere⟩ := save_eq_ok_paves h
  refine ⟨place, hlocate, hwritten, hfree, ?_⟩
  intro other hother
  exact (helsewhere other hother).imp_right fun hpaved => ⟨hpaved.absent, hpaved.made⟩

end Save

/-- A directory that is reached from the root by its names. -/
def HasDirectory (t : FileTree) (place : Place) : Prop :=
  t.walk [] place = .ok place ∧ t.get? place = some .directory

section HasDirectory
variable {t t' : FileTree} {directory place : Place} {name : String}

theorem HasDirectory.stays (h : t.HasDirectory place) (hstay : DirectoriesStay t t') :
    t'.HasDirectory place :=
  ⟨hstay.walk h.1, hstay place h.2⟩

/-- The path of a name in a directory leads there. -/
theorem HasDirectory.locate_child (h : t.HasDirectory place) (directory : Place)
    (hname : name ≠ "..")
    (hlength : name.utf8ByteSize ≤ nameLimit) (hpath : refusal? ⟨.root, place ++ [name]⟩ = none) :
    t.locate directory ⟨.root, place ++ [name]⟩ = .ok (place ++ [name]) := by
  refine locate_eq_ok_iff.mpr ⟨hpath, walk_append_eq_ok_iff.mpr ⟨place, h.1, ?_⟩⟩
  exact walk_cons_eq_ok_iff.mpr
    ⟨place ++ [name], step_eq_ok_iff.mpr ⟨h.2, .inr ⟨hname, hlength, rfl⟩⟩, rfl⟩

end HasDirectory

end VoiceIntents.FileTree
