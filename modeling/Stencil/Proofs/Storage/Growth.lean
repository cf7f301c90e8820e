import Stencil.Storage.FileTree

/-!
# Growing file trees

No operation takes anything away from a file tree: what is a directory stays one, and a file stays a
file, though it may get another content (`FileTree.Grows`). So a path that leads somewhere still
leads there later on (`FileTree.Grows.locate`).
-/

set_option autoImplicit false

namespace Stencil

namespace FileTree

/-! ## Entries -/

theorem find?_putIn (location other : Location) (entry : Entry)
    (entries : List (Location × Entry)) :
    ((putIn location entry entries).find? fun item => item.1 = other).map Prod.snd =
      if other = location then some entry
      else (entries.find? fun item => item.1 = other).map Prod.snd := by
  induction entries with
  | nil =>
    by_cases hsame : other = location
    · simp [putIn, hsame]
    · simp [putIn, hsame, Ne.symm hsame]
  | cons head rest ih =>
    obtain ⟨first, old⟩ := head
    rw [putIn]
    by_cases hfirst : first = location
    · by_cases hsame : other = location
      · simp [hfirst, hsame]
      · simp [hfirst, hsame, Ne.symm hsame]
    · by_cases hother : first = other
      · subst hother
        simp [hfirst]
      · simp [hfirst, hother, ih]

/-- An entry that is there already changes nothing. -/
theorem putIn_of_find? {location : Location} {entry : Entry} {entries : List (Location × Entry)}
    (h : (entries.find? fun item => item.1 = location).map Prod.snd = some entry) :
    putIn location entry entries = entries := by
  induction entries with
  | nil => cases h
  | cons head rest ih =>
    obtain ⟨first, old⟩ := head
    rw [putIn]
    by_cases hfirst : first = location
    · rw [List.find?_cons_of_pos (by simp [hfirst])] at h
      obtain rfl : old = entry := Option.some.inj h
      rw [if_pos hfirst]
    · rw [List.find?_cons_of_neg (by simp [hfirst])] at h
      rw [if_neg hfirst, ih h]

variable {tree before middle after : FileTree} {location : Location} {entry : Entry}

theorem entry_put_self (hroot : location ≠ []) (tree : FileTree) (entry : Entry) :
    FileTree.entry? (tree.put location entry) location = some entry := by
  unfold entry?
  rw [if_neg hroot, put]
  exact (find?_putIn location location entry tree.entries).trans (if_pos rfl)

theorem entry_put_of_ne {other : Location} (h : other ≠ location) (tree : FileTree)
    (entry : Entry) :
    FileTree.entry? (tree.put location entry) other = tree.entry? other := by
  unfold entry?
  by_cases hroot : other = []
  · rw [if_pos hroot, if_pos hroot]
  · rw [if_neg hroot, if_neg hroot, put]
    exact (find?_putIn location other entry tree.entries).trans (if_neg h)

theorem put_of_entry (hroot : location ≠ []) (h : tree.entry? location = some entry) :
    tree.put location entry = tree := by
  unfold entry? at h
  rw [if_neg hroot] at h
  rw [put, putIn_of_find? h]

/-- The root is a directory, so what is none is elsewhere. -/
theorem ne_root_of_entry (h : tree.entry? location ≠ some .directory) : location ≠ [] := by
  rintro rfl
  exact h rfl

/-! ## Growth -/

/-- A tree grows to another one: relative paths start at the same place, directories stay, and files
stay files. -/
structure Grows (before after : FileTree) : Prop where
  workingDirectory : after.workingDirectory = before.workingDirectory
  directories : ∀ location, before.entry? location = some .directory →
    after.entry? location = some .directory
  files : ∀ location content, before.entry? location = some (.file content) →
    ∃ later, after.entry? location = some (.file later)

namespace Grows

theorem refl (tree : FileTree) : tree.Grows tree :=
  ⟨rfl, fun _ h => h, fun _ content h => ⟨content, h⟩⟩

theorem trans (h : before.Grows middle) (h' : middle.Grows after) : before.Grows after := by
  refine ⟨h'.workingDirectory.trans h.workingDirectory, ?_, ?_⟩
  · intro location hdirectory
    exact h'.directories location (h.directories location hdirectory)
  · intro location content hfile
    obtain ⟨later, hlater⟩ := h.files location content hfile
    exact h'.files location later hlater

/-- What is nowhere to be found later was not there before. -/
theorem entry_eq_none (h : before.Grows after) (hnone : after.entry? location = none) :
    before.entry? location = none := by
  cases hentry : before.entry? location with
  | none => rfl
  | some entry =>
    cases entry with
    | directory =>
      rw [h.directories location hentry] at hnone
      cases hnone
    | file content =>
      obtain ⟨later, hlater⟩ := h.files location content hentry
      rw [hlater] at hnone
      cases hnone

/-- A file may be put where no directory is. -/
theorem put_file (hplace : tree.entry? location ≠ some .directory) (content : Bytes) :
    tree.Grows (tree.put location (.file content)) := by
  have hroot := ne_root_of_entry hplace
  refine ⟨rfl, ?_, ?_⟩
  · -- All directories are elsewhere.
    intro other hdirectory
    have hne : other ≠ location := by
      rintro rfl
      exact hplace hdirectory
    exact (entry_put_of_ne hne tree _).trans hdirectory
  · intro other old hfile
    by_cases hsame : other = location
    · rw [hsame]
      exact ⟨content, entry_put_self hroot tree _⟩
    · exact ⟨old, (entry_put_of_ne hsame tree _).trans hfile⟩

/-- A directory may be put where nothing is. -/
theorem put_directory (hplace : tree.entry? location = none) :
    tree.Grows (tree.put location .directory) := by
  have hne : ∀ {other : Location} {entry : Entry}, tree.entry? other = some entry →
      other ≠ location := by
    rintro other entry hentry rfl
    rw [hplace] at hentry
    cases hentry
  refine ⟨rfl, ?_, ?_⟩
  · intro other hdirectory
    exact (entry_put_of_ne (hne hdirectory) tree _).trans hdirectory
  · intro other content hfile
    exact ⟨content, (entry_put_of_ne (hne hfile) tree _).trans hfile⟩

end Grows

/-! ## Resolving -/

/-- Where paths of the tree start. -/
def start (tree : FileTree) (path : Path) : Location :=
  if path.isAbsolute then [] else tree.workingDirectory

theorem directory_of_step {start : Location} {name : Text}
    (h : tree.step start name = .ok location) : tree.entry? start = some .directory := by
  unfold step at h
  split at h
  · cases h
  · cases h
  · next hdirectory => exact hdirectory

theorem eq_of_step {start : Location} {name : Text} (hname : name ≠ "..")
    (h : tree.step start name = .ok location) : location = start ++ [name] := by
  unfold step at h
  split at h
  · cases h
  · cases h
  · rw [if_neg hname] at h
    split at h
    · cases h
    · cases h
      rfl

theorem follow_append {start stop : Location} {first second : List Text} :
    tree.follow start (first ++ second) = .ok stop ↔
      ∃ middle, tree.follow start first = .ok middle ∧ tree.follow middle second = .ok stop := by
  induction first generalizing start with
  | nil => simp [follow]
  | cons name first ih =>
    rw [List.cons_append, follow, follow]
    cases tree.step start name with
    | ok middle => exact ih
    | error trouble => simp

theorem locate_eq_ok_iff {path : Path} :
    tree.locate path = .ok location ↔ path.hasNull = false ∧
      Utf8.size path.text < Path.sizeLimit ∧
      tree.follow (tree.start path) path.names = .ok location := by
  unfold locate
  by_cases hnull : path.hasNull = true
  · simp [hnull]
  by_cases hsize : Path.sizeLimit ≤ Utf8.size path.text
  · simp [hnull, hsize, Nat.not_lt.2 hsize]
  rw [if_neg hnull, if_neg hsize]
  split
  · next stop hfollow => simp [start, hfollow, hnull, Nat.lt_of_not_le hsize]
  · next trouble hfollow => simp [start, hfollow]

theorem inspect_eq_ok_iff {path : Path} :
    tree.inspect path = .ok entry ↔
      ∃ location, tree.locate path = .ok location ∧ tree.entry? location = some entry := by
  unfold inspect
  cases tree.locate path with
  | error fault => simp
  | ok location =>
    dsimp only
    cases hentry : tree.entry? location with
    | none => simp [hentry]
    | some found => simp [hentry]

namespace Grows

theorem step (h : before.Grows after) {start stop : Location} {name : Text}
    (hstep : before.step start name = .ok stop) : after.step start name = .ok stop := by
  -- A step asks for nothing but the directory that it starts in.
  have hdirectory := directory_of_step hstep
  rw [FileTree.step, hdirectory] at hstep
  rw [FileTree.step, h.directories start hdirectory]
  exact hstep

theorem follow (h : before.Grows after) {start stop : Location} {names : List Text}
    (hfollow : before.follow start names = .ok stop) : after.follow start names = .ok stop := by
  induction names generalizing start with
  | nil => exact hfollow
  | cons name names ih =>
    rw [FileTree.follow] at hfollow
    split at hfollow
    · next middle hstep =>
      rw [FileTree.follow, h.step hstep]
      exact ih hfollow
    · cases hfollow

/-- A path that leads somewhere still leads there. -/
theorem locate (h : before.Grows after) {path : Path}
    (hlocate : before.locate path = .ok location) : after.locate path = .ok location := by
  obtain ⟨hnull, hsize, hfollow⟩ := locate_eq_ok_iff.1 hlocate
  refine locate_eq_ok_iff.2 ⟨hnull, hsize, ?_⟩
  rw [start, h.workingDirectory]
  exact h.follow hfollow

theorem inspect_directory (h : before.Grows after) {path : Path}
    (hinspect : before.inspect path = .ok .directory) : after.inspect path = .ok .directory := by
  obtain ⟨location, hlocate, hentry⟩ := inspect_eq_ok_iff.1 hinspect
  exact inspect_eq_ok_iff.2 ⟨location, h.locate hlocate, h.directories location hentry⟩

end Grows

end FileTree

end Stencil
