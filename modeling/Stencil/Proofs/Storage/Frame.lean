import Stencil.Proofs.Storage.ReadBack

/-!
# What operations leave alone

Making a directory with those on the way to it, and writing files into it, changes a file tree at
few locations only (`FileTree.Changes`): there are new directories where prefixes of the path lead
(`FileTree.changes_ensureDirectory`), and files where the written paths lead
(`FileTree.changes_writeAll`). This holds of a run that stops on the way, too, and then the written
files are the first ones of those that were to be written (`FileTree.writeAll_split`).

Where everything is in place already, nothing changes (`FileTree.ensureDirectory_of_directory`,
`FileTree.writeAll_of_reads`).
-/

set_option autoImplicit false

namespace Stencil

/-- Whether a path is a prefix of another one. -/
def Path.OnTheWayTo (path target : Path) : Prop :=
  path.root = target.root ∧ path.names <+: target.names

namespace FileTree

variable {tree before middle after next : FileTree} {location : Location}

/-! ## Changes -/

/-- A tree has grown to another one, and differs from it only where it may: by a new directory where
one of the paths for directories leads, or by a file where one of the paths for files leads. -/
structure Changes (before after : FileTree) (directories files : Path → Prop) : Prop where
  grows : before.Grows after
  changed : ∀ location, after.entry? location ≠ before.entry? location →
    (before.entry? location = none ∧ after.entry? location = some .directory ∧
        ∃ path, directories path ∧ after.locate path = .ok location) ∨
      ((∃ content, after.entry? location = some (.file content)) ∧
        ∃ path, files path ∧ after.locate path = .ok location)

namespace Changes

variable {directories files moreDirectories moreFiles : Path → Prop}

theorem refl (tree : FileTree) (directories files : Path → Prop) :
    tree.Changes tree directories files :=
  ⟨Grows.refl tree, fun _ h => absurd rfl h⟩

theorem mono (h : before.Changes after directories files)
    (hdirectories : ∀ path, directories path → moreDirectories path)
    (hfiles : ∀ path, files path → moreFiles path) :
    before.Changes after moreDirectories moreFiles := by
  refine ⟨h.grows, ?_⟩
  intro location hchanged
  rcases h.changed location hchanged with
    ⟨hnew, hentry, path, hpath, hlocate⟩ | ⟨hentry, path, hpath, hlocate⟩
  · exact Or.inl ⟨hnew, hentry, path, hdirectories path hpath, hlocate⟩
  · exact Or.inr ⟨hentry, path, hfiles path hpath, hlocate⟩

theorem trans (h : before.Changes middle directories files)
    (h' : middle.Changes after directories files) : before.Changes after directories files := by
  refine ⟨h.grows.trans h'.grows, ?_⟩
  intro location hchanged
  by_cases hlater : after.entry? location = middle.entry? location
  · -- All that happened here happened before.
    rw [hlater] at hchanged
    rcases h.changed location hchanged with
      ⟨hnew, hentry, path, hpath, hlocate⟩ | ⟨⟨content, hentry⟩, path, hpath, hlocate⟩
    · exact Or.inl ⟨hnew, hlater.trans hentry, path, hpath, h'.grows.locate hlocate⟩
    · exact Or.inr ⟨⟨content, hlater.trans hentry⟩, path, hpath, h'.grows.locate hlocate⟩
  · rcases h'.changed location hlater with ⟨hnew, hentry, hpath⟩ | hfile
    · exact Or.inl ⟨h.grows.entry_eq_none hnew, hentry, hpath⟩
    · exact Or.inr hfile

end Changes

/-- Only the location of an entry can change. -/
theorem eq_of_entry_put_ne {other : Location} {entry : Entry}
    (h : FileTree.entry? (tree.put location entry) other ≠ tree.entry? other) :
    other = location := by
  refine Decidable.byContradiction ?_
  intro hne
  exact h (entry_put_of_ne hne tree entry)

/-! ## Making directories -/

theorem exists_put_of_makeDirectory {path : Path} (h : tree.makeDirectory path = .ok next) :
    ∃ location, tree.locate path = .ok location ∧ tree.entry? location = none ∧
      next = tree.put location .directory := by
  unfold makeDirectory at h
  split at h
  · cases h
  · next location hlocate =>
    split at h
    · cases h
    · next hplace =>
      cases h
      rw [Bool.not_eq_true, Option.isSome_eq_false_iff, Option.isNone_iff_eq_none] at hplace
      exact ⟨location, hlocate, hplace, rfl⟩

theorem changes_makeDirectory {path : Path} (h : tree.makeDirectory path = .ok next) :
    tree.Changes next (· = path) (fun _ => False) ∧ next.inspect path = .ok .directory := by
  obtain ⟨location, hlocate, hplace, rfl⟩ := exists_put_of_makeDirectory h
  have hgrows := Grows.put_directory hplace
  have hroot : location ≠ [] := by
    rintro rfl
    cases hplace
  have hentry := entry_put_self hroot tree .directory
  have hleads := hgrows.locate hlocate
  refine ⟨⟨hgrows, ?_⟩, inspect_eq_ok_iff.2 ⟨location, hleads, hentry⟩⟩
  intro other hchanged
  obtain rfl := eq_of_entry_put_ne hchanged
  exact Or.inl ⟨hplace, hentry, path, rfl, hleads⟩

theorem changes_allowDirectory {path : Path} (h : tree.allowDirectory path = .ok next) :
    tree.Changes next (· = path) (fun _ => False) ∧ next.inspect path = .ok .directory := by
  unfold allowDirectory at h
  split at h
  · next made hmade =>
    cases h
    exact changes_makeDirectory hmade
  · cases h
  · split at h
    · next hinspect =>
      cases h
      exact ⟨Changes.refl _ _ _, hinspect⟩
    · cases h

/-- A directory that is there will do. -/
theorem allowDirectory_of_directory {path : Path} (h : tree.inspect path = .ok .directory) :
    tree.allowDirectory path = .ok tree := by
  obtain ⟨location, hlocate, hentry⟩ := inspect_eq_ok_iff.1 h
  -- Making it fails, and the fault is forgiven, for there is a directory.
  have hmake : tree.makeDirectory path = .error (.at .alreadyExists path) := by
    rw [makeDirectory, hlocate]
    dsimp only
    rw [hentry]
    rfl
  rw [allowDirectory, hmake]
  dsimp only
  rw [h]

/-- Either there is no room above a path, and nothing is made, or something is made there. -/
theorem above_cases {make : Nat → FileTree × Option FileFault} {room : Nat}
    {fault : Option FileFault} (h : tree.above make room = (next, fault)) :
    (next = tree ∧ room = 0 ∧ fault = some .tooDeep) ∨
      ∃ left, room = left + 1 ∧ make left = (next, fault) := by
  cases room with
  | zero =>
    cases h
    exact Or.inl ⟨rfl, rfl, rfl⟩
  | succ left => exact Or.inr ⟨left, rfl, h⟩

/-- Directories are made on the way to the path only; and if nothing stops the work, there is one at
the path. -/
theorem changes_ensureNames {root : Text} {room : Nat} {reversed : List Text}
    {fault : Option FileFault} (h : ensureNames root tree reversed room = (next, fault)) :
    tree.Changes next (·.OnTheWayTo ⟨root, reversed.reverse⟩) (fun _ => False) ∧
      (fault = none → next.inspect ⟨root, reversed.reverse⟩ = .ok .directory) := by
  -- The induction follows the recursion from the last name to those in front of it; what is made on
  -- the way to a shorter path is made on the way to the longer one, too.
  induction reversed generalizing room next fault with
  | nil =>
    rw [ensureNames] at h
    split at h
    · next made hmade =>
      cases h
      obtain ⟨hchanges, hinspect⟩ := changes_allowDirectory hmade
      refine ⟨hchanges.mono ?_ fun _ hno => hno, fun _ => hinspect⟩
      rintro path rfl
      exact ⟨rfl, List.prefix_refl _⟩
    · cases h
      refine ⟨Changes.refl _ _ _, ?_⟩
      rintro ⟨⟩
  | cons name reversed ih =>
    have hself : ∀ path : Path, path = ⟨root, (name :: reversed).reverse⟩ →
        path.OnTheWayTo ⟨root, (name :: reversed).reverse⟩ := by
      rintro path rfl
      exact ⟨rfl, List.prefix_refl _⟩
    have habove : ∀ path : Path, path.OnTheWayTo ⟨root, reversed.reverse⟩ →
        path.OnTheWayTo ⟨root, (name :: reversed).reverse⟩ := by
      rintro path ⟨hroot, hnames⟩
      refine ⟨hroot, hnames.trans ?_⟩
      rw [List.reverse_cons]
      exact List.prefix_append _ _
    rw [ensureNames] at h
    split at h
    · next made hmade =>
      cases h
      obtain ⟨hchanges, hinspect⟩ := changes_allowDirectory hmade
      exact ⟨hchanges.mono hself fun _ hno => hno, fun _ => hinspect⟩
    · -- The directory above has to be made first.
      split at h
      · next stopped trouble hstopped =>
        cases h
        refine ⟨?_, nofun⟩
        rcases above_cases hstopped with ⟨rfl, -⟩ | ⟨left, -, hmade⟩
        · exact Changes.refl _ _ _
        · exact (ih hmade).1.mono habove fun _ hno => hno
      · next middle hmade =>
        obtain ⟨-, -, ⟨⟩⟩ | ⟨left, -, hmade⟩ := above_cases hmade
        have hway := (ih hmade).1.mono habove fun _ hno => hno
        split at h
        · next last hlast =>
          cases h
          obtain ⟨hchanges, hinspect⟩ := changes_allowDirectory hlast
          exact ⟨hway.trans (hchanges.mono hself fun _ hno => hno), fun _ => hinspect⟩
        · cases h
          exact ⟨hway, nofun⟩
    · cases h
      refine ⟨Changes.refl _ _ _, ?_⟩
      rintro ⟨⟩

theorem changes_ensureDirectory {host : Host} {path : Path} {fault : Option FileFault}
    (h : tree.ensureDirectory host path = (next, fault)) :
    tree.Changes next (·.OnTheWayTo path) (fun _ => False) ∧
      (fault = none → next.inspect path = .ok .directory) := by
  have hspec := changes_ensureNames h
  rw [List.reverse_reverse] at hspec
  exact hspec

/-- A directory that is there needs no other ones. -/
theorem ensureDirectory_of_directory (host : Host) {path : Path}
    (h : tree.inspect path = .ok .directory) : tree.ensureDirectory host path = (tree, none) := by
  obtain ⟨root, names⟩ := path
  have hallow := allowDirectory_of_directory h
  rw [ensureDirectory]
  dsimp only
  cases hreversed : names.reverse with
  | nil =>
    obtain rfl := List.reverse_eq_nil_iff.1 hreversed
    rw [ensureNames, hallow]
  | cons name reversed =>
    have hnames : (name :: reversed).reverse = names := by
      rw [← hreversed, List.reverse_reverse]
    rw [ensureNames, hnames, hallow]

/-! ## Writing files -/

theorem changes_write {path : Path} {content : Bytes} (h : tree.write path content = .ok next) :
    tree.Changes next (fun _ => False) (· = path) := by
  obtain ⟨location, hlocate, hplace, rfl⟩ := exists_put_of_write h
  have hgrows := Grows.put_file hplace content
  refine ⟨hgrows, ?_⟩
  intro other hchanged
  obtain rfl := eq_of_entry_put_ne hchanged
  exact Or.inr ⟨⟨content, entry_put_self (ne_root_of_entry hplace) tree _⟩, path, rfl,
    hgrows.locate hlocate⟩

/-- What a file holds already may be written to it without a change. -/
theorem write_of_read {path : Path} {content : Bytes} (h : tree.read path = .ok content) :
    tree.write path content = .ok tree := by
  obtain ⟨location, hlocate, hentry⟩ := read_eq_ok_iff.1 h
  have hplace : tree.entry? location ≠ some .directory := by
    rw [hentry]
    rintro ⟨⟩
  rw [write, hlocate]
  dsimp only
  rw [if_neg hplace, put_of_entry (ne_root_of_entry hplace) hentry]

/-- Some first ones of the files are written, and all of them if nothing stops the work. -/
theorem writeAll_split {directory : Path} {files : List (Text × Bytes)} {fault : Option FileFault}
    (h : tree.writeAll directory files = (next, fault)) :
    ∃ written left, files = written ++ left ∧ tree.writeAll directory written = (next, none) ∧
      (fault = none → left = []) := by
  induction files generalizing tree with
  | nil =>
    cases h
    exact ⟨[], [], rfl, rfl, fun _ => rfl⟩
  | cons file files ih =>
    obtain ⟨name, content⟩ := file
    rw [writeAll] at h
    split at h
    · cases h
      refine ⟨[], (name, content) :: files, rfl, rfl, ?_⟩
      rintro ⟨⟩
    · next middle hmiddle =>
      obtain ⟨written, left, rfl, hwritten, hleft⟩ := ih h
      refine ⟨(name, content) :: written, left, rfl, ?_, hleft⟩
      rw [writeAll, hmiddle]
      exact hwritten

theorem changes_writeAll {directory : Path} {files : List (Text × Bytes)}
    (h : tree.writeAll directory files = (next, none)) :
    tree.Changes next (fun _ => False) (fun path => ∃ name ∈ files.map Prod.fst,
      path = directory.append [name]) := by
  induction files generalizing tree with
  | nil =>
    cases h
    exact Changes.refl _ _ _
  | cons file files ih =>
    obtain ⟨name, content⟩ := file
    rw [writeAll] at h
    split at h
    · cases h
    · next middle hmiddle =>
      refine ((changes_write hmiddle).mono (fun _ hno => hno) ?_).trans
        ((ih h).mono (fun _ hno => hno) ?_)
      · rintro path rfl
        exact ⟨name, List.mem_cons_self, rfl⟩
      · rintro path ⟨other, hother, rfl⟩
        exact ⟨other, List.mem_cons_of_mem _ hother, rfl⟩

/-- Files that hold already what is written to them do not change. -/
theorem writeAll_of_reads {directory : Path} {files : List (Text × Bytes)}
    (h : ∀ file ∈ files, tree.read (directory.append [file.1]) = .ok file.2) :
    tree.writeAll directory files = (tree, none) := by
  induction files with
  | nil => rfl
  | cons file files ih =>
    obtain ⟨name, content⟩ := file
    rw [writeAll, write_of_read (h _ List.mem_cons_self)]
    exact ih fun other hother => h other (List.mem_cons_of_mem _ hother)

end FileTree

end Stencil
