import Stencil.Component.Write
import Stencil.Proofs.Storage.Growth

/-!
# Files read back

What was written to a file can be read from it (`FileTree.read_of_write`), and stays there while
other files are written into the same directory (`FileTree.read_of_write_other`). So, where files of
different names are written into a directory one after another and none fails, each is found there
(`FileTree.read_of_writeAll`).

A file is never put where a directory was. So the tree only grows (`FileTree.Grows`), and all paths
lead where they led before.
-/

set_option autoImplicit false

namespace Stencil

namespace FileTree

variable {tree next : FileTree} {location : Location}

/-! ## Reading and writing -/

/-- A file is read from where its path leads. -/
theorem read_eq_ok_iff {path : Path} {content : Bytes} :
    tree.read path = .ok content ↔
      ∃ location, tree.locate path = .ok location ∧
        tree.entry? location = some (.file content) := by
  rw [← inspect_eq_ok_iff, read]
  cases tree.inspect path with
  | error fault => simp
  | ok entry =>
    cases entry with
    | directory => simp
    | file other => simp

/-- A write puts a file where its path leads, and no directory was there. -/
theorem exists_put_of_write {path : Path} {content : Bytes}
    (h : tree.write path content = .ok next) :
    ∃ location, tree.locate path = .ok location ∧ tree.entry? location ≠ some .directory ∧
      next = tree.put location (.file content) := by
  unfold write at h
  split at h
  · cases h
  · next location hlocate =>
    split at h
    · cases h
    · next hplace =>
      cases h
      exact ⟨location, hlocate, hplace, rfl⟩

/-- What was written can be read. -/
theorem read_of_write {path : Path} {content : Bytes} (h : tree.write path content = .ok next) :
    next.read path = .ok content := by
  obtain ⟨location, hlocate, hplace, rfl⟩ := exists_put_of_write h
  exact read_eq_ok_iff.2 ⟨location, (Grows.put_file hplace content).locate hlocate,
    entry_put_self (ne_root_of_entry hplace) tree _⟩

/-! ## Files of one directory -/

/-- A name that a file can have in a directory. -/
def IsFileName (name : Text) : Prop :=
  Path.isName name = true ∧ name ≠ ".."

section Directory

variable {directory : Path} {name other : Text} {content : Bytes}

/-- A file of a directory stands right below where the directory is. -/
theorem exists_location_of_locate (hname : IsFileName name)
    (h : tree.locate (directory.append [name]) = .ok location) :
    ∃ above, tree.follow (tree.start directory) directory.names = .ok above ∧
      location = above ++ [name] := by
  obtain ⟨-, -, hfollow⟩ := locate_eq_ok_iff.1 h
  have hnames : (directory.append [name]).names = directory.names ++ [name] := by
    rw [Path.append, List.filter_cons_of_pos hname.1, List.filter_nil]
  have hstart : tree.start (directory.append [name]) = tree.start directory := rfl
  rw [hnames, hstart] at hfollow
  obtain ⟨above, habove, hlast⟩ := follow_append.1 hfollow
  refine ⟨above, habove, ?_⟩
  rw [follow] at hlast
  split at hlast
  · next stop hstep =>
    cases hlast
    exact eq_of_step hname.2 hstep
  · cases hlast

/-- What is written to another file of the directory leaves a file as it is. -/
theorem read_of_write_other (hname : IsFileName name) (hother : IsFileName other)
    (hne : other ≠ name) {others : Bytes}
    (hwrite : tree.write (directory.append [other]) others = .ok next)
    (hread : tree.read (directory.append [name]) = .ok content) :
    next.read (directory.append [name]) = .ok content := by
  obtain ⟨location, hlocate, hplace, rfl⟩ := exists_put_of_write hwrite
  obtain ⟨place, hplaced, hentry⟩ := read_eq_ok_iff.1 hread
  obtain ⟨above, habove, rfl⟩ := exists_location_of_locate hother hlocate
  obtain ⟨above', habove', rfl⟩ := exists_location_of_locate hname hplaced
  -- Both stand in the same directory, so only their names can tell them apart.
  obtain rfl : above = above' := Except.ok.inj (habove.symm.trans habove')
  have hapart : above ++ [name] ≠ above ++ [other] := by
    intro hsame
    exact hne (List.cons.inj (List.append_cancel_left hsame)).1.symm
  exact read_eq_ok_iff.2 ⟨_, (Grows.put_file hplace others).locate hplaced,
    (entry_put_of_ne hapart tree _).trans hentry⟩

theorem read_of_writeAll_others (hname : IsFileName name) {files : List (Text × Bytes)}
    (hfiles : ∀ file ∈ files, IsFileName file.1 ∧ file.1 ≠ name)
    (hwrite : tree.writeAll directory files = (next, none))
    (hread : tree.read (directory.append [name]) = .ok content) :
    next.read (directory.append [name]) = .ok content := by
  induction files generalizing tree with
  | nil =>
    cases hwrite
    exact hread
  | cons file files ih =>
    obtain ⟨other, others⟩ := file
    obtain ⟨hother, hne⟩ := hfiles _ List.mem_cons_self
    rw [writeAll] at hwrite
    split at hwrite
    · cases hwrite
    · next middle hmiddle =>
      exact ih (fun file hfile => hfiles file (List.mem_cons_of_mem _ hfile)) hwrite
        (read_of_write_other hname hother hne hmiddle hread)

/-- Where files of different names are all written into a directory, each can be read there. -/
theorem read_of_writeAll {files : List (Text × Bytes)} (hnames : ∀ file ∈ files, IsFileName file.1)
    (hnodup : (files.map Prod.fst).Nodup)
    (hwrite : tree.writeAll directory files = (next, none)) :
    ∀ file ∈ files, next.read (directory.append [file.1]) = .ok file.2 := by
  induction files generalizing tree with
  | nil => exact fun _ hfile => absurd hfile List.not_mem_nil
  | cons first files ih =>
    obtain ⟨name, content⟩ := first
    rw [List.map_cons, List.nodup_cons] at hnodup
    have hlater : ∀ file ∈ files, IsFileName file.1 :=
      fun file hfile => hnames file (List.mem_cons_of_mem _ hfile)
    rw [writeAll] at hwrite
    split at hwrite
    · cases hwrite
    · next middle hmiddle =>
      intro file hfile
      -- The first file is written over by none of the later ones, for their names differ from its.
      rcases List.mem_cons.1 hfile with rfl | hfile
      · refine read_of_writeAll_others (hnames _ List.mem_cons_self) ?_ hwrite
          (read_of_write hmiddle)
        intro other hother
        exact ⟨hlater other hother, fun hsame => hnodup.1 (hsame ▸ List.mem_map_of_mem hother)⟩
      · exact ih hlater hnodup.2 hwrite file hfile

end Directory

end FileTree

end Stencil
