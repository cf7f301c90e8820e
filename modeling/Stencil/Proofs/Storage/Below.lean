import Stencil.Proofs.Storage.Frame

/-!
# Staying below a directory

A double dot leads back over the name in front of it, so where names lead can be told without a file
tree (`Location.resolve`), and a path that leads somewhere in a tree leads there
(`FileTree.eq_locationOf_of_locate`).

Names stay below the directory that they start in unless a double dot climbs out of it
(`Location.inside?`). If none does, they lead to the same place below every directory
(`Location.resolve_append_of_inside?`); if one does, some directory is left for good
(`Location.not_prefix_resolve`).
-/

set_option autoImplicit false

namespace Stencil

namespace Location

/-- Where one name leads from a location. -/
def enter (location : Location) (name : Text) : Location :=
  if name = ".." then location.dropLast else location ++ [name]

/-- Where names lead from a location, whatever stands there. -/
def resolve (start : Location) (names : List Text) : Location :=
  names.foldl enter start

/-- Where names lead below a directory, from a place `below` it; none as soon as a double dot climbs
out of the directory. -/
def inside? : Location → List Text → Option Location
  | below, [] => some below
  | below, name :: names =>
    if name = ".." then if below = [] then none else inside? below.dropLast names
    else inside? (below ++ [name]) names

/-- Whether a location lies below a directory. -/
def Below (location directory : Location) : Prop :=
  ∃ names ≠ [], location = directory ++ names

@[simp]
theorem resolve_nil (start : Location) : resolve start [] = start :=
  rfl

@[simp]
theorem resolve_cons (start : Location) (name : Text) (names : List Text) :
    resolve start (name :: names) = resolve (enter start name) names :=
  rfl

theorem resolve_append (start : Location) (first second : List Text) :
    resolve start (first ++ second) = resolve (resolve start first) second := by
  simp [resolve]

theorem enter_of_ne {name : Text} (h : name ≠ "..") (location : Location) :
    enter location name = location ++ [name] := by
  simp [enter, h]

/-! ## Names that stay inside -/

variable {below final : Location} {names first second : List Text}

/-- Names stay inside if the first ones do and the others do from there on. -/
theorem inside?_append :
    inside? below (first ++ second) = (inside? below first).bind (inside? · second) := by
  induction first generalizing below with
  | nil => rfl
  | cons name first ih =>
    rw [List.cons_append, inside?, inside?]
    split
    · split
      · rfl
      · exact ih
    · exact ih

/-- **Names that stay inside** lead to the same place below every directory. -/
theorem resolve_append_of_inside? (h : inside? below names = some final) (base : Location) :
    resolve (base ++ below) names = base ++ final := by
  -- The induction follows the names; what they lead to is always the base with something behind it.
  induction names generalizing below with
  | nil =>
    obtain rfl := Option.some.inj h
    rfl
  | cons name names ih =>
    rw [inside?] at h
    rw [resolve_cons]
    split at h
    · next hdots =>
      split at h
      · cases h
      · next hbelow =>
        have hback : enter (base ++ below) name = base ++ below.dropLast := by
          rw [enter, if_pos hdots, List.dropLast_append_of_ne_nil hbelow]
        rw [hback]
        exact ih h
    · next hname =>
      rw [enter_of_ne hname, List.append_assoc]
      exact ih h

/-! ## Names that climb out -/

/-- Names lead to a place whose names are among them or were there at the start. -/
theorem mem_resolve {start : Location} {name : Text} (h : name ∈ resolve start names) :
    name ∈ start ∨ name ∈ names := by
  induction names generalizing start with
  | nil => exact Or.inl h
  | cons first names ih =>
    rcases ih h with hstart | hnames
    · unfold enter at hstart
      split at hstart
      · exact Or.inl (List.dropLast_subset _ hstart)
      · rcases List.mem_append.1 hstart with hstart | hfirst
        · exact Or.inl hstart
        · exact Or.inr (List.mem_cons.2 (Or.inl (List.mem_singleton.1 hfirst)))
    · exact Or.inr (List.mem_cons_of_mem first hnames)

/-- Names that climb out of a directory do not lead back to it, unless they name it. -/
theorem not_prefix_resolve (h : inside? below names = none) {directory : Text}
    (hnamed : directory ∉ names) : ¬ [directory] <+: resolve (directory :: below) names := by
  induction names generalizing below with
  | nil => cases h
  | cons name names ih =>
    have hlater : directory ∉ names := fun hmem => hnamed (List.mem_cons_of_mem name hmem)
    rw [inside?] at h
    rw [resolve_cons]
    split at h
    · next hdots =>
      split at h
      · next hbelow =>
        -- The double dot leads back over the name of the directory, which never comes up again.
        have hout : enter (directory :: below) name = [] := by
          rw [enter, if_pos hdots, hbelow]
          rfl
        rw [hout]
        intro hprefix
        have hmem : directory ∈ resolve [] names := hprefix.subset List.mem_cons_self
        exact (mem_resolve hmem).elim List.not_mem_nil hlater
      · next hbelow =>
        have hback : enter (directory :: below) name = directory :: below.dropLast := by
          rw [enter, if_pos hdots, List.dropLast_cons_of_ne_nil hbelow]
        rw [hback]
        exact ih h hlater
    · next hname =>
      rw [enter_of_ne hname, List.cons_append]
      exact ih h hlater

/-- There is a name that is none of some given ones. -/
theorem exists_not_mem (names : List Text) : ∃ name : Text, name ∉ names := by
  -- A name that is longer than all of them together.
  refine ⟨List.replicate (names.flatten.length + 1) (.scalar 'x'), ?_⟩
  intro hmem
  have hshort := (List.sublist_flatten_of_mem hmem).length_le
  rw [List.length_replicate] at hshort
  omega

/-- Names lead below every directory that they start in if and only if they stay inside and do not
end where they start. -/
theorem forall_below_iff :
    (∀ base, (resolve base names).Below base) ↔ ∃ below ≠ [], inside? [] names = some below := by
  constructor
  · intro hall
    obtain ⟨directory, hnamed⟩ := exists_not_mem names
    cases hinside : inside? [] names with
    | none =>
      obtain ⟨below, -, hbelow⟩ := hall [directory]
      exact absurd ⟨below, hbelow.symm⟩ (not_prefix_resolve hinside hnamed)
    | some final =>
      obtain ⟨below, hne, hbelow⟩ := hall []
      have hfinal : resolve [] names = final := resolve_append_of_inside? hinside []
      rw [hfinal] at hbelow
      exact ⟨final, hbelow ▸ hne, rfl⟩
  · rintro ⟨below, hne, hinside⟩ base
    have hfinal := resolve_append_of_inside? hinside base
    rw [List.append_nil] at hfinal
    exact ⟨below, hne, hfinal⟩

-- A double dot that leads back below the directory is harmless; one too many is not.
example : inside? [] (["a", "..", "b"] : List Text) = some ([("b" : Text)] : List Text) ∧
    inside? [] (["a", "..", "..", "b"] : List Text) = none := by
  decide

end Location

/-! ## Paths of a tree -/

namespace FileTree

variable {tree : FileTree} {location stop : Location}

/-- The location of a path, whatever stands there and on the way. -/
def locationOf (tree : FileTree) (path : Path) : Location :=
  Location.resolve (tree.start path) path.names

theorem locationOf_append (tree : FileTree) (path : Path) (names : List Text) :
    tree.locationOf (path.append names) =
      Location.resolve (tree.locationOf path) (names.filter Path.isName) :=
  Location.resolve_append (tree.start path) path.names (names.filter Path.isName)

theorem eq_enter_of_step {name : Text} (h : tree.step location name = .ok stop) :
    stop = Location.enter location name := by
  by_cases hdots : name = ".."
  · unfold step at h
    split at h
    · cases h
    · cases h
    · rw [if_pos hdots] at h
      rw [Location.enter, if_pos hdots]
      exact (Except.ok.inj h).symm
  · rw [Location.enter_of_ne hdots]
    exact eq_of_step hdots h

theorem eq_resolve_of_follow {names : List Text} (h : tree.follow location names = .ok stop) :
    stop = Location.resolve location names := by
  induction names generalizing location with
  | nil => exact (Except.ok.inj h).symm
  | cons name names ih =>
    rw [follow] at h
    split at h
    · next next hstep =>
      rw [Location.resolve_cons, ← eq_enter_of_step hstep]
      exact ih h
    · cases h

/-- A path that leads somewhere leads to its location. -/
theorem eq_locationOf_of_locate {path : Path} (h : tree.locate path = .ok location) :
    location = tree.locationOf path := by
  obtain ⟨-, -, hfollow⟩ := locate_eq_ok_iff.1 h
  exact eq_resolve_of_follow hfollow

/-- Where paths lead does not change while a tree grows. -/
theorem Grows.locationOf {before after : FileTree} (h : before.Grows after) (path : Path) :
    after.locationOf path = before.locationOf path := by
  rw [FileTree.locationOf, FileTree.locationOf, start, start, h.workingDirectory]

end FileTree

end Stencil
