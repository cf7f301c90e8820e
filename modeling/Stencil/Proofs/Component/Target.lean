import Stencil.Proofs.Component.Effect
import Stencil.Proofs.Component.Slug
import Stencil.Proofs.Storage.Below

/-!
# Where components go

A component goes below the library directory, into the directory of its category and there into one
of its own. Neither holds of every request.

* A category may hold double dots, and a double dot too many leads out of the library. The component
  stays inside every library directory if and only if none of them does
  (`Request.staysInside_iff`); `Request.card_beside_library` is a component that does not.
* A name may have nothing that a slug could be made of, and then the component has no directory of
  its own (`Request.hasOwnDirectory_iff`); its documents go into the directory of the category
  (`Request.target_of_slug_eq_nil`), as those of `Request.documents_in_category` do.
-/

set_option autoImplicit false

namespace Stencil

/-- The name of a document counts in a path and leads to a file right below a directory. -/
theorem FileTree.locationOf_document (tree : FileTree) (directory : Path) (document : Document) :
    tree.locationOf (directory.append [document.fileName]) =
      tree.locationOf directory ++ [document.fileName] := by
  obtain ⟨hname, hdots⟩ := document.isFileName
  rw [locationOf_append, List.filter_cons_of_pos hname, List.filter_nil, Location.resolve_cons,
    Location.enter_of_ne hdots, Location.resolve_nil]

namespace Request

variable {host : Host} {request : Request} {library : Path} {before : FileTree}
  {location : Location}

/-! ## Names of the target -/

/-- The names that lead from the library directory to the directory of the category. -/
def categoryNames (request : Request) : List Text :=
  request.categorySegments.filter Path.isName

/-- The names that lead from the library directory to the target. -/
def targetNames (request : Request) : List Text :=
  (request.categorySegments ++ [request.slug]).filter Path.isName

/-- The directory of the category. -/
def categoryDirectory (request : Request) (library : Path) : Path :=
  library.append request.categorySegments

theorem targetNames_of_slug_eq_nil (h : request.slug = []) :
    request.targetNames = request.categoryNames := by
  rw [targetNames, List.filter_append, h]
  exact List.append_nil _

theorem targetNames_of_slug_ne_nil (h : request.slug ≠ []) :
    request.targetNames = request.categoryNames ++ [request.slug] := by
  have hname : Path.isName request.slug = true := isName_slugOf_iff.2 h
  rw [targetNames, List.filter_append, List.filter_cons_of_pos hname, List.filter_nil,
    categoryNames]

theorem locationOf_target (request : Request) (library : Path) (tree : FileTree) :
    tree.locationOf (request.target library) =
      Location.resolve (tree.locationOf library) request.targetNames :=
  tree.locationOf_append library (request.categorySegments ++ [request.slug])

theorem locationOf_categoryDirectory (request : Request) (library : Path) (tree : FileTree) :
    tree.locationOf (request.categoryDirectory library) =
      Location.resolve (tree.locationOf library) request.categoryNames :=
  tree.locationOf_append library request.categorySegments

/-! ## What a run touches -/

/-- The file tree after a run. -/
def treeAfter (host : Host) (request : Request) (library : Path) (before : FileTree) : FileTree :=
  ((Rendering.ofRequest request).write host library before).1

theorem exists_effect (host : Host) (request : Request) (library : Path) (before : FileTree) :
    ∃ written, (Rendering.ofRequest request).Effect library before
      (request.treeAfter host library before) written := by
  have hrun : (Rendering.ofRequest request).write host library before =
      (request.treeAfter host library before,
        ((Rendering.ofRequest request).write host library before).2) := rfl
  obtain ⟨written, heffect, -⟩ := Rendering.effect_of_run hrun
  exact ⟨written, heffect⟩

/-- A run creates or overwrites no file but documents in the target directory. -/
theorem exists_document_of_changed {content : Bytes}
    (hafter : FileTree.entry? (request.treeAfter host library before) location =
      some (.file content))
    (hbefore : before.entry? location ≠ some (.file content)) :
    ∃ document : Document,
      location = before.locationOf (request.target library) ++ [document.fileName] := by
  obtain ⟨written, heffect⟩ := exists_effect host request library before
  have hchanged : FileTree.entry? (request.treeAfter host library before) location ≠
      before.entry? location := by
    intro hsame
    exact hbefore (hsame.symm.trans hafter)
  rcases heffect.changes.changed location hchanged with
    ⟨-, hdirectory, -⟩ | ⟨-, path, ⟨document, -, rfl⟩, hlocate⟩
  · exact absurd (hafter.symm.trans hdirectory) (by simp)
  · refine ⟨document, ?_⟩
    rw [FileTree.eq_locationOf_of_locate hlocate, heffect.changes.grows.locationOf,
      FileTree.locationOf_document]
    rfl

/-- A run makes no directory but on the way to the target. -/
theorem exists_path_of_made
    (hafter : FileTree.entry? (request.treeAfter host library before) location = some .directory)
    (hbefore : before.entry? location ≠ some .directory) :
    ∃ path : Path, path.OnTheWayTo (request.target library) ∧
      location = before.locationOf path := by
  obtain ⟨written, heffect⟩ := exists_effect host request library before
  have hchanged : FileTree.entry? (request.treeAfter host library before) location ≠
      before.entry? location := by
    intro hsame
    exact hbefore (hsame.symm.trans hafter)
  rcases heffect.changes.changed location hchanged with
    ⟨-, -, path, hway, hlocate⟩ | ⟨⟨content, hfile⟩, -⟩
  · refine ⟨path, hway, ?_⟩
    rw [FileTree.eq_locationOf_of_locate hlocate]
    exact heffect.changes.grows.locationOf path
  · exact absurd (hafter.symm.trans hfile) (by simp)

/-! ## Inside the library -/

/-- The component of a request stays inside the library directory: its target lies below it, and so
does each file that a run creates or overwrites and each directory that it makes, but for those on
the way to the library. -/
structure StaysInside (host : Host) (request : Request) (library : Path) (before : FileTree) :
    Prop where
  target : (before.locationOf (request.target library)).Below (before.locationOf library)
  files : ∀ location content,
    FileTree.entry? (request.treeAfter host library before) location = some (.file content) →
      before.entry? location ≠ some (.file content) →
        Location.Below location (before.locationOf library)
  directories : ∀ location,
    FileTree.entry? (request.treeAfter host library before) location = some .directory →
      before.entry? location ≠ some .directory →
        Location.Below location (before.locationOf library) ∨
          ∃ path : Path, path.OnTheWayTo library ∧ location = before.locationOf path

/-- The names of the target stay inside a directory and lead below it if and only if those of the
category stay inside, and these lead below it or there is a slug. -/
theorem exists_below_targetNames_iff :
    (∃ below ≠ [], Location.inside? [] request.targetNames = some below) ↔
      ∃ below, Location.inside? [] request.categoryNames = some below ∧
        (below ≠ [] ∨ request.slug ≠ []) := by
  by_cases hslug : request.slug = []
  · rw [targetNames_of_slug_eq_nil hslug]
    constructor
    · rintro ⟨below, hbelow, hinside⟩
      exact ⟨below, hinside, Or.inl hbelow⟩
    · rintro ⟨below, hinside, hbelow | hname⟩
      · exact ⟨below, hbelow, hinside⟩
      · exact absurd hslug hname
  · -- The slug is no double dot, so it leads one name further below.
    have hlast : ∀ below,
        Location.inside? below [request.slug] = some (below ++ [request.slug]) := by
      intro below
      have hdots : request.slug ≠ ".." := slugOf_ne_doubleDot request.slugSource
      rw [Location.inside?, if_neg hdots, Location.inside?]
    rw [targetNames_of_slug_ne_nil hslug, Location.inside?_append]
    cases Location.inside? [] request.categoryNames with
    | none => simp
    | some below => simp [hlast, hslug]

/-- What is on the way to the target lies below the library, or where something on the way to the
library lies, if the names of the target stay inside. -/
theorem below_or_of_onTheWayTo {below : Location} {path : Path}
    (hinside : Location.inside? [] request.targetNames = some below)
    (hway : path.OnTheWayTo (request.target library)) :
    (before.locationOf path).Below (before.locationOf library) ∨
      ∃ way : Path, way.OnTheWayTo library ∧ before.locationOf path = before.locationOf way := by
  obtain ⟨root, names⟩ := path
  obtain ⟨rfl, hprefix⟩ : root = library.root ∧ names <+: library.names ++ request.targetNames :=
    hway
  rcases List.prefix_or_prefix_of_prefix hprefix (List.prefix_append _ _) with hshort | ⟨rest, rfl⟩
  · exact Or.inr ⟨⟨library.root, names⟩, ⟨rfl, hshort⟩, rfl⟩
  · -- The path goes on from the library with the first ones of names that stay inside.
    obtain ⟨later, hlater⟩ := (List.prefix_append_right_inj library.names).1 hprefix
    rw [← hlater, Location.inside?_append] at hinside
    obtain ⟨above, habove, -⟩ := Option.bind_eq_some_iff.1 hinside
    have hplace : before.locationOf ⟨library.root, library.names ++ rest⟩ =
        before.locationOf library ++ above := by
      have hresolve := Location.resolve_append_of_inside? habove (before.locationOf library)
      rw [List.append_nil] at hresolve
      rw [← hresolve]
      exact Location.resolve_append (before.start library) library.names rest
    by_cases hempty : above = []
    · refine Or.inr ⟨library, ⟨rfl, List.prefix_refl _⟩, ?_⟩
      rw [hplace, hempty, List.append_nil]
    · exact Or.inl ⟨above, hempty, hplace⟩

/-- Names that stay inside keep the component inside. -/
theorem staysInside_of_inside? {below : Location} (hbelow : below ≠ [])
    (hinside : Location.inside? [] request.targetNames = some below) (host : Host)
    (library : Path) (before : FileTree) : request.StaysInside host library before := by
  have htarget : before.locationOf (request.target library) =
      before.locationOf library ++ below := by
    have hresolve := Location.resolve_append_of_inside? hinside (before.locationOf library)
    rw [List.append_nil] at hresolve
    rw [locationOf_target, hresolve]
  refine ⟨⟨below, hbelow, htarget⟩, ?_, ?_⟩
  · intro location content hafter hbefore
    obtain ⟨document, rfl⟩ := exists_document_of_changed hafter hbefore
    refine ⟨below ++ [document.fileName], List.append_ne_nil_of_left_ne_nil hbelow _, ?_⟩
    rw [htarget, List.append_assoc]
  · intro location hafter hbefore
    obtain ⟨path, hway, rfl⟩ := exists_path_of_made hafter hbefore
    exact below_or_of_onTheWayTo hinside hway

/-- **Staying inside.** The component of a request stays inside the library directory, whatever
that is, whatever stands in the file tree and on every host, if and only if no double dot of its
category climbs out of the library, and the names of the category or the slug lead below it. -/
theorem staysInside_iff (request : Request) :
    (∀ host library before, request.StaysInside host library before) ↔
      ∃ below, Location.inside? [] request.categoryNames = some below ∧
        (below ≠ [] ∨ request.slug ≠ []) := by
  rw [← exists_below_targetNames_iff]
  constructor
  · intro hall
    apply Location.forall_below_iff.1
    -- In a tree with the base as its working directory, the library may be the base itself.
    intro base
    have htarget := (hall .usual ⟨[], []⟩ ⟨base, []⟩).target
    rw [locationOf_target] at htarget
    exact htarget
  · rintro ⟨below, hbelow, hinside⟩ host library before
    exact staysInside_of_inside? hbelow hinside host library before

/-- A component whose category leads out of the library, with its documents beside it. -/
theorem card_beside_library :
    let entries : List (Value × Value) :=
      [(.string "componentName", .string "Card"), (.string "category", .string "..")]
    let request := ofEntries entries
    let library : Path := ⟨[], ["library"]⟩
    let before : FileTree := ⟨[], []⟩
    let after := request.treeAfter .usual library before
    ofValue? (.mapping entries) = some request ∧
      after.entries.map Prod.fst = ([["library"], ["card"], ["card", "index.hbs"],
        ["card", "fields.json"], ["card", "meta.json"]] : List Location) ∧
      ¬ request.StaysInside .usual library before := by
  intro entries request library before after
  refine ⟨rfl, by decide +kernel, ?_⟩
  intro hinside
  obtain ⟨below, -, hbelow⟩ := hinside.target
  have htarget : before.locationOf (request.target library) = ([("card" : Text)] : Location) := by
    decide +kernel
  rw [htarget] at hbelow
  exact absurd (List.cons.inj hbelow).1 (by decide)

/-! ## A directory of its own -/

/-- The component of a request has a directory of its own: there is a slug, the target lies right
below the directory of the category and is named by the slug, and what a run creates or overwrites
lies there, not in the directory of the category. -/
structure HasOwnDirectory (request : Request) : Prop where
  slug : request.slug ≠ []
  target : ∀ (library : Path) (tree : FileTree),
    tree.locationOf (request.target library) =
      tree.locationOf (request.categoryDirectory library) ++ [request.slug]
  files : ∀ (host : Host) (library : Path) (before : FileTree) (location : Location)
      (content : Bytes),
    FileTree.entry? (request.treeAfter host library before) location = some (.file content) →
      before.entry? location ≠ some (.file content) →
        ∃ document : Document, location =
          before.locationOf (request.categoryDirectory library) ++
            [request.slug, document.fileName]

/-- Without a slug, the documents go into the directory of the category. -/
theorem target_of_slug_eq_nil (h : request.slug = []) (library : Path) :
    request.target library = request.categoryDirectory library := by
  have hnames : request.targetNames = request.categoryNames := targetNames_of_slug_eq_nil h
  exact congrArg (fun names => (⟨library.root, library.names ++ names⟩ : Path)) hnames

theorem locationOf_target_of_slug (h : request.slug ≠ []) (library : Path) (tree : FileTree) :
    tree.locationOf (request.target library) =
      tree.locationOf (request.categoryDirectory library) ++ [request.slug] := by
  have hdots : request.slug ≠ ".." := slugOf_ne_doubleDot request.slugSource
  rw [locationOf_target, locationOf_categoryDirectory, targetNames_of_slug_ne_nil h,
    Location.resolve_append, Location.resolve_cons, Location.enter_of_ne hdots,
    Location.resolve_nil]

/-- **A directory of its own.** A component has one if and only if an ASCII letter or digit or an
ampersand is left of its name in plain spelling, without marks. -/
theorem hasOwnDirectory_iff (request : Request) :
    request.HasOwnDirectory ↔
      ∃ c ∈ withoutMarks request.slugSource, c.isAsciiAlphanumeric = true ∨ c = .scalar '&' := by
  rw [← slugOf_ne_nil_iff]
  constructor
  · intro hown
    exact hown.slug
  · intro hslug
    refine ⟨hslug, locationOf_target_of_slug hslug, ?_⟩
    intro host library before location content hafter hbefore
    obtain ⟨document, rfl⟩ := exists_document_of_changed hafter hbefore
    refine ⟨document, ?_⟩
    rw [locationOf_target_of_slug hslug, List.append_assoc, List.singleton_append]

/-- A component whose name has neither a letter nor a digit, and whose documents go into the
directory of the category. -/
theorem documents_in_category :
    let entries : List (Value × Value) := [(.string "componentName", .string "!!!")]
    let request := ofEntries entries
    let after := request.treeAfter .usual ⟨[], ["library"]⟩ ⟨[], []⟩
    ofValue? (.mapping entries) = some request ∧ request.slug = [] ∧
      after.entries.map Prod.fst = ([["library"], ["library", "components"],
        ["library", "components", "index.hbs"], ["library", "components", "fields.json"],
        ["library", "components", "meta.json"]] : List Location) ∧
      ¬ request.HasOwnDirectory := by
  intro entries request after
  have hslug : request.slug = [] := by
    decide +kernel
  refine ⟨rfl, hslug, by decide +kernel, ?_⟩
  intro hown
  exact hown.slug hslug

end Request

end Stencil
