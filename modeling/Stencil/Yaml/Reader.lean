import Stencil.Yaml.Build

/-!
# Reading YAML

A text is read when all its code points may stand in a document and it holds one document at most.
The rules are those of version 1.2; a document that asks for version 1.1 gets its rules for scalars.

* `Yaml.isAllowed`, the code points of a document;
* `Yaml.read`.
-/

set_option autoImplicit false

namespace Stencil

namespace Yaml

/-- The code points that may stand in a document: all that are visible, with tabs and line breaks.
-/
def allowedRanges : CodeRanges :=
  [(0x09, 0x0A), (0x0D, 0x0D), (0x20, 0x7E), (0x85, 0x85), (0xA0, 0xD7FF), (0xE000, 0xFFFD),
    (0x10000, 0x10FFFF)]

/-- Whether a code point may stand in a document. -/
def isAllowed (c : CodePoint) : Bool :=
  c.isIn allowedRanges

/-- The value of the document in a text, in which no more than `room` collections may be inside each
other; null when there is none. -/
def read (room : Nat) (text : Text) : Except Failure Value :=
  if !text.all isAllowed then .error .malformed
  else
    match Node.ofTokens room (tokens text) with
    | .error failure => .error failure
    | .ok (none, _) => .ok .null
    | .ok (some root, legacy) => root.value legacy

end Yaml

end Stencil
