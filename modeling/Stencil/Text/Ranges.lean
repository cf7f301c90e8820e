import Stencil.Text.Basic

/-!
# Classes of code points as ranges

A property of code points given by a standard is a list of ranges, each written with its first and
its last number. `CodePoint.isIn` asks whether a code point lies in one of them.
-/

set_option autoImplicit false

namespace Stencil

/-- Ranges of code point numbers, both ends included. -/
abbrev CodeRanges := List (Nat × Nat)

/-- Whether some range has the code point. -/
def CodePoint.isIn (c : CodePoint) (ranges : CodeRanges) : Bool :=
  ranges.any fun (first, last) => first ≤ c.value && c.value ≤ last

end Stencil
