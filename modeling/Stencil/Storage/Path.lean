import Stencil.Text.Case
import Stencil.Text.Utf8

/-!
# Paths

A path is a root, which is empty for a path that starts in the working directory, and the names
below it. Empty names and single dots are dropped when a path is read; double dots stay.

* `Path`, `Path.ofText` and `Path.text`;
* `Path.append`, `Path.name`, `Path.suffix`;
* `Path.relativeTo?`, the path below another one.
-/

set_option autoImplicit false

namespace Stencil

/-- A path: its root, and the names from there on. -/
structure Path where
  root : Text
  names : List Text
  deriving DecidableEq, Repr

namespace Path

/-- Whether a name counts in a path. -/
def isName (name : Text) : Bool :=
  name ≠ [] && name ≠ "."

/-- The root that a text starts with: two slashes are a root of their own, any other number of them
is the same as one. -/
def rootOf (text : Text) : Text :=
  let slashes := (text.takeWhile (· = .scalar '/')).length
  if slashes = 0 then [] else if slashes = 2 then "//" else "/"

/-- The path that a text describes. -/
def ofText (text : Text) : Path :=
  ⟨rootOf text, (Text.splitOn '/' text).filter isName⟩

/-- The path as text; a path without root and names is a dot. -/
def text (path : Path) : Text :=
  if path.root = [] ∧ path.names = [] then "." else path.root ++ Text.join "/" path.names

/-- Whether the path starts at a root. -/
def isAbsolute (path : Path) : Bool :=
  path.root ≠ []

/-- The path with more names behind it. -/
def append (path : Path) (names : List Text) : Path :=
  { path with names := path.names ++ names.filter isName }

/-- The last name of the path; empty when there is none. -/
def name (path : Path) : Text :=
  path.names.getLastD []

/-- The last dot of the last name and what follows it; empty when the dot starts or ends the name.
-/
def suffix (path : Path) : Text :=
  let ending := (path.name.reverse.takeWhile (· ≠ .scalar '.')).reverse
  if ending = [] ∨ path.name.length ≤ ending.length + 1 then [] else .scalar '.' :: ending

/-- What is left of the names behind those of another path with the same root. -/
def relativeTo? (path base : Path) : Option Path :=
  if path.root = base.root ∧ base.names.isPrefixOf path.names then
    some ⟨[], path.names.drop base.names.length⟩
  else none

/-- The number of bytes that are too many for a path. -/
def sizeLimit : Nat :=
  4096

/-- The most bytes that a name may have. -/
def nameLimit : Nat :=
  255

/-- Whether the path holds the code point that no path may hold. -/
def hasNull (path : Path) : Bool :=
  path.text.any fun c => c.value = 0

end Path

end Stencil
