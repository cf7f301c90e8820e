import Stencil.Text.Basic

/-!
# Fields

A field describes one editable place of a template. Fields are kept in a register in which the first
field of a key wins.

* `FieldKind`, `Field`;
* `Register`, with `Register.add?` and `Register.has`;
* `Register.defaults`, the content that each key stands for.
-/

set_option autoImplicit false

namespace Stencil

/-- The kind of editor that a field asks for. Templates use the first three. -/
inductive FieldKind where
  | text
  | url
  | classes
  | other (word : Text)
  deriving DecidableEq, Repr

namespace FieldKind

/-- The word for a kind. -/
def word : FieldKind → Text
  | text => "text"
  | url => "url"
  | classes => "classes"
  | other word => word

/-- The kind that a word names. -/
def ofWord (word : Text) : FieldKind :=
  if word = "text" then text
  else if word = "url" then url
  else if word = "classes" then classes
  else other word

end FieldKind

/-- An editable place: the key of its placeholder, the kind of its content, a caption, and the
content that the placeholder replaced. -/
structure Field where
  key : Text
  kind : FieldKind
  label : Text
  default : Text
  deriving DecidableEq, Repr

/-- The fields of a template, in the order in which their keys first came up. -/
abbrev Register := List Field

namespace Register

/-- Whether a key is taken. -/
def has (register : Register) (key : Text) : Bool :=
  register.any (·.key = key)

/-- The register with a field more, unless its key is taken. -/
def add? (register : Register) (field : Field) : Option Register :=
  if register.has field.key then none else some (register ++ [field])

/-- The keys with the content they stand for. -/
def defaults (register : Register) : List (Text × Text) :=
  register.map fun field => (field.key, field.default)

end Register

end Stencil
