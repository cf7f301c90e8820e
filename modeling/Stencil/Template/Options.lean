import Stencil.Text.Basic

/-!
# Generation options

Which parts of a fragment become placeholders. This module holds `ClassMode`, `Options` with its
defaults, and the words that select a class mode (`ClassMode.ofWord?`).
-/

set_option autoImplicit false

namespace Stencil

/-- What happens to class attributes. Under `fixed` they stay literal; the other two make
placeholders of them. -/
inductive ClassMode where
  | single
  | multiple
  | fixed
  deriving DecidableEq, Repr

namespace ClassMode

/-- The word that selects the mode. -/
def word : ClassMode → Text
  | single => "single"
  | multiple => "multiple"
  | fixed => "fixed"

/-- The mode that a word selects. -/
def ofWord? (text : Text) : Option ClassMode :=
  [single, multiple, fixed].find? fun mode => mode.word = text

end ClassMode

/-- The attributes, the class apart, that are editable unless a request says otherwise. -/
def defaultEditable : List Text :=
  Text.sortedSet ["href", "src", "alt", "title"]

/-- The switches of one run: the class mode, whether text becomes placeholders, and the names of the
attributes that do, sorted and each named once. -/
structure Options where
  classMode : ClassMode := .single
  textEditable : Bool := true
  editable : List Text := defaultEditable
  deriving DecidableEq, Repr

end Stencil
