import Stencil.Yaml.Label

/-!
# Tokens

The parts of a YAML text: marks that open and close collections, marks for entries, keys and values,
and the names and scalars between them.

* `Yaml.Token`;
* `Yaml.Bracket`, the kinds of flow collections.
-/

set_option autoImplicit false

namespace Stencil

namespace Yaml

/-- The kinds of collections between brackets. -/
inductive Bracket where
  | sequence
  | mapping
  deriving DecidableEq, Repr

/-- A part of a text. A `fault` stands where the text could not be cut any further. -/
inductive Token where
  | fault (failure : Failure)
  | streamEnd
  | directive (directive : Directive)
  | documentStart
  | documentEnd
  | blockSequenceStart
  | blockMappingStart
  | blockEnd
  | flowStart (bracket : Bracket)
  | flowEnd (bracket : Bracket)
  | flowEntry
  | blockEntry
  | key
  | value
  | reference (name : Text)
  | anchor (name : Text)
  | tag (label : TagLabel)
  | scalar (text : Text) (plain : Bool)
  deriving DecidableEq, Repr

end Yaml

end Stencil
