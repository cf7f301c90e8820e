import Stencil.Host
import Stencil.Slug
import Stencil.Template.Options
import Stencil.Value.Display

/-!
# Generation requests

A request names a component and holds its markup. It is read from a mapping; entries that are
missing or of the wrong kind fall back to their defaults, and only a value that is no mapping is
refused.

* `Request`, with the category segments and the text its slug is made from;
* `Request.ofEntries`, from the entries of a mapping, and `Request.ofValue?`;
* `Request.writtenValues`, the values that become texts on the way, and `Request.fault?`, what may
  stand in the way of that.
-/

set_option autoImplicit false

namespace Stencil

/-- One fragment to turn into a component. Name, category and description are absent or not empty.
-/
structure Request where
  componentName : Option Text
  sourceHtml : Text
  category : Option Text
  tags : List Text
  options : Options
  description : Option Text
  deriving DecidableEq, Repr

namespace Request

/-- The segments of the category between slashes, the empty ones left out. -/
def categorySegments (request : Request) : List Text :=
  (Text.splitOn '/' (request.category.getD "components")).filter fun segment => !segment.isEmpty

/-- The text that the slug is made from. -/
def slugSource (request : Request) : Text :=
  request.componentName.getD "component"

/-- The directory name of the component. -/
def slug (request : Request) : Text :=
  slugOf request.slugSource

/-! ## From decoded values -/

/-- The text of an entry; absent when the entry is missing, null or an empty string. -/
def optionalText : Option Value → Option Text
  | none => none
  | some .null => none
  | some (.string []) => none
  | some value => some value.display

/-- The text of the markup entry; anything empty stands for no markup. -/
def markupText : Option Value → Text
  | none => []
  | some value => value.displayOrEmpty

/-- What the entry for the tags holds; nothing unless it is a list. -/
def tagValues : Option Value → List Value
  | some (.list items) => items
  | _ => []

/-- The tags. -/
def tagTexts (entry : Option Value) : List Text :=
  (tagValues entry).map Value.display

/-- The class mode; unknown values behave like `single`. -/
def classMode (entry : Option Value) : ClassMode :=
  (ClassMode.ofWord? (entry.getD .null).display).getD .single

/-- Text stays editable unless the entry is false itself. -/
def textEditable : Option Value → Bool
  | some (.bool false) => false
  | _ => true

/-- What the entry for the editable attributes holds, if it is a list or a tuple. -/
def nameValues? : Option Value → Option (List Value)
  | some (.list items) => some items
  | some (.tuple items) => some items
  | _ => none

/-- The editable attributes; the default ones unless the entry is a list. -/
def editableNames (entry : Option Value) : List Text :=
  match nameValues? entry with
  | some names => Text.sortedSet (names.map Value.display)
  | none => defaultEditable

/-- The entries of the options; none unless they are a mapping. -/
def optionEntries : Option Value → List (Value × Value)
  | some (.mapping entries) => entries
  | _ => []

/-- The options that an entry gives; the default ones unless it is a mapping. -/
def optionsOf (entry : Option Value) : Options :=
  let entries := optionEntries entry
  { classMode := classMode (Value.member? "classesMode" entries)
    textEditable := textEditable (Value.member? "textEditable" entries)
    editable := editableNames (Value.member? "attrEditable" entries) }

/-- The request with the entries of a mapping. -/
def ofEntries (entries : List (Value × Value)) : Request :=
  { componentName := optionalText (Value.member? "componentName" entries)
    sourceHtml := markupText (Value.member? "sourceHtml" entries)
    category := optionalText (Value.member? "category" entries)
    tags := tagTexts (Value.member? "tags" entries)
    options := optionsOf (Value.member? "options" entries)
    description := optionalText (Value.member? "description" entries) }

/-- The request that a decoded value describes, if the value is a mapping. -/
def ofValue? : Value → Option Request
  | .mapping entries => some (ofEntries entries)
  | _ => none

/-- The value that names the class mode. -/
def modeValue : Value → Value
  | .mapping entries =>
    (Value.member? "classesMode" (optionEntries (Value.member? "options" entries))).getD .null
  | _ => .null

/-- The other values that are written to make a request of a value, in their turn. Markup that is
empty is not written. -/
def writtenValues : Value → List Value
  | .mapping entries =>
    let options := optionEntries (Value.member? "options" entries)
    let markup := (Value.member? "sourceHtml" entries).filter fun value => !value.isEmpty
    (nameValues? (Value.member? "attrEditable" options)).getD [] ++
      (Value.member? "componentName" entries).toList ++ markup.toList ++
      (Value.member? "category" entries).toList ++ tagValues (Value.member? "tags" entries) ++
      (Value.member? "description" entries).toList
  | _ => []

/-- What stands in the way of making a request of a value: the first value that is not written. An
integer of too many digits is no class mode, as other unknown values are none. -/
def fault? (host : Host) (value : Value) : Option Unwritable :=
  match (modeValue value).fault? host.showing with
  | some .tooDeep => some .tooDeep
  | _ => (writtenValues value).findSome? fun written => written.fault? host.showing

end Request

end Stencil
