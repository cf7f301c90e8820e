import Stencil.Text.Case
import Stencil.Template.Naming

/-!
# Rendering a template

A tree is written back as markup in which every editable place is a placeholder: the class list and
the editable attributes of an element, and the texts right inside one. All the rest is literal.
Places are met in document order, the class list of an element before its other attributes.

* `escapeAttribute` and `placeholder`;
* `Run`, what has been named and registered so far, and `Run.place`, which gives a place its key;
* `Node.render`, and `Template.ofTree`, the template of a whole tree.
-/

set_option autoImplicit false

namespace Stencil

/-- A text as it stands between double quotes: ampersands and double quotes as references. -/
def escapeAttribute (text : Text) : Text :=
  Text.replace '"' "&quot;" (Text.replace '&' "&amp;" text)

/-- A key between double braces. -/
def placeholder (key : Text) : Text :=
  ("\x7b\x7b" : Text) ++ key ++ ("\x7d\x7d" : Text)

/-- The state of one rendering: the naming history, the fields, and the keys that came up again
after they were taken. -/
structure Run where
  naming : Naming := {}
  register : Register := []
  repeated : List Text := []
  deriving DecidableEq, Repr

namespace Run

/-- Registers a field; the first field of a key is kept. -/
def note (run : Run) (field : Field) : Run :=
  match run.register.add? field with
  | some register => { run with register := register }
  | none => { run with repeated := run.repeated ++ [field.key] }

end Run

/-! ## Attributes -/

/-- An attribute as it stands in the tag. -/
def literalAttribute (name : Text) : AttributeValue → Text
  | .flag true => ' ' :: name
  | .flag false => (.scalar ' ' :: name) ++ ("=\"False\"" : Text)
  | .text content =>
    (.scalar ' ' :: name) ++ ("=\"" : Text) ++ escapeAttribute content ++ ("\"" : Text)

/-- An attribute with a placeholder for its value. -/
def openAttribute (name key : Text) : Text :=
  (.scalar ' ' :: name) ++ ("=\"" : Text) ++ placeholder key ++ ("\"" : Text)

/-- The text of an attribute value; a flag has none. -/
def AttributeValue.content : AttributeValue → Text
  | .text content => content
  | .flag _ => []

/-- The class attribute of an element. Only a text that is not empty can become a placeholder. -/
def renderClass (options : Options) (tag : Tag) (run : Run) : Text × Run :=
  match Attributes.value? "class" tag.attributes with
  | none => ([], run)
  | some value =>
    if value.content = [] then (literalAttribute "class" value, run)
    else
      match run.naming.classKey options.classMode tag with
      | (some key, naming) =>
        (openAttribute "class" key,
          { run with naming := naming }.note
            ⟨key, .classes, ("Classes " : Text) ++ tag.name, value.content⟩)
      | (none, naming) => (literalAttribute "class" value, { run with naming := naming })

/-- An attribute other than the class. -/
def renderAttribute (options : Options) (tag : Tag) (name : Text) (value : AttributeValue)
    (run : Run) : Text × Run :=
  if options.editable.contains name then
    let (key, naming) := run.naming.attributeKey tag name
    (openAttribute name key,
      { run with naming := naming }.note
        ⟨key, .ofAttribute name, Text.upper name, value.content⟩)
  else (literalAttribute name value, run)

/-- The attributes other than the class, in order. -/
def renderAttributes (options : Options) (tag : Tag) : Attributes → Run → Text × Run
  | [], run => ([], run)
  | (name, value) :: rest, run =>
    if name = "class" then renderAttributes options tag rest run
    else
      let (first, run) := renderAttribute options tag name value run
      let (others, run) := renderAttributes options tag rest run
      (first ++ others, run)

/-! ## Text and elements -/

/-- A text right inside `parent`, or at top level. Blank text and text at top level stay literal,
with runs of blanks collapsed. -/
def renderText (options : Options) (parent : Option Tag) (content : Text) (run : Run) :
    Text × Run :=
  let collapsed := Text.collapse content
  match parent with
  | none => (collapsed, run)
  | some tag =>
    if !options.textEditable || Text.trim collapsed = [] then (collapsed, run)
    else
      let (key, naming) := run.naming.textKey tag
      (placeholder key,
        { run with naming := naming }.note ⟨key, .text, "Text", Text.trim collapsed⟩)

namespace Node

mutual

/-- A node as a piece of the template, with the state after it. -/
def render (options : Options) (parent : Option Tag) : Node → Run → Text × Run
  | .text content, run => renderText options parent content run
  | .element tag children, run =>
    let (classText, run) := renderClass options tag run
    let (attributesText, run) := renderAttributes options tag tag.attributes run
    let start := .scalar '<' :: (tag.name ++ classText ++ attributesText)
    if tag.isVoid then (start ++ (" />" : Text), run)
    else
      let (inner, run) := renderAll options (some tag) children run
      (start ++ (">" : Text) ++ inner ++ ("</" : Text) ++ tag.name ++ (">" : Text), run)

/-- Neighbouring nodes as a piece of the template, with the state after them. -/
def renderAll (options : Options) (parent : Option Tag) : List Node → Run → Text × Run
  | [], run => ([], run)
  | node :: rest, run =>
    let (first, run) := render options parent node run
    let (others, run) := renderAll options parent rest run
    (first ++ others, run)

end

end Node

/-! ## Whole templates -/

/-- A template: its text, its fields, and the keys that were asked for again. -/
structure Template where
  text : Text
  fields : Register
  repeated : List Text
  deriving DecidableEq, Repr

/-- The template of a tree. Every tree starts from a naming history of its own. -/
def Template.ofTree (options : Options) (tree : List Node) : Template :=
  let (text, run) := Node.renderAll options none tree {}
  ⟨text, run.register, run.repeated⟩

end Stencil
