import Stencil.Json.Printer
import Stencil.Markup.Tree
import Stencil.Request.Basic
import Stencil.Template.Render

/-!
# The documents of a component

A component is stored as three documents: the template, the list of its fields, and a record of what
it is. The last two are JSON and carry a version.

* `Json.dump`, the text of a document;
* `fieldsDocument` and `metaDocument`;
* `Document`, the three names in the order in which they are written, and `Rendering`, the contents
  of all three with what a log says about the way there.
-/

set_option autoImplicit false

namespace Stencil

/-- A document as text, unless an integer in it has too many digits or it is nested too deep. -/
def Json.dump (host : Host) (document : Json) : Except Unwritable Text :=
  match (Value.ofJson document).fault? host.printing with
  | none => .ok document.print
  | some fault => .error fault

/-- The version of both JSON documents. -/
def documentVersion : Json :=
  .string "1.0.0"

/-- A field as a member of the list of fields. -/
def Field.toJson (field : Field) : Json :=
  .object [("key", .string field.key), ("type", .string field.kind.word),
    ("label", .string field.label), ("default", .string field.default)]

/-- The document that lists fields. -/
def fieldsDocument (fields : Register) : Json :=
  .object [("$schema", .string "https://justsite.dev/schemas/fields.schema.json"),
    ("version", documentVersion), ("fields", .array (fields.map Field.toJson))]

/-- A member for a text that may be absent. -/
def optionalMember (name : Text) : Option Text → List (Text × Json)
  | none => []
  | some text => [(name, .string text)]

/-- What is said of a component that has no description. -/
def defaultDescription : Text :=
  "Bootstrap 5 component compatible with the JustSite library. "

/-- What is said of a component: its description, unless it has none or an empty one. -/
def statedDescription : Option Text → Text
  | none => defaultDescription
  | some text => if text = [] then defaultDescription else text

/-- The document that says what a component is. -/
def metaDocument (request : Request) (slug : Text) : Json :=
  let ending : List (Text × Json) :=
    [("tags", .array (request.tags.map .string)),
      ("description", .string (statedDescription request.description)),
      ("bootstrap", .string "5"), ("accessibility", .object [("ariaReady", .bool true)]),
      ("version", documentVersion)]
  let named := optionalMember "name" request.componentName
  let placed := optionalMember "category" request.category
  .object (named ++ [(Text.ofString "slug", .string slug)] ++ placed ++ ending)

/-- The documents of a component. -/
inductive Document where
  | template
  | fields
  | metadata
  deriving DecidableEq, Repr

namespace Document

/-- The name of the file that holds the document. -/
def fileName : Document → Text
  | template => "index.hbs"
  | fields => "fields.json"
  | metadata => "meta.json"

/-- All documents, in the order in which they are written. -/
def all : List Document :=
  [template, fields, metadata]

end Document

/-- A component before it is written: request and slug, the tree of the markup, and the template. -/
structure Rendering where
  request : Request
  slug : Text
  tree : List Node
  template : Template
  deriving Repr

namespace Rendering

/-- The rendering of a request. -/
def ofRequest (request : Request) : Rendering :=
  let tree := Node.parse request.sourceHtml
  { request := request
    slug := request.slug
    tree := tree
    template := .ofTree request.options tree }

/-- The text of a document. Those of a component are laid out as they are, for they have no integers
and no host lacks the room for their three levels. -/
def content (rendering : Rendering) : Document → Text
  | .template => rendering.template.text
  | .fields => (fieldsDocument rendering.template.fields).print
  | .metadata => (metaDocument rendering.request rendering.slug).print

end Rendering

end Stencil
