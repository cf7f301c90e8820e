import Stencil.Markup.Node
import Stencil.Template.Field
import Stencil.Template.Options

/-!
# Naming placeholders

Keys say what a place is for: `title`, `btn_label`, `section_classes`. Some keys go to the first
element that asks for them, others are numbered, so the answer depends on what was named before.
That history is a `Naming`.

* `Naming`, the claims already made and the counters;
* `Naming.classKey`, `Naming.textKey`, `Naming.attributeKey`, each with the history after it;
* `FieldKind.ofAttribute`, the kind of field for an attribute.
-/

set_option autoImplicit false

namespace Stencil

/-- What has been named so far in one document: whether the title, the subtitle, the section and the
container are taken, and how many button labels, links, other texts and class lists had a number. -/
structure Naming where
  titleTaken : Bool := false
  subtitleTaken : Bool := false
  buttons : Int := 0
  links : Int := 0
  texts : Int := 0
  classLists : Int := 0
  sectionTaken : Bool := false
  containerTaken : Bool := false
  deriving DecidableEq, Repr

/-- The first of a series has the bare name, the others carry their number. -/
def numbered (base : Text) (index : Int) : Text :=
  if index = 1 then base else base ++ ("_" : Text) ++ intNumeral index

/-- The names of headings, `h1` to `h6`; a line feed may follow. -/
def isHeadingName (name : Text) : Bool :=
  let digits : List CodePoint := ['1', '2', '3', '4', '5', '6']
  match name with
  | [c, digit] => c = 'h' && digits.contains digit
  | [c, digit, last] => c = 'h' && digits.contains digit && last = '\n'
  | _ => false

namespace Naming

/-- The key for the class list of an element. Without one, the classes stay as they are. -/
def classKey (mode : ClassMode) (tag : Tag) (naming : Naming) : Option Text × Naming :=
  if mode = .fixed then (none, naming)
  else if !naming.sectionTaken && tag.name = "section" then
    (some "section_classes", { naming with sectionTaken := true })
  else if !naming.containerTaken && tag.name = "div" && tag.classList.contains "container" then
    (some "container_classes", { naming with containerTaken := true })
  else if tag.isButton then
    (some (if naming.buttons = 0 then "btn_classes"
      else ("btn_classes_" : Text) ++ intNumeral (naming.buttons + 1)), naming)
  else
    (some (numbered (tag.name ++ ("_classes" : Text)) (naming.classLists + 1)),
      { naming with classLists := naming.classLists + 1 })

/-- The key for a text right inside an element. -/
def textKey (tag : Tag) (naming : Naming) : Text × Naming :=
  if tag.isButton then
    (numbered "btn_label" (naming.buttons + 1), { naming with buttons := naming.buttons + 1 })
  else if isHeadingName tag.name then
    if naming.titleTaken then (("heading_" : Text) ++ tag.name, naming)
    else ("title", { naming with titleTaken := true })
  else if tag.name = "p" && naming.titleTaken && !naming.subtitleTaken then
    ("subtitle", { naming with subtitleTaken := true })
  else
    (numbered "text" (naming.texts + 1), { naming with texts := naming.texts + 1 })

/-- The key for an editable attribute of an element. -/
def attributeKey (tag : Tag) (name : Text) (naming : Naming) : Text × Naming :=
  if tag.name = "a" && name = "href" then
    (numbered (if tag.isButton then "btn_url" else "link_url") (naming.links + 1),
      { naming with links := naming.links + 1 })
  else (tag.name ++ ("_" : Text) ++ name, naming)

end Naming

/-- Link targets and image sources are addresses; any other attribute is text. -/
def FieldKind.ofAttribute (name : Text) : FieldKind :=
  if name = "href" || name = "src" then .url else .text

end Stencil
