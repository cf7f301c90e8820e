import Stencil.Text.Blank

/-!
# Markup trees

A markup fragment is a list of nodes: literal text, or an element with a tag and nodes of its own.
This module holds the trees and what can be asked of a single tag:

* `Attributes`, an association list in order of first mention, with `Attributes.set`;
* `Tag`, `Node`, and the tags of a fragment in document order (`Node.tagsOf`);
* `Tag.isVoid`, `Tag.classList`, `Tag.isButton`;
* `Node.depthOf`, how many elements are inside each other, and `Node.reachedOf`, what is met before
  one that is too deep.
-/

set_option autoImplicit false

namespace Stencil

/-- The value of an attribute: a text, or a flag where the attribute is only mentioned. -/
inductive AttributeValue where
  | text (content : Text)
  | flag (on : Bool)
  deriving DecidableEq, Repr

/-- Attribute names with their values, in the order in which the names were first mentioned. -/
abbrev Attributes := List (Text × AttributeValue)

namespace Attributes

/-- The value of the attribute `name`. -/
def value? (name : Text) : Attributes → Option AttributeValue
  | [] => none
  | (other, value) :: rest => if other = name then some value else value? name rest

/-- Gives `name` a value: a known name keeps its place, a new one comes last. -/
def set (name : Text) (value : AttributeValue) : Attributes → Attributes
  | [] => [(name, value)]
  | (other, old) :: rest =>
    if other = name then (other, value) :: rest else (other, old) :: set name value rest

/-- The attributes that a sequence of mentions leaves behind. -/
def ofMentions (mentions : List (Text × AttributeValue)) : Attributes :=
  mentions.foldl (fun attributes (name, value) => set name value attributes) []

end Attributes

/-- A start tag: the name of an element and its attributes. -/
structure Tag where
  name : Text
  attributes : Attributes
  deriving DecidableEq, Repr

/-- A node of a markup tree. -/
inductive Node where
  | text (content : Text)
  | element (tag : Tag) (children : List Node)
  deriving Repr, Inhabited

/-! ## Questions about one tag -/

/-- The elements that never have children. -/
def voidNames : List Text :=
  ["area", "base", "br", "col", "embed", "hr", "img", "input", "link", "meta", "param", "source",
    "track", "wbr"]

namespace Tag

/-- Whether elements with this tag never have children. -/
def isVoid (tag : Tag) : Bool :=
  voidNames.contains tag.name

/-- The words of the class attribute; none when it has no text. -/
def classList (tag : Tag) : List Text :=
  match Attributes.value? "class" tag.attributes with
  | some (.text content) => Text.words content
  | _ => []

/-- An anchor that one of its classes styles as a button. -/
def isButton (tag : Tag) : Bool :=
  tag.name = "a" && tag.classList.any fun word => word = "btn" || Text.startsWith word "btn-"

end Tag

/-! ## Document order -/

namespace Node

mutual

/-- The tags of a node and of everything below it, in document order. -/
def tags : Node → List Tag
  | .text _ => []
  | .element tag children => tag :: tagsOf children

/-- The tags of a fragment, in document order. -/
def tagsOf : List Node → List Tag
  | [] => []
  | node :: rest => node.tags ++ tagsOf rest

end

/-! ## Nesting -/

mutual

/-- How many elements of a node are inside each other. -/
def depth : Node → Nat
  | .text _ => 0
  | .element _ children => depthOf children + 1

/-- How many elements of a fragment are inside each other. -/
def depthOf : List Node → Nat
  | [] => 0
  | node :: rest => max node.depth (depthOf rest)

end

mutual

/-- What is met of a node before the first element with more than `room` others around it, and
whether there is one. -/
def reached : Node → Nat → List Node × Bool
  | .text content, _ => ([.text content], false)
  | .element _ _, 0 => ([], true)
  | .element tag children, room + 1 =>
    let (inside, stopped) := reachedOf children room
    ([.element tag inside], stopped)

/-- What is met of a fragment before the first element with more than `room` others around it, and
whether there is one. -/
def reachedOf : List Node → Nat → List Node × Bool
  | [], _ => ([], false)
  | node :: rest, room =>
    let (first, stopped) := node.reached room
    if stopped then (first, true)
    else
      let (others, stopped) := reachedOf rest room
      (first ++ others, stopped)

end

end Node

end Stencil
