import Stencil.Markup.Span

/-!
# Trees from spans

The spans of a markup text are put together from left to right. An element stays open until its end
tag, an end tag further out, or the end of the markup; an end tag that names no open element counts
for nothing. Void elements and those that close themselves never open.

* `OpenElement`, an element whose children are still being read, and `Assembly`, the tree so far;
* `Assembly.step`, what one span does to it;
* `Node.parse`, the tree of a markup text.
-/

set_option autoImplicit false

namespace Stencil

/-- An element whose children are still being read, with the nodes that stand before it among the
children of its parent. -/
structure OpenElement where
  tag : Tag
  earlier : List Node

/-- A tree that is being put together: the open elements, innermost first, and the nodes so far
inside the innermost of them, or at top level when none is open. -/
structure Assembly where
  opened : List OpenElement := []
  nodes : List Node := []

namespace OpenElement

/-- The nodes of the parent, once the element is closed over its children. -/
def close (element : OpenElement) (children : List Node) : List Node :=
  element.earlier ++ [.element element.tag children]

end OpenElement

namespace Assembly

/-- A node that follows the ones so far. -/
def add (assembly : Assembly) (node : Node) : Assembly :=
  { assembly with nodes := assembly.nodes ++ [node] }

/-- An element that the following nodes belong to. -/
def openElement (assembly : Assembly) (tag : Tag) : Assembly :=
  { opened := ⟨tag, assembly.nodes⟩ :: assembly.opened, nodes := [] }

/-- Closes open elements from the innermost outward, through the first one of the given name. -/
def closeThrough (name : Text) : List OpenElement → List Node → Assembly
  | [], nodes => ⟨[], nodes⟩
  | element :: outer, nodes =>
    if element.tag.name = name then ⟨outer, element.close nodes⟩
    else closeThrough name outer (element.close nodes)

/-- What an end tag does. -/
def closeNamed (assembly : Assembly) (name : Text) : Assembly :=
  if assembly.opened.any (·.tag.name = name) then closeThrough name assembly.opened assembly.nodes
  else assembly

/-- What a span adds to the tree. -/
def step (assembly : Assembly) : Span → Assembly
  | .text content => assembly.add (.text content)
  | .opening inside =>
    let tag := Tag.read inside
    if tag.isVoid || Tag.closesItself inside then assembly.add (.element tag [])
    else assembly.openElement tag
  | .closing inside => assembly.closeNamed (closingName inside)
  | .comment _ => assembly
  | .cutOff _ => assembly

/-- The nodes at top level, once every open element is closed. -/
def finish (assembly : Assembly) : List Node :=
  assembly.opened.foldl (fun nodes element => element.close nodes) assembly.nodes

end Assembly

namespace Node

/-- The tree of a sequence of spans. -/
def ofSpans (spans : List Span) : List Node :=
  (spans.foldl Assembly.step {}).finish

/-- The tree of a markup text. -/
def parse (markup : Text) : List Node :=
  ofSpans (Span.ofMarkup markup)

end Node

end Stencil
