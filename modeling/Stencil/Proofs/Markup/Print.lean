import Stencil.Markup.Node

/-!
# Writing a tree as markup

A tree is written literally: each attribute behind a space, values between double quotes just as
they stand in the tree, void elements with ` />` and all others with an end tag of their own.

* `Attributes.print`, `Node.print` and `Node.printAll`;
* `Node.merge` and `Node.mergeAll`, the tree in which neighbouring texts are one text;
* `printAll_mergeAll`: merging does not change what is written, and `apartAll_mergeAll`: it leaves
  no two texts side by side.
-/

set_option autoImplicit false

namespace Stencil

namespace Attributes

/-- An attribute as it is written: a flag by its name alone. -/
def printOne (name : Text) : AttributeValue → Text
  | .flag _ => .scalar ' ' :: name
  | .text content => (.scalar ' ' :: name) ++ ("=\"" : Text) ++ content ++ ("\"" : Text)

/-- Attributes one behind another. -/
def print (attributes : Attributes) : Text :=
  attributes.flatMap fun (name, value) => printOne name value

@[simp] theorem print_nil : print [] = [] := rfl

@[simp] theorem print_cons (name : Text) (value : AttributeValue) (rest : Attributes) :
    print ((name, value) :: rest) = printOne name value ++ print rest := rfl

@[simp] theorem print_append (first second : Attributes) :
    print (first ++ second) = print first ++ print second :=
  List.flatMap_append

end Attributes

namespace Tag

/-- What stands between the angle brackets of the start tag of an element. -/
def inside (tag : Tag) : Text :=
  tag.name ++ Attributes.print tag.attributes ++ if tag.isVoid then (" /" : Text) else []

end Tag

namespace Node

mutual

/-- A node as markup. -/
def print : Node → Text
  | .text content => content
  | .element tag children =>
    if tag.isVoid then .scalar '<' :: (tag.inside ++ (">" : Text))
    else .scalar '<' :: (tag.inside ++ (">" : Text)) ++ printAll children ++
      (("</" : Text) ++ tag.name ++ (">" : Text))

/-- Nodes as markup, one behind another. -/
def printAll : List Node → Text
  | [] => []
  | node :: rest => node.print ++ printAll rest

end

/-! ## Merging neighbouring texts -/

/-- A node in front of others; two texts that meet become one. -/
def meet : Node → List Node → List Node
  | .text content, .text next :: rest => .text (content ++ next) :: rest
  | node, rest => node :: rest

mutual

/-- A node with the texts below it merged. -/
def merge : Node → Node
  | .text content => .text content
  | .element tag children => .element tag (mergeAll children)

/-- Nodes with neighbouring texts merged, at every depth. -/
def mergeAll : List Node → List Node
  | [] => []
  | node :: rest => meet node.merge (mergeAll rest)

end

theorem printAll_meet (node : Node) (rest : List Node) :
    printAll (meet node rest) = node.print ++ printAll rest := by
  unfold meet
  split
  · simp only [printAll, print, List.append_assoc]
  · rfl

mutual

theorem print_merge : ∀ node : Node, node.merge.print = node.print
  | .text _ => rfl
  | .element _ children => by
    rw [merge, print, print, printAll_mergeAll children]

/-- Merging does not change what is written. -/
theorem printAll_mergeAll : ∀ nodes : List Node, printAll (mergeAll nodes) = printAll nodes
  | [] => rfl
  | node :: rest => by
    rw [mergeAll, printAll_meet, print_merge node, printAll_mergeAll rest, printAll]

end

/-- Whether a node is a text. -/
def isText : Node → Bool
  | .text _ => true
  | .element _ _ => false

mutual

/-- No two texts side by side below the node. -/
def Apart : Node → Prop
  | .text _ => True
  | .element _ children => ApartAll children

/-- No two texts side by side, at any depth. -/
def ApartAll : List Node → Prop
  | [] => True
  | node :: rest =>
    node.Apart ∧ (node.isText → ∀ next ∈ rest.head?, next.isText = false) ∧ ApartAll rest

end

theorem apartAll_meet {node : Node} {rest : List Node} (hnode : node.Apart)
    (hrest : ApartAll rest) : ApartAll (meet node rest) := by
  unfold meet
  split
  · next content next rest =>
    obtain ⟨-, hnext, hlast⟩ := hrest
    exact ⟨trivial, fun _ => hnext rfl, hlast⟩
  · next hne =>
    refine ⟨hnode, fun htext next hmem => ?_, hrest⟩
    cases node with
    | element tag children => cases htext
    | text content =>
      cases rest with
      | nil => cases hmem
      | cons head tail =>
        cases hmem
        cases next with
        | element tag children => rfl
        | text other => exact absurd rfl (hne content other tail rfl)

mutual

theorem apart_merge : ∀ node : Node, node.merge.Apart
  | .text _ => trivial
  | .element _ children => by
    rw [merge, Apart]
    exact apartAll_mergeAll children

/-- Merging leaves no two texts side by side. -/
theorem apartAll_mergeAll : ∀ nodes : List Node, ApartAll (mergeAll nodes)
  | [] => trivial
  | node :: rest => apartAll_meet (apart_merge node) (apartAll_mergeAll rest)

end

end Node

end Stencil
