import Stencil.Proofs.Markup.Segmentation

/-!
# Document order

A walk over a tree meets each text and each start tag once, a parent before its children. In the
tree of a markup text these are the text spans and the start tags of the markup, one for one and in
the same order (`Node.visitsOf_parse`). While the tree is put together the same holds of all that
has been read so far (`Assembly.visits_step`): a span adds its own visit at the end, and closing
elements changes no order.
-/

set_option autoImplicit false

namespace Stencil

/-- What a walk over a tree meets. -/
inductive Visit where
  | text (content : Text)
  | element (tag : Tag)
  deriving DecidableEq, Repr

namespace Visit

/-- The tag of an element that is met. -/
def tag? : Visit → Option Tag
  | text _ => none
  | element tag => some tag

end Visit

namespace Node

mutual

/-- What a walk over a node meets, the node before all that is below it. -/
def visits : Node → List Visit
  | .text content => [.text content]
  | .element tag children => .element tag :: visitsOf children

/-- What a walk over neighbouring nodes meets. -/
def visitsOf : List Node → List Visit
  | [] => []
  | node :: rest => node.visits ++ visitsOf rest

end

@[simp] theorem visitsOf_nil : visitsOf [] = [] := rfl

theorem visitsOf_cons (node : Node) (rest : List Node) :
    visitsOf (node :: rest) = node.visits ++ visitsOf rest := rfl

@[simp] theorem visitsOf_append (first second : List Node) :
    visitsOf (first ++ second) = visitsOf first ++ visitsOf second := by
  induction first with
  | nil => rfl
  | cons node rest ih => rw [List.cons_append, visitsOf_cons, ih, visitsOf_cons, List.append_assoc]

theorem visitsOf_singleton (node : Node) : visitsOf [node] = node.visits := by
  rw [visitsOf_cons, visitsOf_nil, List.append_nil]

mutual

theorem tags_eq_filterMap : ∀ node : Node, node.tags = node.visits.filterMap Visit.tag?
  | .text _ => rfl
  | .element tag children => by
    rw [tags, visits, tagsOf_eq_filterMap children]
    rfl

/-- The tags of a tree are those that a walk over it meets. -/
theorem tagsOf_eq_filterMap :
    ∀ nodes : List Node, tagsOf nodes = (visitsOf nodes).filterMap Visit.tag?
  | [] => rfl
  | node :: rest => by
    rw [tagsOf, visitsOf, List.filterMap_append, tags_eq_filterMap node, tagsOf_eq_filterMap rest]

end

end Node

namespace Span

/-- What a span becomes in the tree: texts and start tags become nodes, the others nothing. -/
def visit? : Span → Option Visit
  | text content => some (.text content)
  | opening inside => some (.element (Tag.read inside))
  | closing _ => none
  | comment _ => none
  | cutOff _ => none

end Span

namespace Assembly

/-- What a walk over open elements meets before the innermost one's children. -/
def openVisits : List OpenElement → List Visit
  | [] => []
  | element :: outer =>
    openVisits outer ++ (Node.visitsOf element.earlier ++ [.element element.tag])

/-- What a walk over the tree so far meets. -/
def visits (assembly : Assembly) : List Visit :=
  openVisits assembly.opened ++ Node.visitsOf assembly.nodes

theorem visitsOf_close (element : OpenElement) (nodes : List Node) :
    Node.visitsOf (element.close nodes) =
      Node.visitsOf element.earlier ++ [.element element.tag] ++ Node.visitsOf nodes := by
  rw [OpenElement.close, Node.visitsOf_append, Node.visitsOf_singleton, Node.visits,
    List.append_assoc, List.singleton_append]

theorem visits_closeThrough (name : Text) (opened : List OpenElement) (nodes : List Node) :
    (closeThrough name opened nodes).visits = openVisits opened ++ Node.visitsOf nodes := by
  induction opened generalizing nodes with
  | nil => rfl
  | cons element outer ih =>
    -- A closed element goes from the end of the open ones to the start of the nodes.
    have hclose : openVisits outer ++ Node.visitsOf (element.close nodes) =
        openVisits (element :: outer) ++ Node.visitsOf nodes := by
      simp only [visitsOf_close, openVisits, List.append_assoc]
    rw [closeThrough]
    by_cases hname : element.tag.name = name
    · rw [if_pos hname, ← hclose]
      rfl
    · rw [if_neg hname, ih, hclose]

theorem visits_closeNamed (assembly : Assembly) (name : Text) :
    (assembly.closeNamed name).visits = assembly.visits := by
  unfold closeNamed
  split
  · exact visits_closeThrough name assembly.opened assembly.nodes
  · rfl

theorem visits_add (assembly : Assembly) (node : Node) :
    (assembly.add node).visits = assembly.visits ++ node.visits := by
  rw [visits, visits, add, Node.visitsOf_append, Node.visitsOf_singleton, List.append_assoc]

theorem visits_openElement (assembly : Assembly) (tag : Tag) :
    (assembly.openElement tag).visits = assembly.visits ++ [.element tag] := by
  rw [visits, visits, openElement, openVisits, Node.visitsOf_nil, List.append_nil,
    List.append_assoc]

/-- A span adds its own visit behind all that were there. -/
theorem visits_step (assembly : Assembly) (span : Span) :
    (assembly.step span).visits = assembly.visits ++ span.visit?.toList := by
  cases span with
  | text content => exact visits_add assembly (.text content)
  | opening inside =>
    rw [step]
    split
    · exact visits_add assembly (.element (Tag.read inside) [])
    · exact visits_openElement assembly (Tag.read inside)
  | closing inside => exact (visits_closeNamed assembly _).trans (List.append_nil _).symm
  | comment covered => exact (List.append_nil _).symm
  | cutOff covered => exact (List.append_nil _).symm

/-- A run over spans adds their visits in order. -/
theorem visits_foldl (spans : List Span) (assembly : Assembly) :
    (spans.foldl step assembly).visits = assembly.visits ++ spans.filterMap Span.visit? := by
  induction spans generalizing assembly with
  | nil => exact (List.append_nil _).symm
  | cons span later ih =>
    rw [List.foldl_cons, ih, visits_step, List.append_assoc, List.filterMap_cons]
    cases span.visit? <;> rfl

theorem visitsOf_finish (assembly : Assembly) :
    Node.visitsOf assembly.finish = assembly.visits := by
  obtain ⟨opened, nodes⟩ := assembly
  induction opened generalizing nodes with
  | nil => rfl
  | cons element outer ih =>
    have houter := ih (element.close nodes)
    rw [finish, List.foldl_cons]
    rw [finish] at houter
    simp only [houter, visits, visitsOf_close, openVisits, List.append_assoc]

end Assembly

namespace Tag

/-- The name of a start tag is the first word of its inside, without a slash at its end, in lower
case. -/
theorem read_name (inside : Text) :
    (read inside).name =
      Text.lower (Text.withoutEnding ((Text.words inside).headD []) "/") := by
  rw [Text.headD_words, ← Text.firstWord_trim]
  rfl

end Tag

namespace Node

theorem visitsOf_ofSpans (spans : List Span) :
    visitsOf (ofSpans spans) = spans.filterMap Span.visit? := by
  rw [ofSpans, Assembly.visitsOf_finish, Assembly.visits_foldl]
  rfl

/-- **Nothing of the markup is lost, doubled or moved.** Every markup text falls, in exactly one
way, into consecutive spans each of which fits in front of the later ones. A walk over its tree
meets, in order, the text spans as they stand and the start tags, each named by its first word; and
the elements of the tree are the start tags. -/
theorem visitsOf_parse (markup : Text) :
    ∃ spans : List Span,
      Span.sourceOf spans = markup ∧ Span.Segmentation spans ∧
      (∀ others : List Span,
        Span.sourceOf others = markup → Span.Segmentation others → others = spans) ∧
      visitsOf (parse markup) = spans.filterMap Span.visit? ∧
      tagsOf (parse markup) = (spans.filterMap Span.visit?).filterMap Visit.tag? ∧
      ∀ inside : Text, (Tag.read inside).name =
        Text.lower (Text.withoutEnding ((Text.words inside).headD []) "/") := by
  refine ⟨Span.ofMarkup markup, Span.sourceOf_ofMarkup markup, Span.segmentation_ofMarkup markup,
    ?_, visitsOf_ofSpans _, ?_, Tag.read_name⟩
  · rintro others rfl hfits
    exact (Span.ofMarkup_sourceOf hfits).symm
  · rw [tagsOf_eq_filterMap, parse, visitsOf_ofSpans]

end Node

end Stencil
