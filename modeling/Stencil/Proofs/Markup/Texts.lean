import Stencil.Proofs.Markup.ReadBack

/-!
# The texts of a tree

What a document says is its texts, one behind another in document order (`Node.textsOf`). A tree
that is written and read says the same again (`Node.flatten_textsOf_parse_printAll`), provided only
that no tag in it ends before its closing bracket: what the tags are read as, and so which element
is inside which, may change without any effect on the texts.
-/

set_option autoImplicit false

namespace Stencil

/-- The text that is met. -/
def Visit.text? : Visit → Option Text
  | text content => some content
  | element _ => none

namespace Node

/-- The texts of a tree, in document order. -/
def textsOf (nodes : List Node) : List Text :=
  (visitsOf nodes).filterMap Visit.text?

@[simp] theorem textsOf_nil : textsOf [] = [] := rfl

@[simp] theorem textsOf_text_cons (content : Text) (rest : List Node) :
    textsOf (.text content :: rest) = content :: textsOf rest := rfl

@[simp] theorem textsOf_element_cons (tag : Tag) (children rest : List Node) :
    textsOf (.element tag children :: rest) = textsOf children ++ textsOf rest := by
  rw [textsOf, visitsOf_cons, visits, List.filterMap_append, textsOf, textsOf]
  rfl

theorem textsOf_append (first second : List Node) :
    textsOf (first ++ second) = textsOf first ++ textsOf second := by
  rw [textsOf, visitsOf_append, List.filterMap_append, textsOf, textsOf]

/-! ## Merging -/

theorem flatten_textsOf_meet (node : Node) (rest : List Node) :
    (textsOf (meet node rest)).flatten = (textsOf (node :: rest)).flatten := by
  unfold meet
  split
  · simp only [textsOf_text_cons, List.flatten_cons, List.append_assoc]
  · rfl

mutual

theorem flatten_textsOf_merge_cons (node : Node) (rest : List Node) :
    (textsOf (node.merge :: rest)).flatten = (textsOf (node :: rest)).flatten := by
  cases node with
  | text content => rfl
  | element tag children =>
    rw [merge, textsOf_element_cons, textsOf_element_cons, List.flatten_append,
      List.flatten_append, flatten_textsOf_mergeAll children]

/-- Merging moves the borders between texts, and no more. -/
theorem flatten_textsOf_mergeAll (nodes : List Node) :
    (textsOf (mergeAll nodes)).flatten = (textsOf nodes).flatten := by
  cases nodes with
  | nil => rfl
  | cons node rest =>
    have hrest := flatten_textsOf_mergeAll rest
    rw [mergeAll, flatten_textsOf_meet, flatten_textsOf_merge_cons]
    cases node with
    | text content =>
      rw [textsOf_text_cons, textsOf_text_cons, List.flatten_cons, List.flatten_cons, hrest]
    | element tag children =>
      rw [textsOf_element_cons, textsOf_element_cons, List.flatten_append, List.flatten_append,
        hrest]

end

/-! ## Writing and reading -/

/-- The texts of a tree that is put together from spans are those of the spans. -/
theorem textsOf_ofSpans (spans : List Span) :
    textsOf (ofSpans spans) = (spans.filterMap Span.visit?).filterMap Visit.text? := by
  rw [textsOf, visitsOf_ofSpans]

mutual

theorem texts_spans {fine : Tag → Prop} : ∀ (node : Node) (later : List Span), node.Legible fine →
    ((node.spans ++ later).filterMap Span.visit?).filterMap Visit.text? =
      textsOf [node] ++ (later.filterMap Span.visit?).filterMap Visit.text?
  | .text content, later, _ => rfl
  | .element tag children, later, h => by
    rw [spans, textsOf_element_cons, textsOf_nil, List.append_nil]
    by_cases hvoid : tag.isVoid = true
    · -- A void element is written without children, and has none.
      rw [if_pos hvoid, h.2.1 hvoid]
      rfl
    · rw [if_neg hvoid, List.cons_append, List.append_assoc]
      exact texts_spansOf children _ h.2.2

/-- The texts of the spans that a tree is written as are its own. -/
theorem texts_spansOf {fine : Tag → Prop} : ∀ (nodes : List Node) (later : List Span),
    LegibleAll fine nodes →
    ((spansOf nodes ++ later).filterMap Span.visit?).filterMap Visit.text? =
      textsOf nodes ++ (later.filterMap Span.visit?).filterMap Visit.text?
  | [], _, _ => rfl
  | node :: rest, later, h => by
    have hcons : textsOf (node :: rest) = textsOf [node] ++ textsOf rest :=
      textsOf_append [node] rest
    rw [spansOf, List.append_assoc, texts_spans node _ h.1, texts_spansOf rest later h.2, hcons,
      List.append_assoc]

end

/-- **A tree that is written and read says the same**, if none of its tags ends too early. -/
theorem flatten_textsOf_parse_printAll {nodes : List Node}
    (h : LegibleAll Tag.IsBracketed nodes) :
    (textsOf (parse (printAll nodes))).flatten = (textsOf nodes).flatten := by
  have hmerged := legibleAll_mergeAll nodes h
  have htexts := texts_spansOf (mergeAll nodes) [] hmerged
  rw [List.append_nil] at htexts
  rw [parse, ← printAll_mergeAll nodes,
    ofMarkup_printAll_of_apart hmerged (apartAll_mergeAll nodes), textsOf_ofSpans, htexts]
  simp only [List.filterMap_nil, List.append_nil]
  exact flatten_textsOf_mergeAll nodes

end Node

end Stencil
