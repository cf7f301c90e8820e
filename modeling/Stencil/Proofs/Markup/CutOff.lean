import Stencil.Proofs.Markup.DocumentOrder

/-!
# Tags that the end of the markup cuts off

A `<` with no `>` behind it adds nothing to the tree, wherever the markup in front of it ends: in a
text, inside an element, in a comment without an end mark or in another tag that is cut off
(`Node.parse_append_cutOff`).

The two markup texts are compared by their spans. All spans of the shorter one are still there in
front of the longer rest, only a last one that was cut off already goes on through what is added
(`Span.withCutOff`). That these are the spans of the longer markup follows from their being a
segmentation of it (`Span.segmentation_withCutOff`).
-/

set_option autoImplicit false

namespace Stencil

namespace Span

/-! ## What fits still fits -/

theorem commentFits_append {covered after behind : Text} (h : CommentFits covered after)
    (hbehind : .scalar '>' ∉ behind) : CommentFits covered (after ++ .scalar '<' :: behind) := by
  obtain ⟨inside, rest, hsplit, hinside, hmark, hends⟩ := h
  refine ⟨inside, rest ++ .scalar '<' :: behind, ?_, hinside, hmark, ?_⟩
  · rw [← List.append_assoc, hsplit]
    simp only [List.cons_append, List.append_assoc]
  rcases hends with ⟨lead, body, hlead, hcovered, hcut⟩ | ⟨hnone, hcovered⟩
  · refine Or.inl ⟨lead, body, hlead, hcovered, ?_⟩
    rw [← List.append_assoc]
    exact hcut.append _
  · refine Or.inr ⟨?_, hcovered⟩
    rw [← List.append_assoc, List.drop_append]
    intro hfound
    have hlacks : .scalar '>' ∉ (CodePoint.scalar '<' :: behind).drop
        (4 - (covered ++ after).length) := by
      intro hmem
      rcases List.mem_cons.1 (List.mem_of_mem_drop hmem) with hhead | htail
      · cases hhead
      · exact hbehind htail
    exact hnone (@Text.infix_of_infix_append "--" _ _ _ hlacks hfound)

/-- A span that is not cut off still fits when the markup goes on with a tag that is. -/
theorem fits_append {span : Span} {after behind : Text} (hfits : span.Fits after)
    (hwhole : ∀ covered, span ≠ cutOff covered) (hbehind : .scalar '>' ∉ behind) :
    span.Fits (after ++ .scalar '<' :: behind) := by
  cases span with
  | text content =>
    obtain ⟨hne, hnot, hafter⟩ := hfits
    refine ⟨hne, hnot, ?_⟩
    intro c hc
    cases after with
    | nil => exact (Option.some.inj hc).symm
    | cons d rest => exact hafter c hc
  | opening inside => exact hfits
  | closing inside => exact hfits
  | comment covered => exact commentFits_append hfits hbehind
  | cutOff covered => exact absurd rfl (hwhole covered)

/-! ## The spans of the longer markup -/

/-- The spans when the markup goes on with a tag that is cut off. -/
def withCutOff (behind : Text) : List Span → List Span
  | [] => [cutOff (.scalar '<' :: behind)]
  | [cutOff covered] => [cutOff (covered ++ .scalar '<' :: behind)]
  | span :: later => span :: withCutOff behind later

theorem sourceOf_withCutOff (behind : Text) (spans : List Span) :
    sourceOf (withCutOff behind spans) = sourceOf spans ++ .scalar '<' :: behind := by
  induction spans using withCutOff.induct with
  | case1 => simp only [withCutOff, sourceOf_cons, sourceOf_nil, source, List.append_nil,
      List.nil_append]
  | case2 covered => simp only [withCutOff, sourceOf_cons, sourceOf_nil, source, List.append_nil]
  | case3 span later hmore ih =>
    rw [withCutOff, sourceOf_cons, ih, sourceOf_cons, List.append_assoc]
    exact hmore

theorem eq_nil_of_sourceOf {spans : List Span} (h : Segmentation spans)
    (hsource : sourceOf spans = []) : spans = [] := by
  have hread := ofMarkup_sourceOf h
  rw [hsource, ofMarkup] at hread
  exact hread.symm

theorem segmentation_withCutOff {behind : Text} {spans : List Span} (h : Segmentation spans)
    (hbehind : .scalar '>' ∉ behind) : Segmentation (withCutOff behind spans) := by
  induction spans using withCutOff.induct with
  | case1 => exact ⟨⟨rfl, behind, rfl, hbehind⟩, trivial⟩
  | case2 covered =>
    obtain ⟨⟨-, rest, rfl, hrest⟩, -⟩ := h
    refine ⟨⟨rfl, rest ++ .scalar '<' :: behind, rfl, ?_⟩, trivial⟩
    simp [hrest, hbehind]
  | case3 span later hmore ih =>
    obtain ⟨hfits, hlater⟩ := h
    -- Nothing comes behind a tag that is cut off, so this span is none.
    have hwhole : ∀ covered, span ≠ cutOff covered := by
      rintro covered rfl
      exact hmore covered rfl (eq_nil_of_sourceOf hlater hfits.1)
    rw [withCutOff]
    · refine ⟨?_, ih hlater⟩
      rw [sourceOf_withCutOff]
      exact fits_append hfits hwhole hbehind
    · exact hmore

/-- Markup that goes on with a tag that is cut off keeps its spans. -/
theorem ofMarkup_append_cutOff (markup : Text) {behind : Text} (hbehind : .scalar '>' ∉ behind) :
    ofMarkup (markup ++ .scalar '<' :: behind) = withCutOff behind (ofMarkup markup) := by
  have hfits := segmentation_withCutOff (segmentation_ofMarkup markup) hbehind
  rw [← ofMarkup_sourceOf hfits, sourceOf_withCutOff, sourceOf_ofMarkup]

/-- A tag that is cut off does nothing to the tree. -/
theorem foldl_step_withCutOff (behind : Text) (spans : List Span) (assembly : Assembly) :
    (withCutOff behind spans).foldl Assembly.step assembly =
      spans.foldl Assembly.step assembly := by
  induction spans using withCutOff.induct generalizing assembly with
  | case1 => rfl
  | case2 covered => rfl
  | case3 span later hmore ih =>
    rw [withCutOff, List.foldl_cons, List.foldl_cons, ih]
    exact hmore

end Span

namespace Node

/-- **A tag that is cut off adds nothing.** The tree of a markup text is the tree of the longer one
that goes on with a `<` and no `>` behind it. -/
theorem parse_append_cutOff (markup : Text) {behind : Text} (hbehind : .scalar '>' ∉ behind) :
    parse (markup ++ .scalar '<' :: behind) = parse markup := by
  rw [parse, Span.ofMarkup_append_cutOff markup hbehind, ofSpans, Span.foldl_step_withCutOff]
  rfl

/-- Markup that ends in a comment without an end mark, behind which a text and the start of a tag
stand, inside an element that is still open. -/
theorem parse_append_cutOff_comment :
    let markup : Text := "<div>a<!-- b> c<p"
    let behind : Text := "i title=\"<--"
    .scalar '>' ∉ behind ∧
      parse (markup ++ .scalar '<' :: behind) = parse markup ∧
      visitsOf (parse (markup ++ .scalar '<' :: behind)) =
        [.element ⟨"div", []⟩, .text "a", .text " c"] := by
  intro markup behind
  have hbehind : .scalar '>' ∉ behind := by
    decide
  have hsame := parse_append_cutOff markup hbehind
  refine ⟨hbehind, hsame, ?_⟩
  rw [hsame]
  decide +kernel

end Node

end Stencil
