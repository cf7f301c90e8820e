import Stencil.Markup.Tree
import Stencil.Proofs.Text.Blank
import Stencil.Proofs.Text.Find

/-!
# Spans cover the markup

Which span may stand at a place of the markup depends on the span itself and on what follows it
(`Span.Fits`). A list of spans is a segmentation when each of them fits in front of the markup that
the later ones cover. Every markup text has exactly one: `Span.segmentation_ofMarkup` says that the
spans that are read are a segmentation, `Span.sourceOf_ofMarkup` that they cover the markup, and
`Span.ofMarkup_sourceOf` that any other segmentation is the same.
-/

set_option autoImplicit false

namespace Stencil

namespace Span

/-- The markup that consecutive spans cover. -/
def sourceOf (spans : List Span) : Text :=
  spans.flatMap source

/-- Whether `covered` is a comment in front of `after`: up to its first `>` it reads, blanks put
aside, as the start of a comment. It ends with the first `-->` that begins at least four code points
into it, or with that first `>` when there is none. -/
def CommentFits (covered after : Text) : Prop :=
  ∃ inside rest : Text,
    covered ++ after = .scalar '<' :: (inside ++ .scalar '>' :: rest) ∧
    .scalar '>' ∉ inside ∧ ("!--" : Text) <+: Text.trim inside ∧
    ((∃ lead body : Text, lead.length = 4 ∧ covered = lead ++ body ++ ("-->" : Text) ∧
        Text.CutAtFirst "-->" (body ++ ("-->" : Text) ++ after) body after) ∨
      (¬ ("-->" : Text) <:+: (covered ++ after).drop 4 ∧ covered = bracketed inside))

/-- Whether a span may stand in front of `after`. A text runs up to the next `<`; a tag up to its
first `>`, and its inside says, blanks put aside, which kind of tag it is; a tag that is cut off has
no `>` behind it. -/
def Fits : Span → Text → Prop
  | text content, after =>
    content ≠ [] ∧ .scalar '<' ∉ content ∧ ∀ c ∈ after.head?, c = .scalar '<'
  | opening inside, _ =>
    .scalar '>' ∉ inside ∧ ¬ ("!--" : Text) <+: Text.trim inside ∧
      ¬ ("/" : Text) <+: Text.trim inside
  | closing inside, _ => .scalar '>' ∉ inside ∧ ("/" : Text) <+: Text.trim inside
  | comment covered, after => CommentFits covered after
  | cutOff covered, after =>
    after = [] ∧ ∃ behind : Text, covered = .scalar '<' :: behind ∧ .scalar '>' ∉ behind

/-- Every span fits in front of what the later ones cover. -/
def Segmentation : List Span → Prop
  | [] => True
  | span :: later => span.Fits (sourceOf later) ∧ Segmentation later

@[simp] theorem sourceOf_nil : sourceOf [] = [] := rfl

@[simp] theorem sourceOf_cons (span : Span) (later : List Span) :
    sourceOf (span :: later) = span.source ++ sourceOf later := rfl

@[simp] theorem sourceOf_append (first second : List Span) :
    sourceOf (first ++ second) = sourceOf first ++ sourceOf second :=
  List.flatMap_append

theorem exists_fits_of_mem {spans : List Span} {span : Span} (h : Segmentation spans)
    (hmem : span ∈ spans) : ∃ after, span.Fits after := by
  induction spans with
  | nil => cases hmem
  | cons first later ih =>
    rcases List.mem_cons.1 hmem with rfl | hlater
    · exact ⟨sourceOf later, h.1⟩
    · exact ih h.2 hlater

/-! ## What is read fits -/

theorem fits_readComment {behind inside after : Text}
    (hbehind : behind = inside ++ .scalar '>' :: after) (hinside : .scalar '>' ∉ inside)
    (hmark : ("!--" : Text) <+: Text.trim inside) :
    (readComment behind inside after).1.Fits (readComment behind inside after).2 ∧
      (readComment behind inside after).1.source ++ (readComment behind inside after).2 =
        .scalar '<' :: behind := by
  unfold readComment
  split
  · next body rest hfind =>
    have hcut := Text.find?_eq_some_iff.1 hfind
    -- Something was found behind the first three code points, so there are three.
    have hlength : (behind.take 3).length = 3 := by
      have hdrop := congrArg List.length hcut.1
      simp [Text.ofString] at hdrop
      rw [List.length_take]
      omega
    have hsource : (.scalar '<' :: (behind.take 3 ++ body ++ ("-->" : Text))) ++ rest =
        .scalar '<' :: behind := by
      conv => rhs; rw [← List.take_append_drop 3 behind, hcut.1]
      simp only [List.cons_append, List.append_assoc]
    refine ⟨⟨inside, after, by rw [hsource, hbehind], hinside, hmark, Or.inl ?_⟩, hsource⟩
    refine ⟨.scalar '<' :: behind.take 3, body, ?_, ?_, ?_⟩
    · rw [List.length_cons, hlength]
    · simp only [List.cons_append]
    · rw [← hcut.1]
      exact hcut
  · next hfind =>
    -- Without an end mark the comment is no longer than a tag.
    have hnone := Text.find?_eq_none_iff.1 hfind
    have hsource : bracketed inside ++ after = .scalar '<' :: behind := by
      rw [hbehind, bracketed]
      simp only [List.cons_append, List.append_assoc, List.nil_append]
    refine ⟨⟨inside, after, by rw [hsource, hbehind], hinside, hmark, Or.inr ⟨?_, rfl⟩⟩, hsource⟩
    rw [hsource]
    exact hnone

theorem fits_readTag (behind : Text) :
    (readTag behind).1.Fits (readTag behind).2 ∧
      (readTag behind).1.source ++ (readTag behind).2 = .scalar '<' :: behind := by
  unfold readTag
  split
  · next hdrop =>
    -- No `>` is left, so the rest of the markup is cut off.
    exact ⟨⟨rfl, behind, rfl, Text.dropWhile_ne_eq_nil_iff.1 hdrop⟩, List.append_nil _⟩
  · next c after hdrop =>
    obtain ⟨-, hbehind⟩ := Text.eq_of_dropWhile_ne hdrop
    have hinside := Text.not_mem_takeWhile_ne (.scalar '>') behind
    have hsource : bracketed (behind.takeWhile (· ≠ .scalar '>')) ++ after =
        .scalar '<' :: behind := by
      conv => rhs; rw [hbehind]
      simp only [bracketed, List.cons_append, List.append_assoc, List.nil_append]
    dsimp only
    split
    · next hmark => exact fits_readComment hbehind hinside (Text.startsWith_iff.1 hmark)
    · next hmark =>
      split
      · next hslash => exact ⟨⟨hinside, Text.startsWith_iff.1 hslash⟩, hsource⟩
      · next hslash =>
        refine ⟨⟨hinside, ?_, ?_⟩, hsource⟩
        · exact fun h => hmark (Text.startsWith_iff.2 h)
        · exact fun h => hslash (Text.startsWith_iff.2 h)

/-- The span that is read first fits in front of the rest, and both together are the markup. -/
theorem fits_next (c : CodePoint) (rest : Text) :
    (next c rest).1.Fits (next c rest).2 ∧
      (next c rest).1.source ++ (next c rest).2 = c :: rest := by
  unfold next
  split
  · next hc =>
    subst hc
    exact fits_readTag rest
  · next hc =>
    refine ⟨⟨List.cons_ne_nil _ _, ?_, ?_⟩, ?_⟩
    · rw [List.mem_cons]
      rintro (h | h)
      · exact hc h.symm
      · exact Text.not_mem_takeWhile_ne (.scalar '<') rest h
    · intro d hd
      have hstop : decide (d ≠ .scalar '<') = false :=
        Text.not_of_mem_head?_dropWhile (p := (· ≠ .scalar '<')) d hd
      simpa using hstop
    · rw [source, List.cons_append, List.takeWhile_append_dropWhile]

/-- The spans that are read cover the markup. -/
theorem sourceOf_ofMarkup (markup : Text) : sourceOf (ofMarkup markup) = markup := by
  induction markup using ofMarkup.induct with
  | case1 => rw [ofMarkup, sourceOf_nil]
  | case2 c rest ih => rw [ofMarkup, sourceOf_cons, ih, (fits_next c rest).2]

/-- Each span that is read fits in front of the later ones. -/
theorem segmentation_ofMarkup (markup : Text) : Segmentation (ofMarkup markup) := by
  induction markup using ofMarkup.induct with
  | case1 =>
    rw [ofMarkup]
    trivial
  | case2 c rest ih =>
    rw [ofMarkup]
    refine ⟨?_, ih⟩
    rw [sourceOf_ofMarkup]
    exact (fits_next c rest).1

/-! ## What fits is read -/

theorem readComment_of_fits {covered after behind inside rest : Text}
    (hwhole : covered ++ after = .scalar '<' :: behind)
    (hbehind : behind = inside ++ .scalar '>' :: rest)
    (hends : (∃ lead body : Text, lead.length = 4 ∧ covered = lead ++ body ++ ("-->" : Text) ∧
        Text.CutAtFirst "-->" (body ++ ("-->" : Text) ++ after) body after) ∨
      (¬ ("-->" : Text) <:+: (covered ++ after).drop 4 ∧ covered = bracketed inside)) :
    readComment behind inside rest = (comment covered, after) := by
  rcases hends with ⟨lead, body, hlead, hcovered, hcut⟩ | ⟨hnone, hcovered⟩
  · have hsplit : lead ++ (body ++ ("-->" : Text) ++ after) = .scalar '<' :: behind := by
      rw [← hwhole, hcovered]
      simp only [List.append_assoc]
    have hdrop : (CodePoint.scalar '<' :: behind).drop 4 = body ++ ("-->" : Text) ++ after := by
      rw [← hsplit, List.drop_left' hlead]
    have htake : (CodePoint.scalar '<' :: behind).take 4 = lead := by
      rw [← hsplit, List.take_left' hlead]
    rw [List.drop_succ_cons] at hdrop
    rw [List.take_succ_cons] at htake
    rw [readComment, hdrop, Text.find?_eq_some_iff.2 hcut]
    dsimp only
    rw [hcovered, ← htake]
    rfl
  · have hdrop : ¬ ("-->" : Text) <:+: behind.drop 3 := by
      rw [hwhole] at hnone
      exact hnone
    -- Both sides start with the bracketed inside, so what stands behind it is the same.
    have hafter : after = rest := by
      rw [hcovered, bracketed, List.cons_append, List.cons.injEq, hbehind] at hwhole
      have hrest := hwhole.2
      rw [List.append_assoc] at hrest
      have htail := List.append_cancel_left hrest
      exact (List.cons.inj htail).2
    rw [readComment, Text.find?_eq_none_iff.2 hdrop, hcovered, hafter]

theorem readTag_of_inside {inside rest : Text} (hinside : .scalar '>' ∉ inside) :
    readTag (inside ++ .scalar '>' :: rest) =
      if Text.startsWith (Text.trim inside) "!--" then
        readComment (inside ++ .scalar '>' :: rest) inside rest
      else if Text.startsWith (Text.trim inside) "/" then (closing inside, rest)
      else (opening inside, rest) := by
  rw [readTag, Text.takeWhile_ne_append hinside, Text.dropWhile_ne_append hinside]

theorem bracketed_append (inside after : Text) :
    bracketed inside ++ after = .scalar '<' :: (inside ++ .scalar '>' :: after) := by
  rw [bracketed, List.cons_append, List.append_assoc]
  rfl

/-- No tag can be read both as a comment and as an end tag. -/
theorem not_mark_of_slash {text : Text} (hslash : ("/" : Text) <+: text) :
    ¬ ("!--" : Text) <+: text := by
  rintro ⟨rest, hmark⟩
  obtain ⟨rest', hslash⟩ := hslash
  rw [← hmark] at hslash
  cases hslash

theorem readTag_of_fits {span : Span} {after behind : Text} (hfits : span.Fits after)
    (hwhole : span.source ++ after = .scalar '<' :: behind) : readTag behind = (span, after) := by
  cases span with
  | text content =>
    -- A text does not start with `<`.
    obtain ⟨hne, hnot, -⟩ := hfits
    cases content with
    | nil => exact absurd rfl hne
    | cons c rest =>
      rw [source, List.cons_append, List.cons.injEq] at hwhole
      exact absurd (hwhole.1 ▸ List.mem_cons_self) hnot
  | opening inside =>
    obtain ⟨hinside, hmark, hslash⟩ := hfits
    rw [source, bracketed_append, List.cons.injEq] at hwhole
    rw [← hwhole.2, readTag_of_inside hinside, if_neg (fun h => hmark (Text.startsWith_iff.1 h)),
      if_neg (fun h => hslash (Text.startsWith_iff.1 h))]
  | closing inside =>
    obtain ⟨hinside, hslash⟩ := hfits
    rw [source, bracketed_append, List.cons.injEq] at hwhole
    rw [← hwhole.2, readTag_of_inside hinside,
      if_neg (fun h => not_mark_of_slash hslash (Text.startsWith_iff.1 h)),
      if_pos (Text.startsWith_iff.2 hslash)]
  | comment covered =>
    obtain ⟨inside, rest, hsplit, hinside, hmark, hends⟩ := hfits
    rw [source] at hwhole
    have hbehind : behind = inside ++ .scalar '>' :: rest := by
      rw [hwhole, List.cons.injEq] at hsplit
      exact hsplit.2
    have hread := readComment_of_fits hwhole hbehind hends
    rw [hbehind, readTag_of_inside hinside, if_pos (Text.startsWith_iff.2 hmark), ← hbehind, hread]
  | cutOff covered =>
    obtain ⟨rfl, rest, rfl, hrest⟩ := hfits
    rw [source, List.append_nil, List.cons.injEq] at hwhole
    rw [← hwhole.2, readTag, Text.dropWhile_ne_eq_nil_iff.2 hrest]

theorem next_of_fits {span : Span} {after rest : Text} {c : CodePoint} (hfits : span.Fits after)
    (hwhole : span.source ++ after = c :: rest) : next c rest = (span, after) := by
  by_cases hc : c = .scalar '<'
  · subst hc
    rw [next, if_pos rfl, readTag_of_fits hfits hwhole]
  -- Only a text starts with anything else.
  cases span with
  | text content =>
    obtain ⟨hne, hnot, hafter⟩ := hfits
    cases content with
    | nil => exact absurd rfl hne
    | cons d tail =>
      rw [source, List.cons_append, List.cons.injEq] at hwhole
      obtain ⟨rfl, rfl⟩ := hwhole
      have htail : ∀ e ∈ tail, decide (e ≠ .scalar '<') = true := by
        intro e he
        exact decide_eq_true fun hsame => hnot (hsame ▸ List.mem_cons_of_mem _ he)
      have hstop : ∀ e ∈ after.head?, decide (e ≠ .scalar '<') = false := by
        intro e he
        simp [hafter e he]
      rw [next, if_neg hc, Text.takeWhile_append_of_stop htail hstop,
        Text.dropWhile_append_of_stop htail hstop]
  | opening inside => exact absurd (List.cons.inj hwhole).1.symm hc
  | closing inside => exact absurd (List.cons.inj hwhole).1.symm hc
  | comment covered =>
    obtain ⟨inside, behind, hsplit, -⟩ := hfits
    rw [source, hsplit] at hwhole
    exact absurd (List.cons.inj hwhole).1.symm hc
  | cutOff covered =>
    obtain ⟨-, behind, rfl, -⟩ := hfits
    exact absurd (List.cons.inj hwhole).1.symm hc

theorem source_ne_nil_of_fits {span : Span} {after : Text} (hfits : span.Fits after) :
    span.source ++ after ≠ [] := by
  cases span with
  | text content => exact fun h => hfits.1 (List.append_eq_nil_iff.1 h).1
  | opening inside => exact List.cons_ne_nil _ _
  | closing inside => exact List.cons_ne_nil _ _
  | comment covered =>
    obtain ⟨inside, behind, hsplit, -⟩ := hfits
    rw [source, hsplit]
    exact List.cons_ne_nil _ _
  | cutOff covered =>
    obtain ⟨-, behind, rfl, -⟩ := hfits
    exact List.cons_ne_nil _ _

/-- A markup text has no other segmentation than the one that is read. -/
theorem ofMarkup_sourceOf {spans : List Span} (h : Segmentation spans) :
    ofMarkup (sourceOf spans) = spans := by
  induction spans with
  | nil => rw [sourceOf_nil, ofMarkup]
  | cons span later ih =>
    obtain ⟨hfits, hlater⟩ := h
    cases hwhole : span.source ++ sourceOf later with
    | nil => exact absurd hwhole (source_ne_nil_of_fits hfits)
    | cons c rest => rw [sourceOf_cons, hwhole, ofMarkup, next_of_fits hfits hwhole, ih hlater]

end Span

end Stencil
