import Stencil.Proofs.Markup.DocumentOrder
import Stencil.Proofs.Markup.Mention
import Stencil.Proofs.Text.Lower

/-!
# What a parsed tree may hold

Whatever the markup, the tree that is read from it is legible (`Node.legibleAll_parse`): its texts
are not empty and hold no `<`; its names are lower case, free of blanks and of `>`, and start
neither as an end tag nor as a comment does; void elements have no children; and attributes have
distinct names made of name characters, with values that hold no `>` and not both kinds of quotes.
Code points that the markup lacks stand nowhere in its tree (`Node.avoids_of_mem_visitsOf_parse`).

The invariant is carried along the spans: each open element has a legible tag that is not void
(`Assembly.legible_step`).
-/

set_option autoImplicit false

namespace Stencil

/-- A value as reading gives it: without `>`, and without one of the two quotes. -/
def Text.IsRead (value : Text) : Prop :=
  .scalar '>' ∉ value ∧ ¬ ((.scalar '"') ∈ value ∧ (.scalar '\'') ∈ value)

/-- A start tag whose name and attributes stay what they are when it is written and read, given what
its values may be. A tag without a name has no attributes. -/
structure Tag.Legible (good : Text → Prop) (tag : Tag) : Prop where
  no_blank : ∀ c ∈ tag.name, c.isBlank = false
  no_bracket : .scalar '>' ∉ tag.name
  not_slash : ¬ ("/" : Text) <+: tag.name
  not_mark : ¬ ("!--" : Text) <+: tag.name
  lower_name : Text.lower tag.name = tag.name
  nameless : tag.name = [] → tag.attributes = []
  attributes : Attributes.Legible good tag.attributes

/-- A start tag as reading gives it. -/
def Tag.IsRead (tag : Tag) : Prop :=
  tag.Legible Text.IsRead

namespace Node

mutual

/-- A legible node, given what its tags may be: a text that is not empty and holds no `<`, or an
element with legible children, of which a void element has none. -/
def Legible (fine : Tag → Prop) : Node → Prop
  | .text content => content ≠ [] ∧ .scalar '<' ∉ content
  | .element tag children =>
    fine tag ∧ (tag.isVoid = true → children = []) ∧ LegibleAll fine children

/-- Legible nodes, one behind another. -/
def LegibleAll (fine : Tag → Prop) : List Node → Prop
  | [] => True
  | node :: rest => node.Legible fine ∧ LegibleAll fine rest

end

theorem legibleAll_append {fine : Tag → Prop} {first second : List Node} :
    LegibleAll fine (first ++ second) ↔ LegibleAll fine first ∧ LegibleAll fine second := by
  induction first with
  | nil => simp [LegibleAll]
  | cons node rest ih => rw [List.cons_append, LegibleAll, LegibleAll, ih, and_assoc]

theorem legibleAll_singleton {fine : Tag → Prop} {node : Node} :
    LegibleAll fine [node] ↔ node.Legible fine := by
  simp [LegibleAll]

mutual

theorem legible_mono {first second : Tag → Prop} : ∀ node : Node, node.Legible first →
    (∀ tag, first tag → second tag) → node.Legible second
  | .text _, h, _ => h
  | .element _ children, h, himp =>
    ⟨himp _ h.1, h.2.1, legibleAll_mono children h.2.2 himp⟩

theorem legibleAll_mono {first second : Tag → Prop} : ∀ nodes : List Node,
    LegibleAll first nodes → (∀ tag, first tag → second tag) → LegibleAll second nodes
  | [], _, _ => trivial
  | node :: rest, h, himp => ⟨legible_mono node h.1 himp, legibleAll_mono rest h.2 himp⟩

end

mutual

theorem legible_and {fine also : Tag → Prop} : ∀ node : Node, node.Legible fine →
    (∀ tag ∈ node.tags, also tag) → node.Legible fun tag => fine tag ∧ also tag
  | .text _, h, _ => h
  | .element tag children, h, htags => by
    rw [tags] at htags
    have hchildren := legibleAll_and children h.2.2
      fun other hother => htags other (List.mem_cons_of_mem tag hother)
    exact ⟨⟨h.1, htags tag List.mem_cons_self⟩, h.2.1, hchildren⟩

/-- What holds of every tag of a tree can be added to what its tags may be. -/
theorem legibleAll_and {fine also : Tag → Prop} : ∀ nodes : List Node, LegibleAll fine nodes →
    (∀ tag ∈ tagsOf nodes, also tag) → LegibleAll (fun tag => fine tag ∧ also tag) nodes
  | [], _, _ => trivial
  | node :: rest, h, htags => by
    rw [tagsOf] at htags
    exact ⟨legible_and node h.1 fun tag htag => htags tag (List.mem_append_left _ htag),
      legibleAll_and rest h.2 fun tag htag => htags tag (List.mem_append_right _ htag)⟩

end

end Node

/-- What a walk over a legible tree may meet. -/
def Visit.Legible (fine : Tag → Prop) : Visit → Prop
  | text content => content ≠ [] ∧ .scalar '<' ∉ content
  | element tag => fine tag

namespace Node

mutual

theorem legible_of_mem_visits {fine : Tag → Prop} {visit : Visit} :
    ∀ node : Node, node.Legible fine → visit ∈ node.visits → visit.Legible fine
  | .text _, h, hvisit => by
    rw [List.mem_singleton.1 hvisit]
    exact h
  | .element tag children, h, hvisit => by
    rcases List.mem_cons.1 hvisit with rfl | hchild
    · exact h.1
    · exact legible_of_mem_visitsOf children h.2.2 hchild

/-- A walk over a legible tree meets only what may be in one. -/
theorem legible_of_mem_visitsOf {fine : Tag → Prop} {visit : Visit} :
    ∀ nodes : List Node, LegibleAll fine nodes → visit ∈ visitsOf nodes → visit.Legible fine
  | [], _, hvisit => absurd hvisit List.not_mem_nil
  | node :: rest, h, hvisit => by
    rcases List.mem_append.1 hvisit with hnode | hrest
    · exact legible_of_mem_visits node h.1 hnode
    · exact legible_of_mem_visitsOf rest h.2 hrest

end

theorem fine_of_mem_tagsOf {fine : Tag → Prop} {nodes : List Node} {tag : Tag}
    (h : LegibleAll fine nodes) (htag : tag ∈ tagsOf nodes) : fine tag := by
  rw [tagsOf_eq_filterMap] at htag
  obtain ⟨visit, hvisit, hsome⟩ := List.mem_filterMap.1 htag
  cases visit with
  | text content => cases hsome
  | element other =>
    cases hsome
    exact legible_of_mem_visitsOf nodes h hvisit

end Node

/-! ## Start tags -/

namespace Tag

/-- The first word of a trimmed text is a part of its start. -/
theorem firstWord_trim_starts (inside : Text) :
    Text.firstWord (Text.trim inside) <+: Text.trim inside := by
  have hstart : Text.trimStart (Text.trim inside) = Text.trim inside :=
    Text.trimStart_of_head? (Text.trimmed_trim inside).1
  rw [Text.firstWord, hstart]
  exact List.takeWhile_prefix _

theorem trim_eq_nil_of_firstWord {inside : Text}
    (h : Text.firstWord (Text.trim inside) = []) : Text.trim inside = [] := by
  have htrimmed := Text.trimmed_trim inside
  cases htrim : Text.trim inside with
  | nil => rfl
  | cons c rest =>
    have hc : c.isBlank = false := htrimmed.1 c (by rw [htrim]; rfl)
    rw [htrim, Text.firstWord, Text.trimStart_cons_of_not hc,
      List.takeWhile_cons_of_pos (by simp [hc])] at h
    cases h

theorem mem_of_mem_readName {inside : Text} {c : CodePoint} (hsteady : c.Steady)
    (hc : c ∈ readName inside) : c ∈ Text.firstWord (Text.trim inside) :=
  (Text.withoutEnding_prefix _ _).subset (Text.mem_of_mem_lower hsteady hc)

theorem prefix_of_prefix_readName {pattern inside : Text} (hsteady : ∀ c ∈ pattern, c.Steady)
    (h : pattern <+: readName inside) : pattern <+: Text.trim inside :=
  ((Text.prefix_of_prefix_lower hsteady h).trans (Text.withoutEnding_prefix _ _)).trans
    (firstWord_trim_starts inside)

/-- A steady code point of the name stands in the tag. -/
theorem mem_of_mem_name {inside : Text} {c : CodePoint} (hsteady : c.Steady)
    (hc : c ∈ (read inside).name) : c ∈ inside :=
  Text.mem_of_mem_trim ((firstWord_trim_starts inside).subset (mem_of_mem_readName hsteady hc))

/-- The values stand in the tag, each without one of the two quotes. -/
theorem taken_of_mem_attributes {inside : Text} {entry : Text × AttributeValue}
    (hentry : entry ∈ (read inside).attributes) : entry.2.Good (Attributes.Taken inside) := by
  have hread := Attributes.legible_read
    (Text.withoutEnding (Text.trim ((Text.trim inside).drop (readName inside).length)) "/")
  refine (hread.1 entry hentry).2.mono fun value htaken => htaken.mono fun c hc => ?_
  have hbehind := (Text.withoutEnding_prefix _ _).subset hc
  exact Text.mem_of_mem_trim (List.mem_of_mem_drop (Text.mem_of_mem_trim hbehind))

/-- A start tag is legible as soon as its inside is that of a start tag. -/
theorem isRead_read {inside : Text} (hbracket : .scalar '>' ∉ inside)
    (hmark : ¬ ("!--" : Text) <+: Text.trim inside)
    (hslash : ¬ ("/" : Text) <+: Text.trim inside) : (read inside).IsRead where
  no_blank := by
    intro c hc
    cases hblank : c.isBlank with
    | false => rfl
    | true =>
      have hmem := mem_of_mem_readName (CodePoint.steady_of_isBlank hblank) hc
      have hnot := List.mem_takeWhile_imp hmem
      simp [hblank] at hnot
  no_bracket := fun hmem => hbracket (mem_of_mem_name (by decide) hmem)
  not_slash := fun h => hslash (prefix_of_prefix_readName (by decide) h)
  not_mark := fun h => hmark (prefix_of_prefix_readName (by decide) h)
  lower_name := Text.lower_lower _
  nameless := by
    intro hname
    -- An empty name comes from a blank inside, or from a lone slash, which starts an end tag.
    have hword : Text.withoutEnding (Text.firstWord (Text.trim inside)) "/" = [] :=
      Text.lower_eq_nil_iff.1 hname
    have htrim : Text.trim inside = [] := by
      rcases Text.eq_of_withoutEnding_eq_nil hword with hnil | hsame
      · exact trim_eq_nil_of_firstWord hnil
      · exact absurd (hsame ▸ firstWord_trim_starts inside) hslash
    rw [read, htrim, List.drop_nil]
    exact Attributes.read_nil
  attributes := by
    obtain ⟨hentries, hnodup⟩ := Attributes.legible_read
      (Text.withoutEnding (Text.trim ((Text.trim inside).drop (readName inside).length)) "/")
    refine ⟨fun entry hentry => ⟨(hentries entry hentry).1, ?_⟩, hnodup⟩
    exact (taken_of_mem_attributes hentry).mono fun value htaken =>
      ⟨fun hmem => hbracket (htaken.1 _ hmem), htaken.2⟩

end Tag

/-! ## The invariant along the spans -/

namespace Assembly

/-- Legible so far: every open element has a legible tag that is not void. -/
def Legible (assembly : Assembly) : Prop :=
  (∀ element ∈ assembly.opened, element.tag.IsRead ∧ element.tag.isVoid = false ∧
    Node.LegibleAll Tag.IsRead element.earlier) ∧
  Node.LegibleAll Tag.IsRead assembly.nodes

theorem legible_add {assembly : Assembly} {node : Node} (h : assembly.Legible)
    (hnode : node.Legible Tag.IsRead) : (assembly.add node).Legible :=
  ⟨h.1, Node.legibleAll_append.2 ⟨h.2, Node.legibleAll_singleton.2 hnode⟩⟩

theorem legible_close {element : OpenElement} {nodes : List Node}
    (htag : element.tag.IsRead) (hvoid : element.tag.isVoid = false)
    (hearlier : Node.LegibleAll Tag.IsRead element.earlier)
    (hnodes : Node.LegibleAll Tag.IsRead nodes) :
    Node.LegibleAll Tag.IsRead (element.close nodes) := by
  refine Node.legibleAll_append.2 ⟨hearlier, Node.legibleAll_singleton.2 ⟨htag, ?_, hnodes⟩⟩
  intro hyes
  rw [hvoid] at hyes
  cases hyes

theorem legible_closeThrough {name : Text} {opened : List OpenElement} {nodes : List Node}
    (h : Legible ⟨opened, nodes⟩) : (closeThrough name opened nodes).Legible := by
  induction opened generalizing nodes with
  | nil => exact h
  | cons element outer ih =>
    obtain ⟨hopened, hnodes⟩ := h
    obtain ⟨htag, hvoid, hearlier⟩ := hopened element List.mem_cons_self
    have hclosed : Legible ⟨outer, element.close nodes⟩ :=
      ⟨fun other hother => hopened other (List.mem_cons_of_mem _ hother),
        legible_close htag hvoid hearlier hnodes⟩
    rw [closeThrough]
    split
    · exact hclosed
    · exact ih hclosed

theorem legible_step {assembly : Assembly} {span : Span} {after : Text} (h : assembly.Legible)
    (hfits : span.Fits after) : (assembly.step span).Legible := by
  cases span with
  | text content => exact legible_add h ⟨hfits.1, hfits.2.1⟩
  | opening inside =>
    have htag := Tag.isRead_read hfits.1 hfits.2.1 hfits.2.2
    rw [step]
    -- A tag that is void or closes itself never opens, so open elements are not void.
    split
    · exact legible_add h ⟨htag, fun _ => rfl, trivial⟩
    · next hopens =>
      have hvoid : (Tag.read inside).isVoid = false := by
        cases hvoid : (Tag.read inside).isVoid with
        | false => rfl
        | true => exact absurd (by rw [hvoid]; rfl) hopens
      refine ⟨?_, trivial⟩
      intro element helement
      rcases List.mem_cons.1 helement with rfl | helement
      · exact ⟨htag, hvoid, h.2⟩
      · exact h.1 element helement
  | closing inside =>
    rw [step, closeNamed]
    split
    · exact legible_closeThrough h
    · exact h
  | comment covered => exact h
  | cutOff covered => exact h

theorem legible_foldl {spans : List Span} {assembly : Assembly} (h : assembly.Legible)
    (hspans : Span.Segmentation spans) : (spans.foldl step assembly).Legible := by
  induction spans generalizing assembly with
  | nil => exact h
  | cons span later ih => exact ih (legible_step h hspans.1) hspans.2

theorem legibleAll_finish {assembly : Assembly} (h : assembly.Legible) :
    Node.LegibleAll Tag.IsRead assembly.finish := by
  obtain ⟨opened, nodes⟩ := assembly
  induction opened generalizing nodes with
  | nil => exact h.2
  | cons element outer ih =>
    obtain ⟨htag, hvoid, hearlier⟩ := h.1 element List.mem_cons_self
    exact ih (element.close nodes)
      ⟨fun other hother => h.1 other (List.mem_cons_of_mem _ hother),
        legible_close htag hvoid hearlier h.2⟩

end Assembly

/-- Every parsed tree is legible. -/
theorem Node.legibleAll_parse (markup : Text) : LegibleAll Tag.IsRead (parse markup) := by
  have hstart : Assembly.Legible {} :=
    ⟨fun _ helement => absurd helement List.not_mem_nil, trivial⟩
  exact Assembly.legibleAll_finish
    (Assembly.legible_foldl hstart (Span.segmentation_ofMarkup markup))

/-! ## Code points that the markup lacks -/

/-- Whether a code point stands neither in a text nor in the name or a value of a tag. -/
def Visit.Avoids (c : CodePoint) : Visit → Prop
  | text content => c ∉ content
  | element tag => c ∉ tag.name ∧ ∀ entry ∈ tag.attributes, entry.2.Good fun value => c ∉ value

/-- A steady code point that the markup lacks is nowhere in its tree. -/
theorem Node.avoids_of_mem_visitsOf_parse {c : CodePoint} {markup : Text} (hsteady : c.Steady)
    (hc : c ∉ markup) : ∀ visit ∈ visitsOf (parse markup), visit.Avoids c := by
  intro visit hvisit
  rw [parse, visitsOf_ofSpans] at hvisit
  obtain ⟨span, hspan, hbecomes⟩ := List.mem_filterMap.1 hvisit
  have hsource : c ∉ span.source := by
    intro hmem
    rw [← Span.sourceOf_ofMarkup markup] at hc
    exact hc (List.mem_flatMap.2 ⟨span, hspan, hmem⟩)
  cases span with
  | text content =>
    cases hbecomes
    exact hsource
  | opening inside =>
    cases hbecomes
    have hinside : c ∉ inside := fun hmem =>
      hsource (List.mem_cons_of_mem _ (List.mem_append_left _ hmem))
    refine ⟨fun hmem => hinside (Tag.mem_of_mem_name hsteady hmem), ?_⟩
    intro entry hentry
    exact (Tag.taken_of_mem_attributes hentry).mono fun value htaken hmem =>
      hinside (htaken.1 c hmem)
  | closing inside => cases hbecomes
  | comment covered => cases hbecomes
  | cutOff covered => cases hbecomes

end Stencil
