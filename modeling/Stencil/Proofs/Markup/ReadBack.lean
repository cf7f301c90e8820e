import Stencil.Proofs.Markup.Legible

/-!
# Reading back what is written

A tree whose tags are printable is read back from its markup as it was, with neighbouring texts
merged (`Node.parse_printAll`). The spans of the written markup are known before it is read
(`Node.spansOf`): they are a segmentation of it, so they are the ones that are read, and putting
them together adds the nodes of the tree to whatever is there (`Assembly.foldl_step_spansOf`). Every
end tag closes its own element, since at that point no other is open inside it.
-/

set_option autoImplicit false

namespace Stencil

/-- A value that may stand between double quotes inside a tag. -/
def Text.IsQuotable (value : Text) : Prop :=
  .scalar '"' ∉ value ∧ .scalar '>' ∉ value

/-- A start tag that is written as it is: with values that may stand between double quotes, and a
name without a slash at its end. -/
def Tag.IsPrintable (tag : Tag) : Prop :=
  tag.Legible Text.IsQuotable ∧ ¬ ("/" : Text) <:+ tag.name

/-- A start tag that ends where it is written to end, since no value in it holds a `>`. What is read
from it may still be another tag. -/
def Tag.IsBracketed (tag : Tag) : Prop :=
  tag.Legible fun value => .scalar '>' ∉ value

theorem Tag.Legible.mono {first second : Text → Prop} {tag : Tag} (h : tag.Legible first)
    (himp : ∀ value, first value → second value) : tag.Legible second :=
  { h with
    attributes := ⟨fun entry hentry => ⟨(h.attributes.1 entry hentry).1,
      (h.attributes.1 entry hentry).2.mono himp⟩, h.attributes.2⟩ }

theorem Tag.IsPrintable.isBracketed {tag : Tag} (h : tag.IsPrintable) : tag.IsBracketed :=
  h.1.mono fun _ hvalue => hvalue.2

namespace Attributes

theorem not_mem_print {c : CodePoint} {attributes : Attributes}
    (hname : c.isAttributeName = false) (hspace : c ≠ ' ') (hsign : c ≠ '=') (hquote : c ≠ '"')
    (h : ∀ entry ∈ attributes, LegibleName entry.1 ∧ entry.2.Good fun value => c ∉ value) :
    c ∉ print attributes := by
  induction attributes with
  | nil => exact List.not_mem_nil
  | cons head rest ih =>
    obtain ⟨name, value⟩ := head
    obtain ⟨hlegible, hgood⟩ := h _ List.mem_cons_self
    have hnot : c ∉ name := hlegible.not_mem hname
    have hrest := ih fun entry hentry => h entry (List.mem_cons_of_mem _ hentry)
    rw [print_cons, List.mem_append, not_or]
    refine ⟨?_, hrest⟩
    cases value with
    | flag on => simp [printOne, hspace, hnot]
    | text content =>
      have hcontent : c ∉ content := hgood
      simp [printOne, Text.ofString, hspace, hnot, hsign, hquote, hcontent]

/-- Printed attributes end in a double quote or in a name. -/
theorem getLast?_print {attributes : Attributes} (h : ∀ entry ∈ attributes, LegibleName entry.1) :
    ∀ c ∈ (print attributes).getLast?, c = '"' ∨ c.isAttributeName = true := by
  induction attributes with
  | nil => simp
  | cons head rest ih =>
    obtain ⟨name, value⟩ := head
    have hrest := ih fun entry hentry => h entry (List.mem_cons_of_mem _ hentry)
    obtain ⟨hne, hlegible⟩ := h _ List.mem_cons_self
    intro c hc
    rw [print_cons, List.getLast?_append, Option.mem_def, Option.or_eq_some_iff] at hc
    rcases hc with hc | ⟨-, hc⟩
    · exact hrest c hc
    · cases value with
      | flag on =>
        rw [printOne, List.getLast?_cons_of_ne_nil hne] at hc
        exact Or.inr (hlegible c (List.mem_of_getLast? hc))
      | text content =>
        rw [printOne, List.getLast?_append] at hc
        cases hc
        exact Or.inl rfl

end Attributes

namespace Tag

/-! ## The inside of a start tag -/

/-- What stands between the name of a start tag and the closing bracket. -/
def behindName (tag : Tag) : Text :=
  Attributes.print tag.attributes ++ if tag.isVoid then (" /" : Text) else []

theorem inside_eq (tag : Tag) : tag.inside = tag.name ++ tag.behindName := by
  rw [inside, behindName, List.append_assoc]

theorem head?_behindName (tag : Tag) : ∀ c ∈ tag.behindName.head?, c.isBlank := by
  refine Attributes.head?_print_append ?_
  split
  · rintro c ⟨⟩
    decide
  · simp

theorem inside_eq_nil_of_nameless {tag : Tag} (h : tag.IsBracketed) (hname : tag.name = []) :
    tag.inside = [] := by
  have hvoid : tag.isVoid = false := by
    rw [isVoid, hname]
    decide
  rw [inside, hname, h.nameless hname, hvoid]
  rfl

theorem not_mem_inside {tag : Tag} (h : tag.IsBracketed) : .scalar '>' ∉ tag.inside := by
  have hprint : .scalar '>' ∉ Attributes.print tag.attributes :=
    Attributes.not_mem_print (by decide) (by decide) (by decide) (by decide) h.attributes.1
  rw [inside, List.mem_append, List.mem_append, not_or, not_or]
  refine ⟨⟨h.no_bracket, hprint⟩, ?_⟩
  split
  · decide
  · exact List.not_mem_nil

theorem suffix_slash_of_getLast? {text : Text} (h : text.getLast? = some (.scalar '/')) :
    ("/" : Text) <:+ text := by
  obtain ⟨front, rfl⟩ := List.getLast?_eq_some_iff.1 h
  exact List.suffix_append front _

/-- Without the slash of a void element, the inside ends neither in a blank nor in a slash. -/
theorem getLast?_name_print {tag : Tag} (h : tag.IsPrintable) :
    ∀ c ∈ (tag.name ++ Attributes.print tag.attributes).getLast?, c.isBlank = false ∧ c ≠ '/' := by
  intro c hc
  rw [List.getLast?_append, Option.mem_def, Option.or_eq_some_iff] at hc
  rcases hc with hc | ⟨-, hc⟩
  · rcases Attributes.getLast?_print (fun entry hentry => (h.1.attributes.1 entry hentry).1) c hc
      with rfl | hname
    · decide
    · refine ⟨Attributes.not_isBlank_of_isAttributeName hname, ?_⟩
      rintro rfl
      exact absurd hname (by decide)
  · refine ⟨h.1.no_blank c (List.mem_of_getLast? hc), ?_⟩
    rintro rfl
    exact h.2 (suffix_slash_of_getLast? hc)

theorem head?_inside {tag : Tag} (h : tag.IsBracketed) :
    ∀ c ∈ tag.inside.head?, c ∈ tag.name := by
  intro c hc
  cases hname : tag.name with
  | nil =>
    rw [inside_eq_nil_of_nameless h hname] at hc
    cases hc
  | cons d rest =>
    rw [inside_eq, hname] at hc
    cases hc
    exact List.mem_cons_self

theorem trimmed_inside {tag : Tag} (h : tag.IsPrintable) : Text.Trimmed tag.inside := by
  refine ⟨fun c hc => h.1.no_blank c (head?_inside h.isBracketed c hc), ?_⟩
  intro c hc
  rw [inside] at hc
  split at hc
  · rw [List.getLast?_append] at hc
    cases hc
    decide
  · rw [List.append_nil] at hc
    exact (getLast?_name_print h c hc).1

/-- A start without blanks is a start of the name. -/
theorem prefix_name_of_prefix_inside {tag : Tag} {pattern : Text}
    (hpattern : ∀ c ∈ pattern, c.isBlank = false) (h : pattern <+: tag.inside) :
    pattern <+: tag.name := by
  rw [inside_eq] at h
  rcases List.prefix_or_prefix_of_prefix h (List.prefix_append tag.name tag.behindName) with
    hshort | ⟨more, hlong⟩
  · exact hshort
  · cases more with
    | nil =>
      rw [List.append_nil] at hlong
      exact hlong ▸ List.prefix_rfl
    | cons c rest =>
      -- The code point behind the name would be a blank.
      obtain ⟨after, hafter⟩ := h
      rw [← hlong, List.append_assoc, List.append_cancel_left_eq] at hafter
      have hblank := head?_behindName tag c (by rw [← hafter]; rfl)
      have hnot := hpattern c (by rw [← hlong]; exact List.mem_append_right _ List.mem_cons_self)
      rw [hblank] at hnot
      cases hnot

/-- Trimming takes nothing off the start of a tag. -/
theorem isPrefix_trim_inside {tag : Tag} (h : tag.IsBracketed) :
    Text.trim tag.inside <+: tag.inside := by
  have hstart : Text.trimStart tag.inside = tag.inside :=
    Text.trimStart_of_head? fun c hc => h.no_blank c (head?_inside h c hc)
  obtain ⟨trail, hsplit, -⟩ := Text.exists_eq_trimEnd tag.inside
  rw [Text.trim, hstart]
  exact ⟨trail, hsplit.symm⟩

theorem fits_opening {tag : Tag} (h : tag.IsBracketed) (after : Text) :
    (Span.opening tag.inside).Fits after := by
  refine ⟨not_mem_inside h, ?_, ?_⟩
  · intro hmark
    exact h.not_mark
      (prefix_name_of_prefix_inside (by decide) (hmark.trans (isPrefix_trim_inside h)))
  · intro hslash
    exact h.not_slash
      (prefix_name_of_prefix_inside (by decide) (hslash.trans (isPrefix_trim_inside h)))

/-! ## Reading a start tag back -/

theorem readName_inside {tag : Tag} (h : tag.IsPrintable) : readName tag.inside = tag.name := by
  have htrim : Text.trim tag.inside = tag.inside := Text.trim_of_trimmed (trimmed_inside h)
  by_cases hname : tag.name = []
  · rw [readName, inside_eq_nil_of_nameless h.isBracketed hname, hname]
    rfl
  · have hword : Text.firstWord tag.inside = tag.name := by
      rw [inside_eq]
      exact Text.firstWord_append_of_stop h.1.no_blank hname (head?_behindName tag)
    rw [readName, htrim, hword, Text.withoutEnding_of_not h.2, h.1.lower_name]

/-- Printed attributes are read back behind the space that they start with. -/
theorem read_print_append {tag : Tag} (h : tag.IsPrintable) {start trail : Text}
    (hprint : Attributes.print tag.attributes = .scalar ' ' :: start)
    (htrail : ∀ c ∈ trail, c.isBlank) : Attributes.read (start ++ trail) = tag.attributes := by
  have hmentions :
      Attributes.readMentions (Attributes.print tag.attributes ++ trail) = tag.attributes := by
    refine Attributes.readMentions_print_append (fun entry hentry => ?_) htrail
    exact ⟨(h.1.attributes.1 entry hentry).1,
      (h.1.attributes.1 entry hentry).2.mono fun _ hvalue => hvalue.1⟩
  rw [hprint, List.cons_append, Attributes.readMentions_cons_of_not (by decide)] at hmentions
  rw [Attributes.read, hmentions, Attributes.ofMentions_of_nodup h.1.attributes.2]

/-- The slash of a void element is taken off, and the space in front of it does no harm. -/
theorem read_slashed {tag : Tag} (h : tag.IsPrintable) {c : CodePoint} {more : Text}
    (hprint : Attributes.print tag.attributes = .scalar ' ' :: c :: more)
    (hc : c.isBlank = false) :
    Attributes.read (Text.withoutEnding (Text.trim (.scalar ' ' :: c :: more ++ (" /" : Text)))
      "/") = tag.attributes := by
  have hmiddle : Text.Trimmed (c :: more ++ (" /" : Text)) := by
    constructor
    · rintro d ⟨⟩
      exact hc
    · intro d hd
      rw [List.getLast?_append] at hd
      cases hd
      decide
  have hslash : Text.withoutEnding (c :: more ++ (" /" : Text)) "/" =
      c :: more ++ [CodePoint.scalar ' '] := by
    have hends := Text.withoutEnding_append (c :: more ++ [CodePoint.scalar ' ']) "/"
    rw [List.append_assoc] at hends
    exact hends
  rw [List.cons_append, Text.trim_space_cons hmiddle, hslash]
  exact read_print_append h hprint (by decide)

/-- Without the slash, the attributes end neither in a blank nor in a slash. -/
theorem read_unslashed {tag : Tag} (h : tag.IsPrintable) {c : CodePoint} {more : Text}
    (hprint : Attributes.print tag.attributes = .scalar ' ' :: c :: more)
    (hc : c.isBlank = false) :
    Attributes.read (Text.withoutEnding (Text.trim (.scalar ' ' :: c :: more)) "/") =
      tag.attributes := by
  have hlast : ∀ d ∈ (c :: more).getLast?, d.isBlank = false ∧ d ≠ '/' := by
    intro d hd
    apply getLast?_name_print h d
    rw [hprint, List.getLast?_append, List.getLast?_cons_of_ne_nil (List.cons_ne_nil _ _),
      Option.mem_def.1 hd]
    rfl
  have hmiddle : Text.Trimmed (c :: more) := by
    refine ⟨?_, fun d hd => (hlast d hd).1⟩
    rintro d ⟨⟩
    exact hc
  have hslash : ¬ ("/" : Text) <:+ c :: more := by
    rintro ⟨front, hfront⟩
    exact (hlast (.scalar '/') (by rw [← hfront, List.getLast?_append]; rfl)).2 rfl
  have hread := read_print_append h hprint (List.forall_mem_nil _)
  rw [List.append_nil] at hread
  rw [Text.trim_space_cons hmiddle, Text.withoutEnding_of_not hslash, hread]

/-- What stands behind the name is read as the attributes of the tag. -/
theorem read_behindName {tag : Tag} (h : tag.IsPrintable) :
    Attributes.read (Text.withoutEnding (Text.trim tag.behindName) "/") = tag.attributes := by
  rw [behindName]
  by_cases hnone : tag.attributes = []
  · rw [hnone, Attributes.print_nil, List.nil_append]
    split
    · exact Attributes.read_nil
    · exact Attributes.read_nil
  · obtain ⟨c, more, hprint, hc⟩ := Attributes.exists_print_eq hnone
      fun entry hentry => (h.1.attributes.1 entry hentry).1
    have hblank : c.isBlank = false := Attributes.not_isBlank_of_isAttributeName hc
    rw [hprint]
    split
    · exact read_slashed h hprint hblank
    · rw [List.append_nil]
      exact read_unslashed h hprint hblank

theorem read_inside {tag : Tag} (h : tag.IsPrintable) : read tag.inside = tag := by
  have htrim : Text.trim tag.inside = tag.inside := Text.trim_of_trimmed (trimmed_inside h)
  have hdrop : tag.inside.drop tag.name.length = tag.behindName := by
    rw [inside_eq, List.drop_left]
  rw [read, readName_inside h, htrim, hdrop, read_behindName h]

theorem closesItself_inside {tag : Tag} (h : tag.IsPrintable) :
    closesItself tag.inside = tag.isVoid := by
  have htrim : Text.trim tag.inside = tag.inside := Text.trim_of_trimmed (trimmed_inside h)
  rw [closesItself, htrim]
  cases hvoid : tag.isVoid with
  | true =>
    rw [Text.endsWith_iff, inside, hvoid, if_pos rfl]
    exact ⟨_, List.append_assoc _ [CodePoint.scalar ' '] [CodePoint.scalar '/']⟩
  | false =>
    cases hends : Text.endsWith tag.inside "/" with
    | false => rfl
    | true =>
      obtain ⟨front, hfront⟩ := Text.endsWith_iff.1 hends
      have hinside : tag.inside = tag.name ++ Attributes.print tag.attributes := by
        rw [inside, hvoid, if_neg Bool.false_ne_true, List.append_nil]
      have hlast := getLast?_name_print h (.scalar '/')
        (by rw [← hinside, ← hfront, List.getLast?_append]; rfl)
      exact absurd rfl hlast.2

/-! ## End tags -/

theorem trim_slash_name {tag : Tag} (h : tag.IsBracketed) :
    Text.trim (("/" : Text) ++ tag.name) = ("/" : Text) ++ tag.name := by
  refine Text.trim_of_trimmed (Text.trimmed_of_no_blank ?_)
  intro c hc
  rcases List.mem_append.1 hc with hslash | hname
  · rw [List.mem_singleton.1 hslash]
    decide
  · exact h.no_blank c hname

theorem fits_closing {tag : Tag} (h : tag.IsBracketed) (after : Text) :
    (Span.closing (("/" : Text) ++ tag.name)).Fits after := by
  constructor
  · rw [List.mem_append, not_or]
    exact ⟨by decide, h.no_bracket⟩
  · rw [trim_slash_name h]
    exact List.prefix_append _ _

/-- An end tag says the name that it is written with. -/
theorem closingName_slash {tag : Tag} (h : tag.IsPrintable) :
    closingName (("/" : Text) ++ tag.name) = tag.name := by
  have hname : Text.trim tag.name = tag.name :=
    Text.trim_of_trimmed (Text.trimmed_of_no_blank h.1.no_blank)
  have hdrop : (("/" : Text) ++ tag.name).drop 1 = tag.name := rfl
  rw [closingName, trim_slash_name h.isBracketed, hdrop, hname, h.1.lower_name]

end Tag

/-! ## The spans of a written tree -/

namespace Node

mutual

/-- The spans that a node is written as. -/
def spans : Node → List Span
  | .text content => [.text content]
  | .element tag children =>
    .opening tag.inside ::
      if tag.isVoid then [] else spansOf children ++ [.closing (("/" : Text) ++ tag.name)]

/-- The spans that nodes are written as, one behind another. -/
def spansOf : List Node → List Span
  | [] => []
  | node :: rest => node.spans ++ spansOf rest

end

mutual

theorem sourceOf_spans : ∀ node : Node, Span.sourceOf node.spans = node.print
  | .text content => by
    rw [spans, Span.sourceOf_cons, Span.sourceOf_nil, List.append_nil, Span.source, print]
  | .element tag children => by
    rw [spans, print, Span.sourceOf_cons]
    split
    · rw [Span.sourceOf_nil, List.append_nil]
      rfl
    · rw [Span.sourceOf_append, sourceOf_spansOf children, ← List.append_assoc,
        Span.sourceOf_cons, Span.sourceOf_nil, List.append_nil]
      rfl

theorem sourceOf_spansOf : ∀ nodes : List Node, Span.sourceOf (spansOf nodes) = printAll nodes
  | [] => rfl
  | node :: rest => by
    rw [spansOf, printAll, Span.sourceOf_append, sourceOf_spans node, sourceOf_spansOf rest]

end

/-- What is written from an element starts with `<`. -/
theorem head?_printAll_of_not_isText {nodes : List Node} {after : Text}
    (hnodes : ∀ node ∈ nodes.head?, node.isText = false)
    (hafter : ∀ c ∈ after.head?, c = .scalar '<') :
    ∀ c ∈ (printAll nodes ++ after).head?, c = .scalar '<' := by
  cases nodes with
  | nil => exact hafter
  | cons node rest =>
    have htext : node.isText = false := hnodes node rfl
    cases node with
    | text content => cases htext
    | element tag children =>
      rw [printAll, print]
      split
      · rintro c ⟨⟩
        rfl
      · rintro c ⟨⟩
        rfl

mutual

theorem segmentation_spans : ∀ (node : Node) (later : List Span),
    node.Legible Tag.IsBracketed → node.Apart →
    (node.isText = true → ∀ c ∈ (Span.sourceOf later).head?, c = .scalar '<') →
    Span.Segmentation later → Span.Segmentation (node.spans ++ later)
  | .text content, later, hlegible, _, hnext, hlater =>
    ⟨⟨hlegible.1, hlegible.2, hnext rfl⟩, hlater⟩
  | .element tag children, later, hlegible, hapart, _, hlater => by
    rw [spans, List.cons_append]
    refine ⟨Tag.fits_opening hlegible.1 _, ?_⟩
    split
    · exact hlater
    · have hclosing : Span.Segmentation (.closing (("/" : Text) ++ tag.name) :: later) :=
        ⟨Tag.fits_closing hlegible.1 _, hlater⟩
      rw [List.append_assoc, List.singleton_append]
      -- A text at the end of the children runs up to the `<` of the end tag.
      refine segmentation_spansOf children _ hlegible.2.2 hapart ?_ hclosing
      rintro c ⟨⟩
      rfl

/-- What a tree without neighbouring texts is written as is a segmentation, in front of anything
that starts with `<`, if no tag in it ends too early. -/
theorem segmentation_spansOf : ∀ (nodes : List Node) (later : List Span),
    LegibleAll Tag.IsBracketed nodes → ApartAll nodes →
    (∀ c ∈ (Span.sourceOf later).head?, c = .scalar '<') →
    Span.Segmentation later → Span.Segmentation (spansOf nodes ++ later)
  | [], _, _, _, _, hlater => hlater
  | node :: rest, later, hlegible, hapart, hnext, hlater => by
    rw [spansOf, List.append_assoc]
    refine segmentation_spans node _ hlegible.1 hapart.1 ?_
      (segmentation_spansOf rest later hlegible.2 hapart.2.2 hnext hlater)
    intro htext
    rw [Span.sourceOf_append, sourceOf_spansOf]
    exact head?_printAll_of_not_isText (hapart.2.1 htext) hnext

end

end Node

/-! ## Putting the spans of a written tree together -/

namespace Assembly

/-- The end tag of the innermost open element closes that element over its children. -/
theorem closeNamed_innermost (tag : Tag) (earlier : List Node) (outer : List OpenElement)
    (children : List Node) :
    closeNamed ⟨⟨tag, earlier⟩ :: outer, children⟩ tag.name =
      ⟨outer, earlier ++ [.element tag children]⟩ := by
  rw [closeNamed, if_pos, closeThrough, if_pos rfl]
  · rfl
  · simp

mutual

theorem foldl_step_spans : ∀ (node : Node) (assembly : Assembly), node.Legible Tag.IsPrintable →
    node.spans.foldl step assembly = assembly.add node
  | .text content, assembly, _ => rfl
  | .element tag children, assembly, hlegible => by
    rw [Node.spans, List.foldl_cons, step, Tag.read_inside hlegible.1,
      Tag.closesItself_inside hlegible.1, Bool.or_self]
    cases hvoid : tag.isVoid with
    | true =>
      rw [if_pos rfl, if_pos rfl, List.foldl_nil, hlegible.2.1 hvoid]
    | false =>
      -- By the time of its end tag, the element is the innermost one that is open.
      rw [if_neg Bool.false_ne_true, if_neg Bool.false_ne_true, List.foldl_append,
        foldl_step_spansOf children _ hlegible.2.2, List.foldl_cons, List.foldl_nil, step,
        Tag.closingName_slash hlegible.1, openElement, List.nil_append, closeNamed_innermost]
      rfl

/-- The spans of a printable tree add its nodes to whatever is there. -/
theorem foldl_step_spansOf : ∀ (nodes : List Node) (assembly : Assembly),
    Node.LegibleAll Tag.IsPrintable nodes →
    (Node.spansOf nodes).foldl step assembly = { assembly with nodes := assembly.nodes ++ nodes }
  | [], assembly, _ => by rw [List.append_nil]; rfl
  | node :: rest, assembly, hlegible => by
    rw [Node.spansOf, List.foldl_append, foldl_step_spans node assembly hlegible.1,
      foldl_step_spansOf rest _ hlegible.2, add, List.append_assoc, List.singleton_append]

end

end Assembly

namespace Node

/-- The spans that a tree is written as are the ones that are read. -/
theorem ofMarkup_printAll_of_apart {nodes : List Node} (hlegible : LegibleAll Tag.IsBracketed nodes)
    (hapart : ApartAll nodes) : Span.ofMarkup (printAll nodes) = spansOf nodes := by
  -- A markup text has one segmentation only.
  have hsegments := segmentation_spansOf nodes [] hlegible hapart (by simp) trivial
  rw [List.append_nil] at hsegments
  have hread := Span.ofMarkup_sourceOf hsegments
  rwa [sourceOf_spansOf] at hread

theorem parse_printAll_of_apart {nodes : List Node} (hlegible : LegibleAll Tag.IsPrintable nodes)
    (hapart : ApartAll nodes) : parse (printAll nodes) = nodes := by
  have hbracketed := legibleAll_mono nodes hlegible fun _ htag => htag.isBracketed
  rw [parse, ofMarkup_printAll_of_apart hbracketed hapart, ofSpans,
    Assembly.foldl_step_spansOf nodes {} hlegible, List.nil_append]
  rfl

theorem legibleAll_meet {fine : Tag → Prop} {node : Node} {rest : List Node}
    (hnode : node.Legible fine) (hrest : LegibleAll fine rest) :
    LegibleAll fine (meet node rest) := by
  unfold meet
  split
  · next content next rest =>
    obtain ⟨hne, hnot⟩ := hnode
    refine ⟨⟨fun hnil => hne (List.append_eq_nil_iff.1 hnil).1, ?_⟩, hrest.2⟩
    rw [List.mem_append, not_or]
    exact ⟨hnot, hrest.1.2⟩
  · exact ⟨hnode, hrest⟩

mutual

theorem legible_merge {fine : Tag → Prop} : ∀ node : Node, node.Legible fine →
    node.merge.Legible fine
  | .text _, h => h
  | .element tag children, h => by
    rw [merge]
    refine ⟨h.1, fun hvoid => ?_, legibleAll_mergeAll children h.2.2⟩
    rw [h.2.1 hvoid]
    rfl

/-- Merging keeps a tree legible. -/
theorem legibleAll_mergeAll {fine : Tag → Prop} : ∀ nodes : List Node, LegibleAll fine nodes →
    LegibleAll fine (mergeAll nodes)
  | [], _ => trivial
  | node :: rest, h => by
    rw [mergeAll]
    exact legibleAll_meet (legible_merge node h.1) (legibleAll_mergeAll rest h.2)

end

/-- A printable tree is read back from its markup, with neighbouring texts merged. -/
theorem parse_printAll {nodes : List Node} (h : LegibleAll Tag.IsPrintable nodes) :
    parse (printAll nodes) = mergeAll nodes := by
  rw [← printAll_mergeAll nodes]
  exact parse_printAll_of_apart (legibleAll_mergeAll nodes h) (apartAll_mergeAll nodes)

end Node

end Stencil
