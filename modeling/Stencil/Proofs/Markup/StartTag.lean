import Mathlib.Data.List.Basic
import Stencil.Proofs.Markup.Legible

/-!
# Where the attributes of an element come from

Each element is read from a start tag of the markup (`Span.startTags`). Its attributes are those
that the text behind the first word of the tag mentions, less as many code points of that text as
the lower-case name is longer than the first word (`Tag.attributes_read`). Only a dotted capital I
is spelled with more code points in lower case than in upper case, and a slash at the end of the
first word, which is no part of the name, makes up for one of them (`Tag.overrun`).

A blank ends the first word, so nothing is missed that way as long as the name is longer by one code
point at most; with any first word that makes it longer than that, some tag loses an attribute
(`Tag.attributes_parse`).
-/

set_option autoImplicit false

namespace Stencil

namespace Span

/-- The inside of a start tag. -/
def startTag? : Span → Option Text
  | opening inside => some inside
  | _ => none

/-- The insides of the start tags of a markup text, from left to right. -/
def startTags (markup : Text) : List Text :=
  (ofMarkup markup).filterMap startTag?

/-- What may stand inside a start tag: it has no `>` and is neither a comment nor an end tag. -/
def OpensElement (inside : Text) : Prop :=
  .scalar '>' ∉ inside ∧ ¬ ("!--" : Text) <+: Text.trim inside ∧
    ¬ ("/" : Text) <+: Text.trim inside

theorem opensElement_of_mem_startTags {markup inside : Text} (h : inside ∈ startTags markup) :
    OpensElement inside := by
  obtain ⟨span, hspan, hinside⟩ := List.mem_filterMap.1 h
  obtain ⟨after, hfits⟩ := exists_fits_of_mem (segmentation_ofMarkup markup) hspan
  cases span with
  | opening other =>
    cases hinside
    exact hfits
  | text content => cases hinside
  | closing other => cases hinside
  | comment covered => cases hinside
  | cutOff covered => cases hinside

/-- What may stand inside a start tag makes one. -/
theorem startTags_bracketed {inside : Text} (h : OpensElement inside) :
    startTags (bracketed inside) = [inside] := by
  have hfits : Segmentation [opening inside] := ⟨h, trivial⟩
  have hread := ofMarkup_sourceOf hfits
  rw [sourceOf_cons, sourceOf_nil, source, List.append_nil] at hread
  rw [startTags, hread]
  rfl

end Span

/-- The elements of a parsed tree are read from the start tags, in order. -/
theorem Node.tagsOf_parse (markup : Text) :
    tagsOf (parse markup) = (Span.startTags markup).map Tag.read := by
  rw [tagsOf_eq_filterMap, parse, visitsOf_ofSpans, Span.startTags, List.filterMap_filterMap,
    List.map_filterMap]
  congr 1
  funext span
  cases span <;> rfl

namespace Tag

/-- The first word inside a tag. -/
def word (inside : Text) : Text :=
  Text.firstWord (Text.trim inside)

/-- What stands behind the first word inside a tag. -/
def behindWord (inside : Text) : Text :=
  (Text.trim inside).drop (word inside).length

/-- The attributes that a text mentions, once the blanks around it and one slash at its end are put
aside. -/
def attributesIn (behind : Text) : Attributes :=
  Attributes.read (Text.withoutEnding (Text.trim behind) "/")

/-- By how many code points the name of an element is longer than the first word of its tag. A
dotted capital I has two code points in lower case, and a slash at the end of the word is no part of
the name. -/
def overrun (word : Text) : Nat :=
  word.count (.scalar '\u0130') - if ("/" : Text) <:+ word then 1 else 0

theorem word_append_behindWord (inside : Text) :
    word inside ++ behindWord inside = Text.trim inside :=
  List.prefix_iff_eq_append.1 (firstWord_trim_starts inside)

theorem attributes_read_eq (inside : Text) :
    (read inside).attributes = attributesIn ((Text.trim inside).drop (readName inside).length) :=
  rfl

/-! ## What does not change the attributes -/

theorem attributesIn_blank_append {lead : Text} (hlead : ∀ c ∈ lead, c.isBlank) (rest : Text) :
    attributesIn (lead ++ rest) = attributesIn rest := by
  rw [attributesIn, attributesIn, Text.trim_blank_append hlead]

/-- A slash in front is no part of any mention. -/
theorem attributesIn_slash_cons (behind : Text) :
    attributesIn (.scalar '/' :: behind) = attributesIn behind := by
  obtain ⟨lead, trail, hsplit, hlead, htrail⟩ := Text.exists_eq_trim behind
  have htrimmed := Text.trimmed_trim behind
  cases hmiddle : Text.trim behind with
  | nil =>
    -- A lone slash is the one at the end.
    have hblank := Text.trim_eq_nil_iff.1 hmiddle
    have hslash : Text.trim (.scalar '/' :: behind) = "/" :=
      @Text.trim_eq_of_between [] "/" behind (by simp) hblank ⟨by decide, by decide⟩
    rw [attributesIn, attributesIn, hslash, hmiddle]
    rfl
  | cons c rest =>
    rw [hmiddle] at hsplit htrimmed
    have hlonger : Text.trim (.scalar '/' :: behind) = .scalar '/' :: lead ++ c :: rest := by
      have hwhole : .scalar '/' :: behind = [] ++ (.scalar '/' :: lead ++ c :: rest) ++ trail := by
        rw [hsplit]
        simp only [List.nil_append, List.cons_append]
      rw [hwhole]
      refine Text.trim_eq_of_between (by simp) htrail ⟨?_, ?_⟩
      · rintro d ⟨⟩
        decide
      · intro d hd
        rw [List.getLast?_append_cons] at hd
        exact htrimmed.2 d hd
    have hone : ("/" : Text).length ≤ (c :: rest).length := by
      simp [Text.ofString]
    rw [attributesIn, attributesIn, hlonger, hmiddle, Text.withoutEnding_append_of_length_le hone,
      Attributes.read, Attributes.read, List.cons_append,
      Attributes.readMentions_cons_of_not (by decide), Attributes.readMentions_blank_append hlead]

/-! ## The attributes of one tag -/

/-- **What the attributes of a start tag are read from.** -/
theorem attributes_read (inside : Text) :
    (read inside).attributes =
      attributesIn ((behindWord inside).drop (overrun (word inside))) := by
  have hwhole := word_append_behindWord inside
  have hcut : readName inside = Text.lower (Text.withoutEnding (word inside) "/") := rfl
  rw [attributes_read_eq, hcut, Text.length_lower]
  -- What is cut off is the word without its slash and one code point for each dotted capital.
  by_cases hslash : ("/" : Text) <:+ word inside
  · obtain ⟨stem, hstem⟩ := hslash
    have hcount : (word inside).count (.scalar '\u0130') = stem.count (.scalar '\u0130') := by
      rw [← hstem, List.count_append]
      rfl
    rw [overrun, if_pos ⟨stem, hstem⟩, hcount, ← hstem, Text.withoutEnding_append]
    cases hdotted : stem.count (.scalar '\u0130') with
    | zero =>
      -- The name ends in front of the slash, which is then read with the attributes.
      rw [← hwhole, ← hstem, Nat.add_zero, List.append_assoc, List.drop_left, Nat.zero_sub,
        List.drop_zero]
      exact attributesIn_slash_cons _
    | succ n =>
      have hlength : (word inside).length = stem.length + 1 := by
        rw [← hstem, List.length_append]
        rfl
      rw [behindWord, List.drop_drop, hlength, Nat.add_sub_cancel, Nat.add_assoc, Nat.add_comm 1 n]
  · rw [overrun, if_neg hslash, Text.withoutEnding_of_not hslash, Nat.sub_zero, behindWord,
      List.drop_drop]

theorem isBlank_head?_behindWord (inside : Text) :
    ∀ c ∈ (behindWord inside).head?, c.isBlank = true := by
  have hstart : Text.trimStart (Text.trim inside) = Text.trim inside :=
    Text.trimStart_of_head? (Text.trimmed_trim inside).1
  have hword : word inside = (Text.trim inside).takeWhile fun c => !c.isBlank := by
    rw [word, Text.firstWord, hstart]
  have hsplit : word inside ++ behindWord inside =
      word inside ++ (Text.trim inside).dropWhile fun c => !c.isBlank := by
    rw [word_append_behindWord, hword, List.takeWhile_append_dropWhile]
  intro c hc
  rw [List.append_cancel_left hsplit] at hc
  simpa using Text.not_of_mem_head?_dropWhile c hc

/-- Blanks behind the first word may be lost. -/
theorem attributesIn_drop_of_blank {behind : Text} {count : Nat}
    (h : ∀ c ∈ behind.take count, c.isBlank) :
    attributesIn (behind.drop count) = attributesIn behind := by
  rw [← attributesIn_blank_append h, List.take_append_drop]

theorem attributes_read_of_overrun_le {inside : Text} (h : overrun (word inside) ≤ 1) :
    (read inside).attributes = attributesIn (behindWord inside) := by
  rw [attributes_read]
  apply attributesIn_drop_of_blank
  -- At most one code point is lost, which is the blank that ends the word.
  intro c hc
  cases hbehind : behindWord inside with
  | nil =>
    rw [hbehind, List.take_nil] at hc
    cases hc
  | cons d rest =>
    have hd : d.isBlank = true := isBlank_head?_behindWord inside d (by rw [hbehind]; rfl)
    have hone : c ∈ (d :: rest).take 1 := by
      rw [hbehind] at hc
      exact (List.take_subset_take_left _ h) hc
    rw [List.take_succ_cons, List.take_zero, List.mem_singleton] at hone
    rw [hone]
    exact hd

/-! ## A tag that loses an attribute -/

theorem not_isBlank_of_mem_word {inside : Text} : ∀ c ∈ word inside, c.isBlank = false := by
  intro c hc
  simpa using List.mem_takeWhile_imp hc

/-- The inside of a tag with a given first word and one flag. -/
def withFlag (first : Text) : Text :=
  first ++ (" x" : Text)

section WithFlag

variable {first : Text}

theorem trim_withFlag (hne : first ≠ []) (hblank : ∀ c ∈ first, c.isBlank = false) :
    Text.trim (withFlag first) = withFlag first := by
  refine Text.trim_of_trimmed ⟨?_, ?_⟩
  · intro c hc
    cases first with
    | nil => exact absurd rfl hne
    | cons d rest =>
      cases hc
      exact hblank c List.mem_cons_self
  · intro c hc
    have hflag : (withFlag first).getLast? = some (.scalar 'x') := by
      simp [withFlag, Text.ofString]
    rw [hflag] at hc
    cases hc
    decide

theorem word_withFlag (hne : first ≠ []) (hblank : ∀ c ∈ first, c.isBlank = false) :
    word (withFlag first) = first := by
  rw [word, trim_withFlag hne hblank]
  refine Text.firstWord_append_of_stop hblank hne ?_
  rintro c ⟨⟩
  decide

/-- A flag right behind the blank that ends the first word is lost with it. -/
theorem attributes_withFlag (hne : first ≠ []) (hblank : ∀ c ∈ first, c.isBlank = false)
    (h : 2 ≤ overrun first) :
    let mentioned : Attributes := [("x", .flag true)]
    (read (withFlag first)).attributes = [] ∧
      attributesIn (behindWord (withFlag first)) = mentioned := by
  intro mentioned
  have hword := word_withFlag hne hblank
  have hbehind : behindWord (withFlag first) = " x" := by
    rw [behindWord, hword, trim_withFlag hne hblank, withFlag, List.drop_left]
  have hgone : (" x" : Text).drop (overrun first) = [] :=
    List.drop_eq_nil_of_le h
  constructor
  · rw [attributes_read, hword, hbehind, hgone]
    exact Attributes.read_nil
  · rw [hbehind]
    decide +kernel

end WithFlag

/-- A start tag is still one when a flag is all that stands behind its first word. -/
theorem opensElement_withFlag {inside : Text} (h : Span.OpensElement inside)
    (hne : word inside ≠ []) : Span.OpensElement (withFlag (word inside)) := by
  obtain ⟨hbracket, hmark, hslash⟩ := h
  have hstarts : word inside <+: Text.trim inside := firstWord_trim_starts inside
  have hspace : ∀ c ∈ (" x" : Text).head?, c.isBlank = true := by
    rintro c ⟨⟩
    decide
  rw [Span.OpensElement, trim_withFlag hne not_isBlank_of_mem_word]
  refine ⟨?_, ?_, ?_⟩
  · intro hmem
    rcases List.mem_append.1 hmem with hword | hflag
    · exact hbracket (Text.mem_of_mem_trim (hstarts.subset hword))
    · exact absurd hflag (by decide)
  · exact fun hstart =>
      hmark ((Text.prefix_of_prefix_append_blank (by decide) hspace hstart).trans hstarts)
  · exact fun hstart =>
      hslash ((Text.prefix_of_prefix_append_blank (by decide) hspace hstart).trans hstarts)

theorem ne_nil_of_overrun {first : Text} (h : 2 ≤ overrun first) : first ≠ [] := by
  rintro rfl
  exact absurd h (by decide)

/-- **The attributes of an element come from behind the first word of its tag**, less the code
points that the name is longer by. They are those of all that stands there, whatever stands there,
just when the first word makes the name longer by one code point at most. -/
theorem attributes_parse (markup : Text) :
    Node.tagsOf (Node.parse markup) = (Span.startTags markup).map read ∧
    ∀ inside ∈ Span.startTags markup,
      (read inside).attributes =
        attributesIn ((behindWord inside).drop (overrun (word inside))) ∧
      (overrun (word inside) ≤ 1 ↔
        ∀ document, ∀ other ∈ Span.startTags document, word other = word inside →
          (read other).attributes = attributesIn (behindWord other)) := by
  refine ⟨Node.tagsOf_parse markup, ?_⟩
  intro inside hinside
  refine ⟨attributes_read inside, ?_, ?_⟩
  · intro hle document other _ hsame
    rw [← hsame] at hle
    exact attributes_read_of_overrun_le hle
  · intro hall
    by_contra hmore
    -- Such a word loses the flag that stands right behind it.
    have htwo : 2 ≤ overrun (word inside) := Nat.lt_of_not_le hmore
    have hne := ne_nil_of_overrun htwo
    have hopens := opensElement_withFlag (Span.opensElement_of_mem_startTags hinside) hne
    have hmem : withFlag (word inside) ∈
        Span.startTags (Span.bracketed (withFlag (word inside))) := by
      rw [Span.startTags_bracketed hopens]
      exact List.mem_singleton_self _
    have hother := hall _ _ hmem (word_withFlag hne not_isBlank_of_mem_word)
    obtain ⟨hread, hmentions⟩ := attributes_withFlag hne not_isBlank_of_mem_word htwo
    rw [hread, hmentions] at hother
    cases hother

/-- A name that is longer than its word by the dotted capital, and shorter by the slash. -/
theorem attributes_parse_dotted :
    let inside : Text := "\u0130mg/ src=a.png alt"
    let attributes : Attributes := [("src", .text "a.png"), ("alt", .flag true)]
    inside ∈ Span.startTags (Span.bracketed inside) ∧ overrun (word inside) ≤ 1 ∧
      (read inside).attributes = attributes := by
  intro inside attributes
  have hmem : inside ∈ Span.startTags (Span.bracketed inside) := by
    decide +kernel
  have hle : overrun (word inside) ≤ 1 := by
    decide +kernel
  have hmentions : attributesIn (behindWord inside) = attributes := by
    decide +kernel
  obtain ⟨-, hsafe⟩ := (attributes_parse (Span.bracketed inside)).2 inside hmem
  exact ⟨hmem, hle, (hsafe.1 hle _ inside hmem rfl).trans hmentions⟩

/-- The two dotted capitals of the name hide the blank and the name of the attribute, so that what
was its value is read as a flag. -/
theorem dotted_capitals_hide_name :
    let inside : Text := "\u0130\u0130 x=1"
    let lost : Attributes := [("1", .flag true)]
    let mentioned : Attributes := [("x", .text "1")]
    Span.startTags (Span.bracketed inside) = [inside] ∧ (read inside).attributes = lost ∧
      attributesIn (behindWord inside) = mentioned ∧ lost ≠ mentioned := by
  decide +kernel

end Tag

end Stencil
