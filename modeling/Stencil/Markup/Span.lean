import Stencil.Text.Case
import Stencil.Markup.AttributeReader

/-!
# Spans of markup

Markup falls into consecutive spans: literal text up to the next `<`; a start tag or an end tag from
its `<` through the next `>`; a comment; or a tag that the end of the markup cuts off. Which one a
`<` begins is decided by what stands between it and the next `>`, blanks at both ends put aside.

* `Span`, and the text it covers (`Span.source`);
* `Span.next`, the first span of a text, and `Span.ofMarkup`, all of them;
* `Tag.read` and `closingName`, what the inside of a tag says.
-/

set_option autoImplicit false

namespace Stencil

/-- A stretch of markup. The inside of a tag is what stands between its angle brackets; a comment
and a tag without an end keep all that they cover. -/
inductive Span where
  | text (content : Text)
  | opening (inside : Text)
  | closing (inside : Text)
  | comment (covered : Text)
  | cutOff (covered : Text)
  deriving DecidableEq, Repr

namespace Span

/-- A text between angle brackets. -/
def bracketed (inside : Text) : Text :=
  .scalar '<' :: (inside ++ [.scalar '>'])

/-- The markup that a span covers. -/
def source : Span → Text
  | text content => content
  | opening inside => bracketed inside
  | closing inside => bracketed inside
  | comment covered => covered
  | cutOff covered => covered

/-- The comment that starts with `<`, given what stands behind the `<`. It ends with the first `-->`
that begins at least four code points into it; without one, the tag with the inside `inside` is the
whole comment and `after` is left. -/
def readComment (behind inside after : Text) : Span × Text :=
  match Text.find? "-->" (behind.drop 3) with
  | some (body, rest) => (comment (.scalar '<' :: (behind.take 3 ++ body ++ ("-->" : Text))), rest)
  | none => (comment (bracketed inside), after)

/-- The span that starts with `<`, given what stands behind the `<`, with the rest of the markup. -/
def readTag (behind : Text) : Span × Text :=
  match behind.dropWhile (· ≠ .scalar '>') with
  | [] => (cutOff (.scalar '<' :: behind), [])
  | _ :: after =>
    let inside := behind.takeWhile (· ≠ .scalar '>')
    if Text.startsWith (Text.trim inside) "!--" then readComment behind inside after
    else if Text.startsWith (Text.trim inside) "/" then (closing inside, after)
    else (opening inside, after)

/-- The first span of the markup `c :: rest`, with the rest of the markup. -/
def next (c : CodePoint) (rest : Text) : Span × Text :=
  if c = '<' then readTag rest
  else (text (c :: rest.takeWhile (· ≠ .scalar '<')), rest.dropWhile (· ≠ .scalar '<'))

theorem length_of_find? {pattern text front back : Text}
    (h : Text.find? pattern text = some (front, back)) : back.length ≤ text.length := by
  induction text generalizing front with
  | nil =>
    unfold Text.find? at h
    split at h <;> cases h
    exact Nat.le_refl _
  | cons c rest ih =>
    unfold Text.find? at h
    split at h
    · cases h
      simp
    · cases found : Text.find? pattern rest with
      | none => simp [found] at h
      | some pair =>
        obtain ⟨inner, last⟩ := pair
        simp only [found, Option.map_some, Option.some.injEq, Prod.mk.injEq] at h
        have inner_le := @ih inner (by rw [found, h.2])
        exact Nat.le_succ_of_le inner_le

theorem length_readTag_le (behind : Text) : (readTag behind).2.length ≤ behind.length := by
  have drop_le := Attributes.length_dropWhile_le (· ≠ .scalar '>') behind
  unfold readTag
  split
  · exact Nat.zero_le _
  · next after heq =>
    rw [heq] at drop_le
    have after_le : after.length ≤ behind.length := Nat.le_of_succ_le drop_le
    simp only
    split
    · unfold readComment
      split
      · next heq =>
        have body_le := length_of_find? heq
        rw [List.length_drop] at body_le
        exact Nat.le_trans body_le (Nat.sub_le _ _)
      · exact after_le
    · split <;> exact after_le

/-- A span covers at least one code point. -/
theorem length_next_le (c : CodePoint) (rest : Text) : (next c rest).2.length ≤ rest.length := by
  unfold next
  split
  · exact length_readTag_le rest
  · exact Attributes.length_dropWhile_le _ rest

/-- The spans of a markup text, from left to right. -/
def ofMarkup : Text → List Span
  | [] => []
  | c :: rest => (next c rest).1 :: ofMarkup (next c rest).2
termination_by markup => markup.length
decreasing_by
  have := length_next_le c rest
  simp only [List.length_cons]
  omega

end Span

/-! ## What the inside of a tag says -/

/-- The name behind the slash of an end tag. -/
def closingName (inside : Text) : Text :=
  Text.lower (Text.trim ((Text.trim inside).drop 1))

namespace Tag

/-- Whether a slash at the end of the inside closes the element at once. -/
def closesItself (inside : Text) : Bool :=
  Text.endsWith (Text.trim inside) "/"

/-- The name of a start tag: its first word, without a slash at its end, in lower case. -/
def readName (inside : Text) : Text :=
  Text.lower (Text.withoutEnding (Text.firstWord (Text.trim inside)) "/")

/-- The start tag with a given inside. Attributes are read from what is left of the inside after as
many code points as the name has. -/
def read (inside : Text) : Tag :=
  let name := readName inside
  let behind := Text.trim ((Text.trim inside).drop name.length)
  ⟨name, Attributes.read (Text.withoutEnding behind "/")⟩

end Tag

end Stencil
