import Stencil.Text.Basic

/-!
# Blanks

The white space that separates words in markup, class lists and tag sources. This module holds the
class itself (`CodePoint.isBlank`), trimming at both ends (`Text.trim`), the words of a text
(`Text.words`), and the text with each run of blanks made one space (`Text.collapse`).
-/

set_option autoImplicit false

namespace Stencil

/-- White space: the ASCII blanks with the four separators U+001C to U+001F, the next-line and
no-break spaces, and the Unicode space, line and paragraph separators. -/
def CodePoint.isBlank (c : CodePoint) : Bool :=
  let n := c.value
  (0x09 ≤ n && n ≤ 0x0D) || (0x1C ≤ n && n ≤ 0x20) || n == 0x85 || n == 0xA0 || n == 0x1680 ||
    (0x2000 ≤ n && n ≤ 0x200A) || n == 0x2028 || n == 0x2029 || n == 0x202F || n == 0x205F ||
    n == 0x3000

namespace Text

/-- The text without the blanks it starts with. -/
def trimStart (text : Text) : Text :=
  text.dropWhile CodePoint.isBlank

/-- The text without the blanks it ends with. -/
def trimEnd (text : Text) : Text :=
  (trimStart text.reverse).reverse

/-- The text without blanks at either end. -/
def trim (text : Text) : Text :=
  trimEnd (trimStart text)

/-- Whether the text has no code point but blanks. -/
def isBlank (text : Text) : Bool :=
  text.all CodePoint.isBlank

/-- Splitting at blanks: the letters of the first word before the next blank, and the words after
it. -/
def splitBlank : Text → Text × List Text
  | [] => ([], [])
  | c :: rest =>
    let (word, words) := splitBlank rest
    if c.isBlank then ([], if word.isEmpty then words else word :: words) else (c :: word, words)

/-- The maximal runs of code points that are not blank, in order. -/
def words (text : Text) : List Text :=
  let (word, words) := splitBlank text
  if word.isEmpty then words else word :: words

/-- The first word of the text; empty when the text is blank. -/
def firstWord (text : Text) : Text :=
  (trimStart text).takeWhile fun c => !c.isBlank

/-- Collapsing, with a note whether the code point just before was a blank. -/
def collapseAfter : Bool → Text → Text
  | _, [] => []
  | afterBlank, c :: rest =>
    if c.isBlank then
      if afterBlank then collapseAfter true rest else ' ' :: collapseAfter true rest
    else c :: collapseAfter false rest

/-- The text with every run of blanks written as one space. -/
def collapse (text : Text) : Text :=
  collapseAfter false text

end Text

end Stencil
