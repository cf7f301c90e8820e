import Stencil.Markup.Node

/-!
# Reading attributes

The part of a start tag behind its name is read as a sequence of mentions. A mention is a run of
name characters, on its own or with an equals sign and a value behind it; blanks may stand around
the sign. A value is quoted with one of the two quotes, or is a run of plain characters. What
belongs to no mention is passed over, and where an equals sign has no value behind it the mention
ends at its name.

This module holds `readValue?`, `readMentions` and `Attributes.read`. Each step leaves a shorter
text (`length_of_readValue?`), which is why reading ends.
-/

set_option autoImplicit false

namespace Stencil

namespace CodePoint

/-- A character that may stand in an attribute name. -/
def isAttributeName (c : CodePoint) : Bool :=
  c.isAsciiAlphanumeric || c = ':' || c = '@' || c = '_' || c = '-'

/-- A character that may stand in a value without quotes. -/
def isPlainValue (c : CodePoint) : Bool :=
  !(c.isBlank || c = '"' || c = '\'' || c = '\x60' || c = '=' || c = '<' || c = '>')

end CodePoint

namespace Attributes

/-- The text up to the next `quote`, with the rest behind the quote. -/
def readQuoted? (quote : CodePoint) (text : Text) : Option (Text × Text) :=
  match text.dropWhile (· ≠ quote) with
  | [] => none
  | _ :: rest => some (text.takeWhile (· ≠ quote), rest)

/-- A value at the start of the text, with the rest of the text. -/
def readBareValue? : Text → Option (Text × Text)
  | [] => none
  | c :: rest =>
    if c = '"' ∨ c = '\'' then readQuoted? c rest
    else if c.isPlainValue then
      some (c :: rest.takeWhile CodePoint.isPlainValue, rest.dropWhile CodePoint.isPlainValue)
    else none

/-- A value behind an equals sign, with the rest of the text. -/
def readValue? (text : Text) : Option (Text × Text) :=
  match Text.trimStart text with
  | [] => none
  | c :: rest => if c = '=' then readBareValue? (Text.trimStart rest) else none

theorem length_dropWhile_le (p : CodePoint → Bool) (text : Text) :
    (text.dropWhile p).length ≤ text.length :=
  (List.dropWhile_suffix p).length_le

theorem length_of_readQuoted? {quote : CodePoint} {text value rest : Text}
    (h : readQuoted? quote text = some (value, rest)) : rest.length ≤ text.length := by
  have drop_le := length_dropWhile_le (· ≠ quote) text
  unfold readQuoted? at h
  split at h
  · cases h
  · next heq =>
    cases h
    rw [heq] at drop_le
    exact Nat.le_of_succ_le drop_le

theorem length_of_readBareValue? {text value rest : Text}
    (h : readBareValue? text = some (value, rest)) : rest.length ≤ text.length := by
  cases text with
  | nil => cases h
  | cons c tail =>
    have drop_le := length_dropWhile_le CodePoint.isPlainValue tail
    rw [readBareValue?] at h
    by_cases quoted : c = '"' ∨ c = '\''
    · rw [if_pos quoted] at h
      exact Nat.le_succ_of_le (length_of_readQuoted? h)
    · rw [if_neg quoted] at h
      by_cases plain : c.isPlainValue = true
      · rw [if_pos plain] at h
        cases h
        exact Nat.le_succ_of_le drop_le
      · rw [if_neg plain] at h
        cases h

theorem length_of_readValue? {text value rest : Text}
    (h : readValue? text = some (value, rest)) : rest.length ≤ text.length := by
  have trim_le := length_dropWhile_le CodePoint.isBlank text
  unfold readValue? Text.trimStart at h
  split at h
  · cases h
  · next c tail heq =>
    rw [heq] at trim_le
    split at h
    · have value_le := length_of_readBareValue? h
      have inner_le := length_dropWhile_le CodePoint.isBlank tail
      simp only [List.length_cons] at trim_le
      omega
    · cases h

/-- The mentions of attributes in a text, from left to right. -/
def readMentions : Text → List (Text × AttributeValue)
  | [] => []
  | c :: rest =>
    if c.isAttributeName then
      let name := c :: rest.takeWhile CodePoint.isAttributeName
      match _read : readValue? (rest.dropWhile CodePoint.isAttributeName) with
      | some (value, after) => (name, .text value) :: readMentions after
      | none => (name, .flag true) :: readMentions (rest.dropWhile CodePoint.isAttributeName)
    else readMentions rest
termination_by text => text.length
decreasing_by
  · have behind_le := length_dropWhile_le CodePoint.isAttributeName rest
    have after_le := length_of_readValue? _read
    simp only [List.length_cons]
    omega
  · have behind_le := length_dropWhile_le CodePoint.isAttributeName rest
    simp only [List.length_cons]
    omega
  · simp only [List.length_cons]
    omega

/-- The attributes that a text mentions. -/
def read (text : Text) : Attributes :=
  ofMentions (readMentions text)

end Attributes

end Stencil
