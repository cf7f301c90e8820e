/-!
# Text as code points

A JSON string may hold half of a surrogate pair on its own, and such a half travels through markup,
field keys and labels until it meets an encoder that refuses it. So a `Text` is a list of code
points, and a `CodePoint` is either a scalar value or a lone half.

This module holds:

* `CodePoint`, its number `CodePoint.value`, and the way back `CodePoint.ofValue?`;
* `Text`, written as a string or a character where one is expected;
* cutting and joining: `Text.splitOn`, `Text.join`, `Text.find?`, `Text.replace`;
* `Text.before`, the order by code point.
-/

set_option autoImplicit false

namespace Stencil

/-- A code point: a scalar value, or a surrogate half that stands alone. -/
inductive CodePoint where
  | scalar (c : Char)
  | half (offset : Fin 2048)
  deriving DecidableEq, Repr, Inhabited

/-- A finite sequence of code points. -/
abbrev Text := List CodePoint

namespace CodePoint

/-- The number of a code point; the halves fill the gap that `Char` leaves. -/
def value : CodePoint → Nat
  | scalar c => c.toNat
  | half offset => 0xD800 + offset.val

/-- The code point with a number, if the number is one of a code point. -/
def ofValue? (n : Nat) : Option CodePoint :=
  if h : n.isValidChar then some (scalar (Char.ofNatAux n h))
  else if 0xD800 ≤ n ∧ n < 0xE000 then some (half (Fin.ofNat 2048 (n - 0xD800)))
  else none

instance : Coe Char CodePoint := ⟨scalar⟩

/-- Whether the code point is a scalar value that satisfies `p`. -/
def satisfies (p : Char → Bool) : CodePoint → Bool
  | scalar c => p c
  | half _ => false

/-- An ASCII letter, upper or lower case. -/
def isAsciiLetter (c : CodePoint) : Bool :=
  c.satisfies fun c => ('a' ≤ c && c ≤ 'z') || ('A' ≤ c && c ≤ 'Z')

/-- A decimal digit of ASCII. -/
def isAsciiDigit (c : CodePoint) : Bool :=
  c.satisfies fun c => '0' ≤ c && c ≤ '9'

/-- An ASCII letter or digit. -/
def isAsciiAlphanumeric (c : CodePoint) : Bool :=
  c.isAsciiLetter || c.isAsciiDigit

/-- The value of a hexadecimal digit. -/
def hexDigit? (c : CodePoint) : Option Nat :=
  let n := c.value
  if 0x30 ≤ n ∧ n ≤ 0x39 then some (n - 0x30)
  else if 0x41 ≤ n ∧ n ≤ 0x46 then some (n - 0x41 + 10)
  else if 0x61 ≤ n ∧ n ≤ 0x66 then some (n - 0x61 + 10)
  else none

end CodePoint

namespace Text

/-- The text of a string: one scalar value for each of its characters. -/
def ofString (s : String) : Text :=
  s.toList.map CodePoint.scalar

instance : Coe String Text := ⟨ofString⟩

/-- Whether `pattern` stands at the start of `text`. -/
def startsWith (text pattern : Text) : Bool :=
  pattern.isPrefixOf text

/-- Whether `pattern` stands at the end of `text`. -/
def endsWith (text pattern : Text) : Bool :=
  pattern.isSuffixOf text

/-- The text without `ending`, when it ends in it. -/
def withoutEnding (text ending : Text) : Text :=
  if text.endsWith ending then text.take (text.length - ending.length) else text

/-- What stands before the first occurrence of `pattern`, and what stands after it. -/
def find? (pattern : Text) : Text → Option (Text × Text)
  | [] => if pattern.isEmpty then some ([], []) else none
  | c :: rest =>
    if pattern.isPrefixOf (c :: rest) then some ([], (c :: rest).drop pattern.length)
    else (find? pattern rest).map fun (front, back) => (c :: front, back)

/-- The pieces between the occurrences of a separator; always at least one. -/
def splitOn (separator : CodePoint) : Text → List Text
  | [] => [[]]
  | c :: rest =>
    match splitOn separator rest with
    | [] => [[c]]
    | piece :: pieces =>
      if c = separator then [] :: piece :: pieces else (c :: piece) :: pieces

/-- Every occurrence of a code point replaced by a text. -/
def replace (target : CodePoint) (replacement : Text) (text : Text) : Text :=
  text.flatMap fun c => if c = target then replacement else [c]

/-- The texts one after another, with a separator between neighbours. -/
def join (separator : Text) : List Text → Text
  | [] => []
  | [text] => text
  | text :: texts => text ++ separator ++ join separator texts

/-- The order by code point, a shorter text before its extensions. -/
def before : Text → Text → Bool
  | _, [] => false
  | [], _ :: _ => true
  | a :: as, b :: bs => if a = b then before as bs else a.value < b.value

/-- Insertion into a list that is sorted by code point; a text that is there already stays single.
-/
def insertSorted (text : Text) : List Text → List Text
  | [] => [text]
  | other :: rest =>
    if text = other then other :: rest
    else if text.before other then text :: other :: rest
    else other :: insertSorted text rest

/-- The distinct texts of a list, sorted by code point. -/
def sortedSet (texts : List Text) : List Text :=
  texts.foldr insertSorted []

end Text

/-! ## Numerals -/

/-- The decimal numeral of a natural number. -/
def natNumeral (n : Nat) : Text :=
  (Nat.toDigits 10 n).map CodePoint.scalar

/-- The decimal numeral of an integer, with a minus sign below zero. -/
def intNumeral : Int → Text
  | .ofNat n => natNumeral n
  | .negSucc n => '-' :: natNumeral (n + 1)

end Stencil
