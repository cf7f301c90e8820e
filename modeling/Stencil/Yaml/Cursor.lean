import Stencil.Number.Numeral
import Stencil.Text.Ranges

/-!
# Places in a YAML text

Indentation carries meaning, so reading keeps track of lines and columns: a `Cursor` is the text
that is left, with the place where it starts.

* `Yaml.ScalarFault` and `Yaml.Failure`, why there is no value;
* `Yaml.Reading`, what was read and where reading goes on;
* the ends of lines, of words and of texts;
* `Yaml.Cursor`, moved by `advance`, `advanceBy`, `skipWhile` and `lineBreak`.
-/

set_option autoImplicit false

namespace Stencil

namespace Yaml

/-- What is wrong with a scalar that has no value in its type. -/
inductive ScalarFault where
  | numeral (fault : NumeralFault)
  | invalidFloat (numeral : Text)
  | codePoint
  | year (number : Nat)
  | month
  | day
  | hour
  | minute
  | second
  | zone (minutes : Int)
  deriving DecidableEq, Repr

/-- Why a text is no YAML document: it is malformed, a collection in it is too deep in others, or a
scalar in it is not what its type allows. -/
inductive Failure where
  | malformed
  | tooDeep
  | scalar (fault : ScalarFault)
  deriving DecidableEq, Repr

/-! ## Line breaks and ends -/

/-- The code points that end a line, together or alone. -/
def isBreak (c : CodePoint) : Bool :=
  c = '\n' || c = '\r' || c = '\u0085' || c = '\u2028' || c = '\u2029'

/-- The blanks inside a line. -/
def isGap (c : CodePoint) : Bool :=
  c = ' ' || c = '\t'

/-- The code points of `string`, as a class. -/
def isOneOf (string : String) (c : CodePoint) : Bool :=
  (string : Text).contains c

/-- Whether a line of content ends here: at a break other than the two separators, or with the text.
-/
def endsLine : Option CodePoint → Bool
  | none => true
  | some c => c = '\n' || c = '\r' || c = '\u0085'

/-- Whether a word ends here: at a blank or with its line. -/
def endsWord : Option CodePoint → Bool
  | none => true
  | some c => endsLine (some c) || isGap c

/-- Whether a line ends here at any break, or with the text. -/
def endsAtBreak : Option CodePoint → Bool
  | none => true
  | some c => isBreak c

/-- Whether a name ends here: at a space, at any break, or with the text. -/
def endsName : Option CodePoint → Bool
  | none => true
  | some c => c = ' ' || isBreak c

/-! ## Cursors -/

/-- The text that is left, with how many code points are before it, its line and its column. -/
structure Cursor where
  rest : Text
  index : Nat
  line : Nat
  column : Nat
  deriving DecidableEq, Repr

/-- What was read, and the cursor behind it. -/
abbrev Reading (α : Type) := Except Failure (α × Cursor)

/-- Puts a text before the one that a reading yields. -/
def prependTo (front : Text) : Reading Text → Reading Text
  | .ok (text, cursor) => .ok (front ++ text, cursor)
  | .error failure => .error failure

namespace Cursor

/-- The cursor at the start of a text. -/
def start (text : Text) : Cursor :=
  ⟨text, 0, 0, 0⟩

/-- The code point at the cursor, if the text has not ended. -/
def peek (cursor : Cursor) : Option CodePoint :=
  cursor.rest.head?

/-- The code point `n` places behind the cursor. -/
def ahead (n : Nat) (cursor : Cursor) : Option CodePoint :=
  cursor.rest[n]?

/-- The cursor one code point further. A carriage return before a newline does not end the line yet,
and a byte order mark takes no column. -/
def advance (cursor : Cursor) : Cursor :=
  match cursor.rest with
  | [] => cursor
  | c :: rest =>
    if isBreak c && !(c = '\r' && rest.head? = some (.scalar '\n')) then
      ⟨rest, cursor.index + 1, cursor.line + 1, 0⟩
    else if c = '\ufeff' then ⟨rest, cursor.index + 1, cursor.line, cursor.column⟩
    else ⟨rest, cursor.index + 1, cursor.line, cursor.column + 1⟩

/-- The cursor `n` code points further. -/
def advanceBy : Nat → Cursor → Cursor
  | 0, cursor => cursor
  | n + 1, cursor => advanceBy n cursor.advance

/-- The longest run of code points of a class. -/
def run (p : CodePoint → Bool) (cursor : Cursor) : Text :=
  cursor.rest.takeWhile p

/-- The cursor behind the longest run of code points of a class. -/
def skipWhile (p : CodePoint → Bool) (cursor : Cursor) : Cursor :=
  cursor.advanceBy (cursor.run p).length

/-- The line break at the cursor, made a newline unless it is one of the two separators; no text
when there is none. -/
def lineBreak (cursor : Cursor) : Text × Cursor :=
  match cursor.rest with
  | [] => ([], cursor)
  | c :: rest =>
    if c = '\r' ∧ rest.head? = some (.scalar '\n') then (['\n'], cursor.advanceBy 2)
    else if c = '\u2028' ∨ c = '\u2029' then ([c], cursor.advance)
    else if isBreak c then (['\n'], cursor.advance)
    else ([], cursor)

/-- Whether a marker between documents stands at the cursor: three equal signs and the end of a
word. -/
def isAtMarker (sign : CodePoint) (cursor : Cursor) : Bool :=
  [sign, sign, sign].isPrefixOf cursor.rest && endsWord (cursor.ahead 3)

/-- Whether one of the two markers between documents stands at the cursor. -/
def isAtAnyMarker (cursor : Cursor) : Bool :=
  cursor.isAtMarker '-' || cursor.isAtMarker '.'

/-- More than enough steps for any loop that takes a code point each time. -/
def steps (cursor : Cursor) : Nat :=
  cursor.rest.length + 1

end Cursor

end Yaml

end Stencil
