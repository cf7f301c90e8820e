import Stencil.Yaml.Quoted

/-!
# Block scalars

A block scalar is the lines below its header that are indented by as much as its first line, or by
as much as the header says. A literal one keeps its line breaks; a folded one joins lines that
neither start with a blank. The header also says what becomes of the line breaks at the end.

* `Yaml.Chomping` and `Yaml.BlockHeader`;
* `Yaml.readBlockHeader`, `Yaml.blockLines`;
* `Yaml.readBlock`.
-/

set_option autoImplicit false

namespace Stencil

namespace Yaml

/-- What becomes of the line breaks at the end: one stays, none, or all. -/
inductive Chomping where
  | clip
  | strip
  | keep
  deriving DecidableEq, Repr

/-- What the header of a block scalar says. -/
structure BlockHeader where
  chomping : Chomping
  increment : Option Nat
  deriving DecidableEq, Repr

/-- The chomping that a sign in the header asks for. -/
def chomping? : Option CodePoint → Option Chomping
  | some c => if c = '+' then some .keep else if c = '-' then some .strip else none
  | none => none

/-- The digit in the header. -/
def increment? : Option CodePoint → Option Nat
  | some c => if c.isAsciiDigit then some (c.value - 0x30) else none
  | none => none

/-- The sign and the digit behind the indicator of a block scalar, in either order. Zero is no
indentation. -/
def readIndicators (cursor : Cursor) : Reading BlockHeader :=
  let first := chomping? cursor.peek
  let behind := if first.isSome then cursor.advance else cursor
  let increment := increment? behind.peek
  let behind := if increment.isSome then behind.advance else behind
  let last := if first.isNone && increment.isSome then chomping? behind.peek else none
  let behind := if last.isSome then behind.advance else behind
  if increment = some 0 || !endsName behind.peek then .error .malformed
  else .ok (⟨(first <|> last).getD .clip, increment⟩, behind)

/-- The cursor behind the rest of a line that holds nothing but spaces and a comment. -/
def skipIgnoredLine (cursor : Cursor) : Except Failure Cursor :=
  let cursor := cursor.skipWhile fun c => c = ' '
  let cursor :=
    if cursor.peek = some (.scalar '#') then cursor.skipWhile fun c => !endsLine (some c)
    else cursor
  if endsAtBreak cursor.peek then .ok cursor.lineBreak.2 else .error .malformed

/-- The whole header; the cursor is at the indicator. -/
def readBlockHeader (cursor : Cursor) : Reading BlockHeader :=
  match readIndicators cursor.advance with
  | .error failure => .error failure
  | .ok (header, behind) =>
    match skipIgnoredLine behind with
    | .error failure => .error failure
    | .ok next => .ok (header, next)

/-! ## Lines -/

/-- The empty lines at the start of a block scalar whose indentation is not given: the column of the
first of them, the deepest column reached, and their breaks. -/
structure Opening where
  firstColumn : Option Nat
  deepest : Nat
  breaks : Text
  cursor : Cursor
  deriving DecidableEq, Repr

/-- Goes over the spaces and breaks before the first line with content. -/
def Opening.go : Nat → Opening → Opening
  | 0, opening => opening
  | steps + 1, opening =>
    match opening.cursor.lineBreak with
    | ([], _) =>
      if opening.cursor.peek = some (.scalar ' ') then
        let next := opening.cursor.advance
        go steps { opening with deepest := max opening.deepest next.column, cursor := next }
      else opening
    | (lineBreak, next) =>
      go steps
        { opening with
          firstColumn := opening.firstColumn <|> some opening.cursor.column
          breaks := opening.breaks ++ lineBreak
          cursor := next }

/-- The spaces and breaks before the first line with content. A line deeper than the first empty one
is refused when that one has spaces. -/
def readOpening (cursor : Cursor) : Except Failure Opening :=
  let opening := Opening.go cursor.steps ⟨none, 0, [], cursor⟩
  let first := opening.firstColumn.getD 0
  if 0 < first ∧ first < opening.deepest then .error .malformed else .ok opening

/-- The cursor behind the spaces of an indentation of `indent` columns. -/
def skipIndent (indent : Nat) (cursor : Cursor) : Cursor :=
  cursor.advanceBy (min (indent - cursor.column) (cursor.run fun c => c = ' ').length)

/-- The breaks of empty lines, and the cursor behind the indentation of the line that follows. -/
def emptyLines (indent : Nat) : Nat → Cursor → Text × Cursor
  | 0, cursor => ([], cursor)
  | steps + 1, cursor =>
    match (skipIndent indent cursor).lineBreak with
    | ([], next) => ([], next)
    | (lineBreak, next) =>
      let (more, behind) := emptyLines indent steps next
      (lineBreak ++ more, behind)

/-- How the lines of a block scalar are put together: whether they are folded, their indentation,
and whether a marker between documents ends them. -/
structure BlockStyle where
  folded : Bool
  indent : Nat
  outermost : Bool
  deriving DecidableEq, Repr

/-- The lines of a block scalar, with the last line break and the breaks behind it apart. -/
structure BlockBody where
  text : Text
  lastBreak : Text
  trailing : Text
  cursor : Cursor
  deriving DecidableEq, Repr

/-- What joins a line and the next: `lineBreak` ends the line and `breaks` are the empty lines
between them. -/
def lineJoint (folded plainStart : Bool) (lineBreak breaks : Text) : Text :=
  if folded && lineBreak = ("\n" : Text) && plainStart then
    if breaks.isEmpty then [' '] else breaks
  else lineBreak ++ breaks

/-- The lines of a block scalar from the cursor on. -/
def blockLines (style : BlockStyle) : Nat → Cursor → BlockBody
  | 0, cursor => ⟨[], [], [], cursor⟩
  | steps + 1, cursor =>
    let startsPlain (cursor : Cursor) : Bool := !(cursor.peek.any isGap)
    let line := cursor.run fun c => !endsLine (some c)
    let (lineBreak, next) := (cursor.advanceBy line.length).lineBreak
    let (breaks, behind) := emptyLines style.indent next.steps next
    if behind.column ≠ style.indent || behind.peek.isNone ||
        (style.outermost && behind.column = 0 && behind.isAtAnyMarker) then
      ⟨line, lineBreak, breaks, behind⟩
    else
      let joint :=
        lineJoint style.folded (startsPlain cursor && startsPlain behind) lineBreak breaks
      let more := blockLines style steps behind
      { more with text := line ++ joint ++ more.text }

/-- What the header lets stay of the breaks at the end. -/
def Chomping.ending (chomping : Chomping) (lastBreak trailing : Text) : Text :=
  match chomping with
  | .clip => lastBreak
  | .strip => []
  | .keep => lastBreak ++ trailing

/-- The content of a block scalar behind its header, with `breaks` read already. -/
def readBlockBody (style : BlockStyle) (chomping : Chomping) (breaks : Text) (cursor : Cursor) :
    Text × Cursor :=
  if cursor.column = style.indent ∧ cursor.peek.isSome then
    let body := blockLines style cursor.steps cursor
    (breaks ++ body.text ++ chomping.ending body.lastBreak body.trailing, body.cursor)
  else (chomping.ending [] breaks, cursor)

/-- A block scalar in a collection of column `indent`; the cursor is at its indicator. -/
def readBlock (folded : Bool) (indent : Int) (cursor : Cursor) : Reading Text :=
  match readBlockHeader cursor with
  | .error failure => .error failure
  | .ok (header, behind) =>
    let least := (indent + 1).toNat
    match header.increment with
    | some increment =>
      let style : BlockStyle := ⟨folded, max 1 least + increment - 1, false⟩
      let (breaks, next) := emptyLines style.indent behind.steps behind
      .ok (readBlockBody style header.chomping breaks next)
    | none =>
      match readOpening behind with
      | .error failure => .error failure
      | .ok opening =>
        let style : BlockStyle := ⟨folded, max least opening.deepest, least = 0⟩
        .ok (readBlockBody style header.chomping opening.breaks opening.cursor)

end Yaml

end Stencil
