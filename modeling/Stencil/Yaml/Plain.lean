import Stencil.Yaml.Quoted

/-!
# Plain scalars

A scalar without quotes runs as far as nothing can be taken for an indicator: to a colon that ends a
word, to a comment, and inside brackets to whatever belongs to them. It may go on over lines that
are indented deeper than what it stands in.

* `Yaml.PlainContext`, what is around a plain scalar;
* `Yaml.endsPlain`, where one stops within a line;
* `Yaml.readPlain`.
-/

set_option autoImplicit false

namespace Stencil

namespace Yaml

/-- What a plain scalar stands in: whether within brackets, whether under the older rules, in which
a question mark ends it there, and the column of the block collection around it. -/
structure PlainContext where
  flow : Bool
  legacy : Bool
  indent : Int
  deriving DecidableEq, Repr

/-- A plain scalar as it was read: its text, the line break behind it noted, and where reading goes
on. -/
structure PlainScalar where
  text : Text
  crossed : Bool
  cursor : Cursor
  deriving DecidableEq, Repr

/-- Whether a plain scalar stops at `c` with `next` behind it. -/
def endsPlain (context : PlainContext) (c : CodePoint) (next : Option CodePoint) : Bool :=
  if c = ':' then endsWord next
  else if c = '?' then context.flow && context.legacy
  else endsWord (some c) || (context.flow && isOneOf ",[]\x7b\x7d" c)

/-- How many code points belong to the scalar before it stops. -/
def plainLength (context : PlainContext) : Text → Nat
  | [] => 0
  | c :: rest => if endsPlain context c rest.head? then 0 else plainLength context rest + 1

/-- The line breaks and the spaces that follow a line break, up to a marker between documents; no
breaks when there is such a marker. -/
def plainBreaks : Nat → Cursor → Option Text × Cursor
  | 0, cursor => (none, cursor)
  | steps + 1, cursor =>
    match cursor.lineBreak with
    | ([], _) =>
      if cursor.peek = some (.scalar ' ') then plainBreaks steps cursor.advance
      else (some [], cursor)
    | (lineBreak, next) =>
      if next.isAtAnyMarker then (none, next)
      else
        let (more, behind) := plainBreaks steps next
        (more.map (lineBreak ++ ·), behind)

/-- What stands between two words of a plain scalar. It is empty where the scalar cannot go on. -/
def plainGap (cursor : Cursor) : PlainScalar :=
  let spaces := cursor.run fun c => c = ' '
  let behind := cursor.skipWhile fun c => c = ' '
  match behind.lineBreak with
  | ([], _) => ⟨spaces, false, behind⟩
  | (lineBreak, next) =>
    if next.isAtAnyMarker then ⟨[], true, next⟩
    else
      match plainBreaks next.steps next with
      | (none, behind) => ⟨[], true, behind⟩
      | (some more, behind) => ⟨foldBreaks lineBreak more, true, behind⟩

/-- The words of a plain scalar from the cursor on; `crossed` tells whether a line break is just
before it. -/
def readPlainFrom (context : PlainContext) : Nat → Bool → Cursor → PlainScalar
  | 0, crossed, cursor => ⟨[], crossed, cursor⟩
  | steps + 1, crossed, cursor =>
    let length := plainLength context cursor.rest
    if length = 0 then ⟨[], crossed, cursor⟩
    else
      let word := cursor.rest.take length
      let gap := plainGap (cursor.advanceBy length)
      if gap.text.isEmpty || gap.cursor.peek = some (.scalar '#') ||
          (!context.flow && (gap.cursor.column : Int) ≤ context.indent) then
        ⟨word, gap.crossed, gap.cursor⟩
      else
        let more := readPlainFrom context steps gap.crossed gap.cursor
        if more.text.isEmpty then { more with text := word }
        else { more with text := word ++ gap.text ++ more.text }

/-- A plain scalar at the cursor. -/
def readPlain (context : PlainContext) (cursor : Cursor) : PlainScalar :=
  readPlainFrom context cursor.steps false cursor

end Yaml

end Stencil
