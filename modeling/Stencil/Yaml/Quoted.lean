import Stencil.Yaml.Cursor

/-!
# Quoted scalars

Between single quotes only a doubled quote is special; between double quotes a backslash starts an
escape. In both a line break with the blanks around it folds: one break is a space, of several the
first one falls away. No marker between documents may start a line inside quotes.

* `Yaml.foldedBreaks` and `Yaml.quotedGap`, for the blanks and breaks inside;
* `Yaml.readEscape`, for what stands behind a backslash;
* `Yaml.readQuoted`, a whole scalar.
-/

set_option autoImplicit false

namespace Stencil

namespace Yaml

/-- The line breaks that follow one that was read, with the blanks between them left out. -/
def foldedBreaks : Nat → Cursor → Reading Text
  | 0, _ => .error .malformed
  | steps + 1, cursor =>
    if cursor.isAtAnyMarker then .error .malformed
    else
      let (lineBreak, next) := (cursor.skipWhile isGap).lineBreak
      if lineBreak.isEmpty then .ok ([], next) else prependTo lineBreak (foldedBreaks steps next)

/-- Line breaks folded: the first one is a space when it is alone and nothing otherwise, unless it
is one of the separators, which stay. -/
def foldBreaks (first more : Text) : Text :=
  if first ≠ ("\n" : Text) then first ++ more else if more.isEmpty then [' '] else more

/-- A run of blanks inside quotes; with line breaks it is folded. -/
def quotedGap (cursor : Cursor) : Reading Text :=
  let (lineBreak, next) := (cursor.skipWhile isGap).lineBreak
  if lineBreak.isEmpty then .ok (cursor.run isGap, next)
  else
    match foldedBreaks next.steps next with
    | .ok (more, behind) => .ok (foldBreaks lineBreak more, behind)
    | .error failure => .error failure

/-- The code point that an escape with one letter stands for. -/
def simpleEscape? (c : CodePoint) : Option CodePoint :=
  if c = '0' then some '\x00'
  else if c = 'a' then some '\x07'
  else if c = 'b' then some '\x08'
  else if c = 't' ∨ c = '\t' then some '\t'
  else if c = 'n' then some '\n'
  else if c = 'v' then some '\x0b'
  else if c = 'f' then some '\x0c'
  else if c = 'r' then some '\r'
  else if c = 'e' then some '\x1b'
  else if c = ' ' ∨ c = '"' ∨ c = '/' ∨ c = '\\' then some c
  else if c = 'N' then some '\u0085'
  else if c = '_' then some '\u00a0'
  else if c = 'L' then some '\u2028'
  else if c = 'P' then some '\u2029'
  else none

/-- How many hexadecimal digits an escape by number has. -/
def escapeWidth? (c : CodePoint) : Option Nat :=
  if c = 'x' then some 2
  else if c = 'u' then some 4
  else if c = 'U' then some 8
  else none

/-- The number of a row of hexadecimal digits. -/
def hexValue? (digits : Text) : Option Nat :=
  digits.foldl (fun value c => do return (← value) * 16 + (← c.hexDigit?)) (some 0)

/-- The code point whose number is the `width` hexadecimal digits at the cursor. -/
def readCode (width : Nat) (cursor : Cursor) : Reading Text :=
  let digits := cursor.rest.take width
  if digits.length < width then .error .malformed
  else
    match hexValue? digits with
    | none => .error .malformed
    | some value =>
      match CodePoint.ofValue? value with
      | some c => .ok ([c], cursor.advanceBy width)
      | none => .error (.scalar .codePoint)

/-- What an escape stands for; the cursor is behind its backslash. An escaped line break stands for
nothing, together with the blanks that follow it. -/
def readEscape (cursor : Cursor) : Reading Text :=
  match cursor.peek with
  | none => .error .malformed
  | some c =>
    match simpleEscape? c, escapeWidth? c with
    | some escaped, _ => .ok ([escaped], cursor.advance)
    | none, some width => readCode width cursor.advance
    | none, none =>
      if isBreak c then foldedBreaks cursor.steps cursor.lineBreak.2 else .error .malformed

/-- The rest of a quoted scalar up to its closing quote. -/
def readQuotedRest (double : Bool) : Nat → Cursor → Reading Text
  | 0, _ => .error .malformed
  | steps + 1, cursor =>
    match cursor.rest with
    | [] => .error .malformed
    | c :: rest =>
      if double && c = '"' then .ok ([], cursor.advance)
      else if double && c = '\\' then
        match readEscape cursor.advance with
        | .ok (text, next) => prependTo text (readQuotedRest double steps next)
        | .error failure => .error failure
      else if !double && c = '\'' then
        if rest.head? = some (.scalar '\'') then
          prependTo ['\''] (readQuotedRest double steps (cursor.advanceBy 2))
        else .ok ([], cursor.advance)
      else if isGap c || isBreak c then
        match quotedGap cursor with
        | .ok (text, next) => prependTo text (readQuotedRest double steps next)
        | .error failure => .error failure
      else prependTo [c] (readQuotedRest double steps cursor.advance)

/-- A scalar between quotes; the cursor is at the opening one. -/
def readQuoted (double : Bool) (cursor : Cursor) : Reading Text :=
  readQuotedRest double cursor.steps cursor.advance

end Yaml

end Stencil
