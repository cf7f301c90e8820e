import Stencil.Text.Utf8
import Stencil.Yaml.Block

/-!
# Anchors, tags and directives

Names that stand before nodes and before documents.

* `Yaml.readAnchorName`, for anchors and aliases;
* `Yaml.TagLabel` and `Yaml.readTag`, for a tag as it is written: a handle, if there is one, and
  what follows it;
* `Yaml.Directive` and `Yaml.readDirective`.
-/

set_option autoImplicit false

namespace Stencil

namespace Yaml

/-! ## Anchors -/

/-- The code points that can be part of a name, other than those of ASCII. -/
def nameRanges : CodeRanges :=
  [(0x21, 0x7E), (0xA0, 0xD7FF), (0xE000, 0xFEFE), (0xFF00, 0xFFFD), (0x10000, 0x10FFFF)]

/-- The code points of the name of an anchor: all that are visible but the indicators of flow
collections. -/
def isAnchorChar (c : CodePoint) : Bool :=
  c.isIn nameRanges && !isOneOf ",[]\x7b\x7d" c

/-- The name of an anchor or an alias; the cursor is at its sign. -/
def readAnchorName (cursor : Cursor) : Reading Text :=
  let name := cursor.advance.run isAnchorChar
  let behind := cursor.advance.skipWhile isAnchorChar
  if name.isEmpty then .error .malformed
  else if endsWord behind.peek || behind.peek.any (isOneOf "\u2028\u2029?:,[]\x7b\x7d%@`") then
    .ok (name, behind)
  else .error .malformed

/-! ## Tags -/

/-- A tag as it is written: the handle it starts with, if it has one, and what follows. -/
structure TagLabel where
  handle : Option Text
  suffix : Text
  deriving DecidableEq, Repr

/-- The code points of a handle between its signs. -/
def isHandleChar (c : CodePoint) : Bool :=
  c.isAsciiAlphanumeric || isOneOf "-_" c

/-- A handle: a sign, or two with a name between them that may be empty. -/
def readHandle (cursor : Cursor) : Reading Text :=
  let name := cursor.advance.run isHandleChar
  let behind := cursor.advance.skipWhile isHandleChar
  if cursor.peek ≠ some (.scalar '!') then .error .malformed
  else if behind.peek = some (.scalar '!') then
    .ok ((.scalar '!') :: (name ++ [.scalar '!']), behind.advance)
  else if name.isEmpty && behind.peek = some (.scalar ' ') then .ok ("!", behind)
  else .error .malformed

/-- The code points of a tag, the escape sign apart. Under the older rules a number sign is none. -/
def isTagChar (legacy : Bool) (c : CodePoint) : Bool :=
  c.isAsciiAlphanumeric || isOneOf "-;/?:@&=+$,_.!~*'()[]" c || (!legacy && c = '#')

/-- The bytes of the escapes at the start of a text; none when an escape lacks a digit. -/
def escapedBytes? : Text → Option (Bytes × Text)
  | [] => some ([], [])
  | c :: text =>
    if c ≠ '%' then some ([], c :: text)
    else
      match text with
      | high :: low :: rest => do
        let byte := (← high.hexDigit?) * 16 + (← low.hexDigit?)
        let (bytes, behind) ← escapedBytes? rest
        return (UInt8.ofNat byte :: bytes, behind)
      | _ => none

/-- The code points that the escapes at the cursor encode. -/
def readTagEscapes (cursor : Cursor) : Reading Text :=
  match escapedBytes? cursor.rest with
  | none => .error .malformed
  | some (bytes, _) =>
    match Utf8.decode bytes with
    | .ok text => .ok (text, cursor.advanceBy (3 * bytes.length))
    | .error _ => .error .malformed

/-- The code points of a tag from the cursor on, its escapes decoded. -/
def readTagRest (legacy : Bool) : Nat → Cursor → Reading Text
  | 0, _ => .error .malformed
  | steps + 1, cursor =>
    let plain := cursor.run (isTagChar legacy)
    let next := cursor.skipWhile (isTagChar legacy)
    if next.peek = some (.scalar '%') then
      match readTagEscapes next with
      | .error failure => .error failure
      | .ok (text, behind) => prependTo (plain ++ text) (readTagRest legacy steps behind)
    else .ok (plain, next)

/-- A tag behind its handle; it has at least one code point. -/
def readTagSuffix (legacy : Bool) (cursor : Cursor) : Reading Text :=
  match readTagRest legacy cursor.steps cursor with
  | .ok ([], _) => .error .malformed
  | reading => reading

/-- Whether another sign follows within the word, so that what is before it is a handle. -/
def hasInnerSign (cursor : Cursor) : Bool :=
  (cursor.rest.takeWhile fun c => !endsName (some c)).contains '!'

/-- What a tag says behind its signs; the cursor is at the last of them and `signs` are all. -/
def readTagBody (legacy : Bool) (signs : Text) (cursor : Cursor) : Reading TagLabel :=
  let next := cursor.advance
  if next.peek = some (.scalar '<') then
    match readTagSuffix legacy next.advance with
    | .error failure => .error failure
    | .ok (suffix, behind) =>
      if behind.peek = some (.scalar '>') then .ok (⟨none, suffix⟩, behind.advance)
      else .error .malformed
  else if endsWord next.peek then .ok (⟨none, signs⟩, next)
  else
    let handle : Reading Text := if hasInnerSign next then readHandle cursor else .ok (signs, next)
    match handle with
    | .error failure => .error failure
    | .ok (handle, behind) =>
      match readTagSuffix legacy behind with
      | .error failure => .error failure
      | .ok (suffix, behind) => .ok (⟨some handle, suffix⟩, behind)

/-- A tag; the cursor is at its sign. -/
def readTag (legacy : Bool) (cursor : Cursor) : Reading TagLabel :=
  let label :=
    if cursor.advance.peek = some (.scalar '!') then readTagBody legacy "!!" cursor.advance
    else readTagBody legacy "!" cursor
  match label with
  | .error failure => .error failure
  | .ok (label, behind) => if endsName behind.peek then .ok (label, behind) else .error .malformed

/-! ## Directives -/

/-- A line before a document: the version of its rules, what a handle stands for, or anything else.
-/
inductive Directive where
  | version (major minor : Nat)
  | handle (handle expansion : Text)
  | other
  deriving DecidableEq, Repr

/-- The code points of the name of a directive. -/
def isDirectiveChar (c : CodePoint) : Bool :=
  c.isAsciiAlphanumeric || isOneOf "-_:." c

/-- A decimal number. -/
def readNumber (cursor : Cursor) : Reading Nat :=
  let digits := cursor.run CodePoint.isAsciiDigit
  if digits.isEmpty then .error .malformed
  else
    .ok (digits.foldl (fun n c => n * 10 + (c.value - 0x30)) 0,
      cursor.skipWhile CodePoint.isAsciiDigit)

/-- The two numbers of a version. -/
def readVersion (cursor : Cursor) : Reading Directive :=
  match readNumber cursor with
  | .error failure => .error failure
  | .ok (major, behind) =>
    if behind.peek ≠ some (.scalar '.') then .error .malformed
    else
      match readNumber behind.advance with
      | .error failure => .error failure
      | .ok (minor, behind) =>
        if endsName behind.peek then .ok (.version major minor, behind) else .error .malformed

/-- A handle and what it stands for. -/
def readExpansion (legacy : Bool) (cursor : Cursor) : Reading Directive :=
  match readHandle cursor with
  | .error failure => .error failure
  | .ok (handle, behind) =>
    if behind.peek ≠ some (.scalar ' ') then .error .malformed
    else
      match readTagSuffix legacy (behind.skipWhile fun c => c = ' ') with
      | .error failure => .error failure
      | .ok (expansion, behind) =>
        if endsName behind.peek then .ok (.handle handle expansion, behind) else .error .malformed

/-- A directive with the rest of its line; the cursor is at its sign. -/
def readDirective (legacy : Bool) (cursor : Cursor) : Reading Directive :=
  let name := cursor.advance.run isDirectiveChar
  let behind := cursor.advance.skipWhile isDirectiveChar
  let start := behind.skipWhile fun c => c = ' '
  let directive : Reading Directive :=
    if name.isEmpty || !endsName behind.peek then .error .malformed
    else if name = "YAML" then readVersion start
    else if name = "TAG" then readExpansion legacy start
    else .ok (.other, behind.skipWhile fun c => !endsLine (some c))
  match directive with
  | .error failure => .error failure
  | .ok (directive, behind) =>
    match skipIgnoredLine behind with
    | .error failure => .error failure
    | .ok next => .ok (directive, next)

end Yaml

end Stencil
