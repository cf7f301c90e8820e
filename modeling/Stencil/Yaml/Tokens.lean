import Stencil.Yaml.Plain
import Stencil.Yaml.Token

/-!
# Cutting a text into tokens

Block collections open and close with the indentation, and a key shows itself only at the colon
behind it. So each place where a key may start is remembered as a candidate, and the tokens that
open the key are put in there when the colon comes on the same line, within 1024 code points.

* `Yaml.Candidate` and `Yaml.Scan`, the state of the work;
* `Scan.step`, one token with those that its indentation brings;
* `Yaml.tokens`, the whole text.
-/

set_option autoImplicit false

namespace Stencil

namespace Yaml

/-- A place where a key may start: how many brackets are open there, how many tokens stand before
it, and where it is. Where a key is required, no other thing may follow. -/
structure Candidate where
  level : Nat
  token : Nat
  required : Bool
  index : Nat
  line : Nat
  column : Nat
  deriving DecidableEq, Repr

/-- A text cut up to the cursor. `flow` are the open brackets and `indents` the columns of the open
block collections, innermost first, with -1 outside all of them. -/
structure Scan where
  cursor : Cursor
  tokens : Array Token
  legacy : Bool
  flow : List Bracket
  indent : Int
  indents : List Int
  keyAllowed : Bool
  candidates : List Candidate

namespace Scan

/-- The scan at the start of a text. -/
def start (text : Text) : Scan :=
  ⟨.start text, #[], false, [], -1, [], true, []⟩

/-- Adds a token. -/
def emit (token : Token) (scan : Scan) : Scan :=
  { scan with tokens := scan.tokens.push token }

/-- Moves the cursor. -/
def moveTo (cursor : Cursor) (scan : Scan) : Scan :=
  { scan with cursor := cursor }

/-- Sets whether a key may start at the next token. -/
def allowKey (allowed : Bool) (scan : Scan) : Scan :=
  { scan with keyAllowed := allowed }

/-- What a plain scalar at the cursor stands in. -/
def plainContext (scan : Scan) : PlainContext :=
  ⟨!scan.flow.isEmpty, scan.legacy, scan.indent⟩

/-! ## Candidates for keys -/

/-- Whether a candidate is out of reach: on another line, or too far back. -/
def isStale (cursor : Cursor) (candidate : Candidate) : Bool :=
  candidate.line ≠ cursor.line || 1024 < cursor.index - candidate.index

/-- Gives up the candidates that are out of reach; a required one may not be. -/
def dropStale (scan : Scan) : Except Failure Scan :=
  let (stale, kept) := scan.candidates.partition (isStale scan.cursor)
  if stale.any Candidate.required then .error .malformed
  else .ok { scan with candidates := kept }

/-- The candidate within the innermost brackets. -/
def candidate? (scan : Scan) : Option Candidate :=
  scan.candidates.find? fun candidate => candidate.level = scan.flow.length

/-- The scan without the candidate within the innermost brackets. -/
def withoutCandidate (scan : Scan) : Scan :=
  { scan with
    candidates := scan.candidates.filter fun candidate => candidate.level ≠ scan.flow.length }

/-- Gives up the candidate within the innermost brackets, which may not be a required one. -/
def dropCandidate (scan : Scan) : Except Failure Scan :=
  if scan.candidate?.any Candidate.required then .error .malformed else .ok scan.withoutCandidate

/-- Notes that a key may start at the cursor, if one is allowed here. -/
def noteCandidate (scan : Scan) : Except Failure Scan :=
  if !scan.keyAllowed then .ok scan
  else
    match scan.dropCandidate with
    | .error failure => .error failure
    | .ok scan =>
      let cursor := scan.cursor
      let candidate : Candidate :=
        { level := scan.flow.length
          token := scan.tokens.size
          required := scan.flow.isEmpty && scan.indent = cursor.column
          index := cursor.index
          line := cursor.line
          column := cursor.column }
      .ok { scan with candidates := candidate :: scan.candidates }

/-! ## Indentation -/

/-- Closes the block collections that are deeper than a column. -/
def closeDeeper (column : Int) (indents : List Int) (indent : Int) (tokens : Array Token) :
    Int × List Int × Array Token :=
  if column < indent then
    match indents with
    | [] => (indent, [], tokens)
    | outer :: rest => closeDeeper column rest outer (tokens.push .blockEnd)
  else (indent, indents, tokens)
termination_by structural indents

/-- Closes the block collections that are deeper than a column. Within brackets columns do not
matter. -/
def unwind (column : Int) (scan : Scan) : Scan :=
  if scan.flow.isEmpty then
    let (indent, indents, tokens) := closeDeeper column scan.indents scan.indent scan.tokens
    { scan with indent := indent, indents := indents, tokens := tokens }
  else scan

/-- Puts tokens in before the one with a number. -/
def insertAt (place : Nat) (tokens : List Token) (scan : Scan) : Scan :=
  { scan with
    tokens := (scan.tokens.toList.take place ++ tokens ++ scan.tokens.toList.drop place).toArray }

/-- Opens a block collection at a column if it is deeper than the one around it; its first token
goes to a place among the others. -/
def openBlock (opening : Token) (column place : Nat) (scan : Scan) : Scan :=
  if scan.flow.isEmpty && scan.indent < column then
    let scan := scan.insertAt place [opening]
    { scan with indent := column, indents := scan.indent :: scan.indents }
  else scan

/-! ## Blanks and comments -/

/-- The cursor at the next token, and whether a line break is before it. -/
def nextToken (inFlow : Bool) : Nat → Bool → Cursor → Bool × Cursor
  | 0, crossed, cursor => (crossed, cursor)
  | steps + 1, crossed, cursor =>
    let cursor := cursor.skipWhile fun c => c = ' ' || (inFlow && c = '\t')
    let cursor :=
      if cursor.peek = some (.scalar '#') then cursor.skipWhile fun c => !endsLine (some c)
      else cursor
    match cursor.lineBreak with
    | ([], _) => (crossed, cursor)
    | (_, next) => nextToken inFlow steps true next

/-- Goes on to the next token. A line break outside brackets allows a key to follow, and a byte
order mark is passed over at the very start. -/
def skipToToken (scan : Scan) : Scan :=
  let cursor := scan.cursor
  let cursor :=
    if cursor.index = 0 ∧ cursor.peek = some (.scalar '\ufeff') then cursor.advance else cursor
  let (crossed, next) := nextToken (!scan.flow.isEmpty) cursor.steps false cursor
  { scan with cursor := next, keyAllowed := scan.keyAllowed || (crossed && scan.flow.isEmpty) }

/-! ## Single tokens -/

/-- A token of one code point. -/
def emitSign (token : Token) (scan : Scan) : Scan :=
  (scan.moveTo scan.cursor.advance).emit token

/-- A mark or a line between documents closes all that is open. -/
def betweenDocuments (scan : Scan) : Except Failure Scan := do
  let scan ← (scan.unwind (-1)).dropCandidate
  return scan.allowKey false

/-- The end of the text. -/
def takeEnd (scan : Scan) : Except Failure Scan := do
  return (← scan.betweenDocuments).emit .streamEnd

/-- A directive; that of version 1.1 brings its rules with it. -/
def takeDirective (scan : Scan) : Except Failure Scan := do
  let scan ← scan.betweenDocuments
  let (directive, next) ← readDirective scan.legacy scan.cursor
  let legacy :=
    match directive with
    | .version major minor => major = 1 && minor = 1
    | _ => scan.legacy
  return { (scan.moveTo next).emit (.directive directive) with legacy := legacy }

/-- A marker between documents. -/
def takeMarker (token : Token) (scan : Scan) : Except Failure Scan := do
  let scan ← scan.betweenDocuments
  return (scan.moveTo (scan.cursor.advanceBy 3)).emit token

/-- An opening bracket, which may start a key as a whole. -/
def takeFlowStart (bracket : Bracket) (scan : Scan) : Except Failure Scan := do
  let scan ← scan.noteCandidate
  return ({ scan with flow := bracket :: scan.flow }.allowKey true).emitSign (.flowStart bracket)

/-- A closing bracket. -/
def takeFlowEnd (bracket : Bracket) (scan : Scan) : Except Failure Scan := do
  let scan ← scan.dropCandidate
  return ({ scan with flow := scan.flow.tail }.allowKey false).emitSign (.flowEnd bracket)

/-- A comma between brackets. -/
def takeFlowEntry (scan : Scan) : Except Failure Scan := do
  let scan ← scan.dropCandidate
  return (scan.allowKey true).emitSign .flowEntry

/-- The dash before an entry of a block sequence. -/
def takeBlockEntry (scan : Scan) : Except Failure Scan := do
  if scan.flow.isEmpty && !scan.keyAllowed then throw .malformed
  let scan := scan.openBlock .blockSequenceStart scan.cursor.column scan.tokens.size
  let scan ← (scan.allowKey true).dropCandidate
  return scan.emitSign .blockEntry

/-- The question mark before a key. -/
def takeKey (scan : Scan) : Except Failure Scan := do
  if scan.flow.isEmpty && !scan.keyAllowed then throw .malformed
  let scan := scan.openBlock .blockMappingStart scan.cursor.column scan.tokens.size
  let scan ← (scan.allowKey scan.flow.isEmpty).dropCandidate
  return scan.emitSign .key

/-- The colon before a value. A candidate becomes the key; otherwise the key has been marked by its
own sign, or it is empty. -/
def takeValue (scan : Scan) : Except Failure Scan := do
  match scan.candidate? with
  | some candidate =>
    let scan := scan.withoutCandidate.insertAt candidate.token [.key]
    let scan := scan.openBlock .blockMappingStart candidate.column candidate.token
    return (scan.allowKey false).emitSign .value
  | none =>
    if scan.flow.isEmpty && !scan.keyAllowed then throw .malformed
    let scan := scan.openBlock .blockMappingStart scan.cursor.column scan.tokens.size
    return (scan.allowKey scan.flow.isEmpty).emitSign .value

/-- A token that may start a key. -/
def takeWord (read : Scan → Reading Token) (scan : Scan) : Except Failure Scan := do
  let scan ← scan.noteCandidate
  let (token, next) ← read scan
  return ((scan.allowKey false).moveTo next).emit token

/-- A plain scalar; a line break behind it allows a key. -/
def takePlain (scan : Scan) : Except Failure Scan := do
  let scan ← scan.noteCandidate
  let plain := readPlain scan.plainContext scan.cursor
  return ((scan.allowKey plain.crossed).moveTo plain.cursor).emit (.scalar plain.text true)

/-- A block scalar, which starts no key. -/
def takeBlockScalar (folded : Bool) (scan : Scan) : Except Failure Scan := do
  let scan ← scan.dropCandidate
  let (text, next) ← readBlock folded scan.indent scan.cursor
  return ((scan.allowKey true).moveTo next).emit (.scalar text false)

/-- An alias, an anchor, a tag or a quoted scalar, if its sign is at the cursor. -/
def wordAt? (c : CodePoint) : Option (Scan → Reading Token) :=
  let mapFirst {α : Type} (f : α → Token) (reading : Reading α) : Reading Token :=
    reading.map fun (a, next) => (f a, next)
  if c = '*' then some fun scan => mapFirst .reference (readAnchorName scan.cursor)
  else if c = '&' then some fun scan => mapFirst .anchor (readAnchorName scan.cursor)
  else if c = '!' then some fun scan => mapFirst .tag (readTag scan.legacy scan.cursor)
  else if c = '\'' then some fun scan => mapFirst (.scalar · false) (readQuoted false scan.cursor)
  else if c = '"' then some fun scan => mapFirst (.scalar · false) (readQuoted true scan.cursor)
  else none

/-! ## Which token it is -/

/-- Whether the question mark at the cursor is the sign of a key. -/
def isAtKey (scan : Scan) : Bool :=
  !scan.flow.isEmpty || endsWord (scan.cursor.ahead 1)

/-- Whether the colon at the cursor is the sign of a value. Within brackets it needs no blank behind
it, but for the newer rules in two places: in a sequence, and right behind another such sign while
`held`, that is, while what is before may still turn out to be a key. -/
def isAtValue (held : Bool) (scan : Scan) : Bool :=
  endsWord (scan.cursor.ahead 1) ||
    match scan.flow with
    | [] => false
    | .sequence :: _ => scan.legacy
    | .mapping :: _ => scan.legacy || !(held && scan.tokens.back? = some .value)

/-- The code points that start no plain scalar without more ado. -/
def isIndicator (c : CodePoint) : Bool :=
  endsWord (some c) || isBreak c || isOneOf "-?:,[]\x7b\x7d#&*!|>'\"%@`" c

/-- Whether a plain scalar starts at the cursor. -/
def isAtPlain (c : CodePoint) (scan : Scan) : Bool :=
  let next := scan.cursor.ahead 1
  let inFlow := !scan.flow.isEmpty
  !isIndicator c ||
    (!endsWord next && (c = '-' || (!inFlow && (c = '?' || c = ':')))) ||
    (!scan.legacy && c = ':' && inFlow && !next.any isGap)

/-- The token that starts with `c` at the cursor. -/
def take (held : Bool) (c : CodePoint) (scan : Scan) : Except Failure Scan :=
  let cursor := scan.cursor
  let atStart := cursor.column = 0
  let inFlow := !scan.flow.isEmpty
  if atStart && c = '%' then scan.takeDirective
  else if atStart && cursor.isAtMarker '-' then scan.takeMarker .documentStart
  else if atStart && cursor.isAtMarker '.' then scan.takeMarker .documentEnd
  else if c = '[' then scan.takeFlowStart .sequence
  else if c = '\x7b' then scan.takeFlowStart .mapping
  else if c = ']' then scan.takeFlowEnd .sequence
  else if c = '\x7d' then scan.takeFlowEnd .mapping
  else if c = ',' then scan.takeFlowEntry
  else if c = '-' && endsWord (cursor.ahead 1) then scan.takeBlockEntry
  else if c = '?' && scan.isAtKey then scan.takeKey
  else if c = ':' && scan.isAtValue held then scan.takeValue
  else
    match wordAt? c with
    | some read => scan.takeWord read
    | none =>
      if c = '|' && !inFlow then scan.takeBlockScalar false
      else if c = '>' && !inFlow then scan.takeBlockScalar true
      else if scan.isAtPlain c then scan.takePlain
      else .error .malformed

/-- One more token. -/
def step (scan : Scan) : Except Failure Scan := do
  let scan ← scan.dropStale
  let held := !scan.candidates.isEmpty
  let scan ← scan.skipToToken.dropStale
  let scan := scan.unwind scan.cursor.column
  match scan.cursor.peek with
  | none => scan.takeEnd
  | some c => scan.take held c

/-- Tokens up to the end of the text or up to a fault. -/
def run : Nat → Scan → Array Token
  | 0, scan => scan.tokens
  | steps + 1, scan =>
    match scan.step with
    | .error failure => scan.tokens.push (.fault failure)
    | .ok next => if next.tokens.back? = some .streamEnd then next.tokens else run steps next

end Scan

/-- The tokens of a text; the last one is the end or a fault. -/
def tokens (text : Text) : List Token :=
  (Scan.run (text.length + 1) (Scan.start text)).toList

end Yaml

end Stencil
