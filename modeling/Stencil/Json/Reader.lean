import Stencil.Host
import Stencil.Json.Basic
import Stencil.Number.Numeral

/-!
# Reading JSON

Documents are read from left to right. The names NaN and Infinity stand for numbers, a name that an
object repeats keeps its place and takes the last value, and escapes for the two halves of a
surrogate pair make one code point while other halves stay alone. A bracket that is too deep in
others ends the reading there.

* `Json.Fault`, what can be wrong with a text, and `Json.ReadError`, where it is;
* `Json.readString`, `Json.readNumber`, `Json.readValue`, each with the text that is left;
* `Json.read`, a whole text, and `Json.ReadError.message`, the words for a failure.

A failure inside the text is located by how much text is left from there on.
-/

set_option autoImplicit false

namespace Stencil

namespace Json

/-- What is wrong at one place of a text. -/
inductive Fault where
  | byteOrderMark
  | expectingValue
  | expectingName
  | expectingColon
  | expectingComma
  | extraData
  | unterminatedString
  | controlCharacter
  | badEscape
  | badUnicodeEscape
  deriving DecidableEq, Repr

/-- A reading that stops: at a fault with so much text left, at an integer of too many digits, or at
the bracket of an array or an object that is too deep. -/
inductive Stop where
  | fault (fault : Fault) (left : Nat)
  | hugeInteger (digits : Nat)
  | tooDeep (descent : Descent)
  deriving DecidableEq, Repr

/-- A reading: what was read and the text behind it. -/
abbrev Reading (α : Type) := Except Stop (α × Text)

/-- The reading that stops at the start of `text`. -/
def stopAt {α : Type} (fault : Fault) (text : Text) : Reading α :=
  .error (.fault fault text.length)

/-! ## Blanks and words -/

/-- The blanks between the parts of a document. -/
def isSpace (c : CodePoint) : Bool :=
  c = ' ' || c = '\t' || c = '\n' || c = '\r'

/-- The text without the blanks it starts with. -/
def skipSpace (text : Text) : Text :=
  text.dropWhile isSpace

/-- What stands behind a word at the start of the text. -/
def afterWord? (word text : Text) : Option Text :=
  if word.isPrefixOf text then some (text.drop word.length) else none

/-! ## Strings -/

/-- The code point that an escape with one letter stands for. -/
def shortEscape? (c : CodePoint) : Option CodePoint :=
  if c = '"' ∨ c = '\\' ∨ c = '/' then some c
  else if c = 'b' then some '\x08'
  else if c = 'f' then some '\x0c'
  else if c = 'n' then some '\n'
  else if c = 'r' then some '\r'
  else if c = 't' then some '\t'
  else none

/-- The number that four hexadecimal digits make. -/
def hexUnit? (a b c d : CodePoint) : Option Nat := do
  let a ← a.hexDigit?
  let b ← b.hexDigit?
  let c ← c.hexDigit?
  let d ← d.hexDigit?
  some (((a * 16 + b) * 16 + c) * 16 + d)

/-- The code point of a 16-bit unit that stands alone. -/
def ofUnit (unit : Nat) : CodePoint :=
  (CodePoint.ofValue? unit).getD '\ufffd'

/-- The code point of a surrogate pair. -/
def ofPair (high low : Nat) : CodePoint :=
  ofUnit (0x10000 + (high - 0xD800) * 0x400 + (low - 0xDC00))

/-- Puts a text before the string that a reading yields. -/
def prependTo (front : Text) : Reading Text → Reading Text
  | .ok (text, rest) => .ok (front ++ text, rest)
  | .error stop => .error stop

/-- A first half that waits for its second, once it is clear that none comes. -/
def alone : Option Nat → Text
  | none => []
  | some high => [ofUnit high]

/-- The rest of a string up to its closing quote. `start` is how much text was left at the opening
quote; `waiting` is the first half of a pair when the escape for one has just been read. The four
digits of an escape must have something behind them. -/
def readString (start : Nat) (waiting : Option Nat) : Text → Reading Text
  | [] => .error (.fault .unterminatedString start)
  | c :: rest =>
    if c = '"' then .ok (alone waiting, rest)
    else if c = '\\' then
      match rest with
      | [] => .error (.fault .unterminatedString start)
      | letter :: tail =>
        if letter = 'u' then
          match tail with
          | d₁ :: d₂ :: d₃ :: d₄ :: behind =>
            if behind.isEmpty then .error (.fault .badUnicodeEscape rest.length)
            else
              match hexUnit? d₁ d₂ d₃ d₄, waiting with
              | none, _ => .error (.fault .badUnicodeEscape rest.length)
              | some unit, some high =>
                if 0xDC00 ≤ unit ∧ unit < 0xE000 then
                  prependTo [ofPair high unit] (readString start none behind)
                else if 0xD800 ≤ unit ∧ unit < 0xDC00 then
                  prependTo [ofUnit high] (readString start (some unit) behind)
                else prependTo [ofUnit high, ofUnit unit] (readString start none behind)
              | some unit, none =>
                if 0xD800 ≤ unit ∧ unit < 0xDC00 then readString start (some unit) behind
                else prependTo [ofUnit unit] (readString start none behind)
          | _ => .error (.fault .badUnicodeEscape rest.length)
        else
          match shortEscape? letter with
          | some escaped => prependTo (alone waiting ++ [escaped]) (readString start none tail)
          | none => .error (.fault .badEscape (rest.length + 1))
    else if c.value < 0x20 then .error (.fault .controlCharacter (rest.length + 1))
    else prependTo (alone waiting ++ [c]) (readString start none rest)

/-! ## Numbers -/

/-- The fraction at the start of the text, without its point; none unless a digit follows. -/
def readFraction (text : Text) : Text × Text :=
  match text with
  | c :: rest =>
    let digits := rest.takeWhile CodePoint.isAsciiDigit
    if c = '.' ∧ digits ≠ [] then (digits, rest.dropWhile CodePoint.isAsciiDigit) else ([], text)
  | [] => ([], text)

/-- The exponent at the start of the text; none unless it has a digit. -/
def readExponent (text : Text) : Option Int × Text :=
  match text with
  | c :: rest =>
    let (negative, behind) := splitSign rest
    let digits := behind.takeWhile CodePoint.isAsciiDigit
    if (c = 'e' ∨ c = 'E') ∧ digits ≠ [] then
      let power : Int := digitsValue digits
      (some (if negative then -power else power), behind.dropWhile CodePoint.isAsciiDigit)
    else (none, text)
  | [] => (none, text)

/-- The whole part of a number: a zero, or digits that start with another one. -/
def readWhole (text : Text) : Text × Text :=
  match text with
  | [] => ([], [])
  | c :: rest =>
    if c = '0' then ([c], rest)
    else (text.takeWhile CodePoint.isAsciiDigit, text.dropWhile CodePoint.isAsciiDigit)

/-- A number. Without a fraction and an exponent it is an integer. -/
def readNumber (text : Text) : Reading Json :=
  let (negative, body) :=
    match text with
    | c :: rest => if c = '-' then (true, rest) else (false, text)
    | [] => (false, text)
  let (whole, behind) := readWhole body
  if whole = [] then stopAt .expectingValue text
  else
    let (fraction, behind) := readFraction behind
    let (power, behind) := readExponent behind
    if fraction = [] ∧ power = none then
      if maxIntegerDigits < whole.length then .error (.hugeInteger whole.length)
      else
        let value : Int := digitsValue whole
        .ok (.int (if negative then -value else value), behind)
    else
      let digits := digitsValue (whole ++ fraction)
      .ok (.float (Binary64.ofDecimal negative digits (power.getD 0 - fraction.length)), behind)

/-! ## Documents -/

/-- The reading of what stands in a bracket, if there is room for one more level. -/
def descend (descent : Descent) : Nat → (Nat → Reading Json) → Reading Json
  | 0, _ => .error (.tooDeep descent)
  | room + 1, inside => inside room

mutual

/-- A document at the start of the text, with no more than `room` arrays and objects inside each
other. No code point takes more than two steps, that of an array and that of its first item, which
is what `fuel` stands for. -/
def readValue : Nat → Nat → Text → Reading Json
  | 0, _, text => stopAt .expectingValue text
  | _, _, [] => stopAt .expectingValue []
  | fuel + 1, room, c :: rest =>
    if c = '"' then
      match readString (rest.length + 1) none rest with
      | .ok (text, behind) => .ok (.string text, behind)
      | .error stop => .error stop
    else if c = '\x7b' then
      descend .object room fun room =>
        let inside := skipSpace rest
        match afterWord? "\x7d" inside with
        | some behind => .ok (.object [], behind)
        | none => readMembers fuel room [] inside
    else if c = '[' then
      descend .array room fun room =>
        let inside := skipSpace rest
        match afterWord? "]" inside with
        | some behind => .ok (.array [], behind)
        | none => readItems fuel room [] inside
    else if let some behind := afterWord? "null" (c :: rest) then .ok (.null, behind)
    else if let some behind := afterWord? "true" (c :: rest) then .ok (.bool true, behind)
    else if let some behind := afterWord? "false" (c :: rest) then .ok (.bool false, behind)
    else if let some behind := afterWord? "NaN" (c :: rest) then .ok (.float .nan, behind)
    else if let some behind := afterWord? "Infinity" (c :: rest) then
      .ok (.float (.infinite false), behind)
    else if let some behind := afterWord? "-Infinity" (c :: rest) then
      .ok (.float (.infinite true), behind)
    else readNumber (c :: rest)

/-- The items of an array from the next one on, behind those already read, in reverse. -/
def readItems : Nat → Nat → List Json → Text → Reading Json
  | 0, _, _, text => stopAt .expectingValue text
  | fuel + 1, room, known, text =>
    match readValue fuel room text with
    | .error stop => .error stop
    | .ok (item, behind) =>
      match skipSpace behind with
      | [] => stopAt .expectingComma []
      | c :: rest =>
        if c = ']' then .ok (.array (item :: known).reverse, rest)
        else if c = ',' then readItems fuel room (item :: known) (skipSpace rest)
        else stopAt .expectingComma (c :: rest)

/-- The members of an object from the next one on, added to those already read. -/
def readMembers : Nat → Nat → List (Text × Json) → Text → Reading Json
  | 0, _, _, text => stopAt .expectingName text
  | _, _, _, [] => stopAt .expectingName []
  | fuel + 1, room, known, quote :: start =>
    if quote ≠ '"' then stopAt .expectingName (quote :: start)
    else
      match readString (start.length + 1) none start with
      | .error stop => .error stop
      | .ok (name, behind) =>
        match skipSpace behind with
        | [] => stopAt .expectingColon []
        | colon :: rest =>
          if colon ≠ ':' then stopAt .expectingColon (colon :: rest)
          else
            match readValue fuel room (skipSpace rest) with
            | .error stop => .error stop
            | .ok (value, behind) =>
              match skipSpace behind with
              | [] => stopAt .expectingComma []
              | c :: rest =>
                if c = '\x7d' then .ok (.object (setMember name value known), rest)
                else if c = ',' then
                  readMembers fuel room (setMember name value known) (skipSpace rest)
                else stopAt .expectingComma (c :: rest)

end

/-! ## Whole texts -/

/-- Why a text is no document: a fault at a position, counted from zero, an integer with too many
digits, or too many brackets inside each other. -/
inductive ReadError where
  | malformed (fault : Fault) (text : Text) (position : Nat)
  | hugeInteger (digits : Nat)
  | tooDeep (descent : Descent)
  deriving DecidableEq, Repr

/-- A document that fills the text, blanks around it aside. -/
def readWholeText (room : Nat) (text : Text) : Except Stop Json :=
  if Text.startsWith text "\ufeff" then .error (.fault .byteOrderMark text.length)
  else
    match readValue (2 * text.length + 1) room (skipSpace text) with
    | .error stop => .error stop
    | .ok (document, behind) =>
      let left := skipSpace behind
      if left = [] then .ok document else .error (.fault .extraData left.length)

/-- The document that a text holds. -/
def read (host : Host) (text : Text) : Except ReadError Json :=
  match readWholeText host.reading text with
  | .ok document => .ok document
  | .error (.fault fault left) => .error (.malformed fault text (text.length - left))
  | .error (.hugeInteger digits) => .error (.hugeInteger digits)
  | .error (.tooDeep descent) => .error (.tooDeep descent)

/-- The words for a fault. -/
def Fault.message : Fault → Text
  | byteOrderMark => "Unexpected UTF-8 BOM (decode using utf-8-sig)"
  | expectingValue => "Expecting value"
  | expectingName => "Expecting property name enclosed in double quotes"
  | expectingColon => "Expecting ':' delimiter"
  | expectingComma => "Expecting ',' delimiter"
  | extraData => "Extra data"
  | unterminatedString => "Unterminated string starting at"
  | controlCharacter => "Invalid control character at"
  | badEscape => "Invalid \\escape"
  | badUnicodeEscape => "Invalid \\uXXXX escape"

/-- A position as line, column and count of code points; the first two count from one. -/
def locate (text : Text) (position : Nat) : Text :=
  let before := text.take position
  let line := before.count (.scalar '\n') + 1
  let column := (before.reverse.takeWhile (· ≠ .scalar '\n')).length + 1
  ("line " : Text) ++ natNumeral line ++ (" column " : Text) ++ natNumeral column ++
    (" (char " : Text) ++ natNumeral position ++ (")" : Text)

/-- The words for a failure. -/
def ReadError.message : ReadError → Text
  | malformed fault text position => fault.message ++ (": " : Text) ++ locate text position
  | hugeInteger digits => hugeIntegerMessage digits
  | tooDeep descent => descent.message

end Json

end Stencil
