import Stencil.Text.Basic

/-!
# UTF-8

Texts as bytes. Halves of surrogate pairs have no bytes, and of the byte sequences only the shortest
form of a scalar value is read. Both directions stop at the first thing they cannot take and say
where it is.

* `Utf8.encode`, with `Utf8.EncodeFault` for the first run of halves;
* `Utf8.decode`, with `Utf8.DecodeFault` for the first bytes that form no scalar value.
-/

set_option autoImplicit false

namespace Stencil

/-- A finite sequence of bytes. -/
abbrev Bytes := List UInt8

namespace Utf8

/-! ## Encoding -/

/-- A run of halves that has no encoding: the first of them, its position, and their number. -/
structure EncodeFault where
  first : CodePoint
  position : Nat
  count : Nat
  deriving DecidableEq, Repr

/-- The bytes of a scalar value. -/
def encodeChar (c : Char) : Bytes :=
  let n := c.toNat
  let tail (unit : Nat) : UInt8 := UInt8.ofNat (0x80 + n / unit % 0x40)
  if n < 0x80 then [UInt8.ofNat n]
  else if n < 0x800 then [UInt8.ofNat (0xC0 + n / 0x40), tail 1]
  else if n < 0x10000 then [UInt8.ofNat (0xE0 + n / 0x1000), tail 0x40, tail 1]
  else [UInt8.ofNat (0xF0 + n / 0x40000), tail 0x1000, tail 0x40, tail 1]

/-- Whether a code point is a half. -/
def isHalf : CodePoint → Bool
  | .scalar _ => false
  | .half _ => true

/-- The bytes of a text that stands behind `position` code points. -/
def encodeFrom (position : Nat) : Text → Except EncodeFault Bytes
  | [] => .ok []
  | .half offset :: rest => .error ⟨.half offset, position, (rest.takeWhile isHalf).length + 1⟩
  | .scalar c :: rest =>
    match encodeFrom (position + 1) rest with
    | .ok bytes => .ok (encodeChar c ++ bytes)
    | .error fault => .error fault

/-- The bytes of a text. -/
def encode (text : Text) : Except EncodeFault Bytes :=
  encodeFrom 0 text

/-- The number of bytes of a text, with three for a half. -/
def size (text : Text) : Nat :=
  text.foldl (fun total c =>
    total + (if c.value < 0x80 then 1 else if c.value < 0x800 then 2
      else if c.value < 0x10000 then 3 else 4)) 0

/-! ## Decoding -/

/-- Why bytes form no scalar value. -/
inductive Cause where
  | invalidStart
  | invalidContinuation
  | unexpectedEnd
  deriving DecidableEq, Repr

/-- Bytes that form no scalar value: the first of them, its position, and their number. -/
structure DecodeFault where
  cause : Cause
  first : UInt8
  position : Nat
  count : Nat
  deriving DecidableEq, Repr

/-- A sequence that has begun: its first byte, how many bytes it has so far and how many are to
come, the bounds of the next one, and the bits so far. -/
structure Pending where
  first : UInt8
  taken : Nat
  missing : Nat
  low : UInt8
  high : UInt8
  bits : Nat

/-- The sequence that a byte begins; the bounds shut out overlong forms, halves and numbers past the
last code point. -/
def begin? (byte : UInt8) : Option Pending :=
  if 0xC2 ≤ byte ∧ byte < 0xE0 then some ⟨byte, 1, 1, 0x80, 0xBF, byte.toNat % 0x20⟩
  else if 0xE0 ≤ byte ∧ byte < 0xF0 then
    some ⟨byte, 1, 2, if byte = 0xE0 then 0xA0 else 0x80, if byte = 0xED then 0x9F else 0xBF,
      byte.toNat % 0x10⟩
  else if 0xF0 ≤ byte ∧ byte < 0xF5 then
    some ⟨byte, 1, 3, if byte = 0xF0 then 0x90 else 0x80, if byte = 0xF4 then 0x8F else 0xBF,
      byte.toNat % 0x08⟩
  else none

/-- The code point with a number; the numbers met here all have one. -/
def codePoint (n : Nat) : CodePoint :=
  (CodePoint.ofValue? n).getD '\ufffd'

/-- Puts a code point before a decoded text. -/
def consTo (c : CodePoint) : Except DecodeFault Text → Except DecodeFault Text
  | .ok text => .ok (c :: text)
  | .error fault => .error fault

/-- The text of bytes that stand behind `position` others, the last of which may have begun a
sequence. -/
def decodeFrom (position : Nat) (pending : Option Pending) : Bytes → Except DecodeFault Text
  | [] =>
    match pending with
    | none => .ok []
    | some p => .error ⟨.unexpectedEnd, p.first, position - p.taken, p.taken⟩
  | byte :: rest =>
    match pending with
    | none =>
      if byte < 0x80 then consTo (codePoint byte.toNat) (decodeFrom (position + 1) none rest)
      else
        match begin? byte with
        | none => .error ⟨.invalidStart, byte, position, 1⟩
        | some p => decodeFrom (position + 1) (some p) rest
    | some p =>
      if byte < p.low ∨ p.high < byte then
        .error ⟨.invalidContinuation, p.first, position - p.taken, p.taken⟩
      else
        let bits := p.bits * 0x40 + byte.toNat % 0x40
        if p.missing ≤ 1 then consTo (codePoint bits) (decodeFrom (position + 1) none rest)
        else
          decodeFrom (position + 1)
            (some ⟨p.first, p.taken + 1, p.missing - 1, 0x80, 0xBF, bits⟩) rest

/-- The text that bytes encode. -/
def decode (bytes : Bytes) : Except DecodeFault Text :=
  decodeFrom 0 none bytes

end Utf8

end Stencil
