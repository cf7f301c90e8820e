import Stencil.Text.PrintableTable
import Stencil.Text.Utf8
import Stencil.Json.Printer

/-!
# Text in messages

In messages and in the text of composite values, a text stands between quotes and shows its
invisible code points by number.

* `Text.quoted`, and `Bytes.quoted` for bytes;
* `Utf8.EncodeFault.message` and `Utf8.DecodeFault.message`.
-/

set_option autoImplicit false

namespace Stencil

/-- A code point by its number, as short as it can be told. -/
def CodePoint.escaped (c : CodePoint) : Text :=
  if c.value ≤ 0xFF then ("\\x" : Text) ++ Json.hexDigits 2 c.value
  else if c.value ≤ 0xFFFF then ("\\u" : Text) ++ Json.hexDigits 4 c.value
  else ("\\U" : Text) ++ Json.hexDigits 8 c.value

/-- A code point as it stands between quotes of the kind `quote`. -/
def CodePoint.quotedIn (quote c : CodePoint) : Text :=
  if c = quote ∨ c = '\\' then ['\\', c]
  else if c = '\t' then "\\t"
  else if c = '\n' then "\\n"
  else if c = '\r' then "\\r"
  else if c.isPrintable then [c]
  else c.escaped

/-- The quotes of a text: single, unless the text has single quotes and no double ones. -/
def Text.quoteFor (text : Text) : CodePoint :=
  if text.contains '\'' && !text.contains '"' then '"' else '\''

/-- A text between quotes. -/
def Text.quoted (text : Text) : Text :=
  let quote := quoteFor text
  quote :: (text.flatMap (CodePoint.quotedIn quote) ++ [quote])

/-- Bytes between quotes, with a mark in front; those outside ASCII are shown by number. -/
def Bytes.quoted (bytes : Bytes) : Text :=
  let text : Text := bytes.map fun byte => Utf8.codePoint byte.toNat
  let quote := Text.quoteFor text
  let shownByte (c : CodePoint) : Text :=
    if c.value < 0x80 then CodePoint.quotedIn quote c else c.escaped
  .scalar 'b' :: quote :: (text.flatMap shownByte ++ [quote])

namespace Utf8

/-- The words for a text that has no encoding. -/
def EncodeFault.message (fault : EncodeFault) : Text :=
  let place : Text :=
    if fault.count = 1 then
      ("character '" : Text) ++ fault.first.escaped ++ ("' in position " : Text) ++
        natNumeral fault.position
    else
      ("characters in position " : Text) ++ natNumeral fault.position ++ ("-" : Text) ++
        natNumeral (fault.position + fault.count - 1)
  ("'utf-8' codec can't encode " : Text) ++ place ++ (": surrogates not allowed" : Text)

/-- The words for a cause. -/
def Cause.message : Cause → Text
  | invalidStart => "invalid start byte"
  | invalidContinuation => "invalid continuation byte"
  | unexpectedEnd => "unexpected end of data"

/-- The words for bytes that encode nothing. -/
def DecodeFault.message (fault : DecodeFault) : Text :=
  let place : Text :=
    if fault.count = 1 then
      ("byte 0x" : Text) ++ Json.hexDigits 2 fault.first.toNat ++ (" in position " : Text) ++
        natNumeral fault.position
    else
      ("bytes in position " : Text) ++ natNumeral fault.position ++ ("-" : Text) ++
        natNumeral (fault.position + fault.count - 1)
  ("'utf-8' codec can't decode " : Text) ++ place ++ (": " : Text) ++ fault.cause.message

end Utf8

end Stencil
