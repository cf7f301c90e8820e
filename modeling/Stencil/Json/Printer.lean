import Stencil.Json.Basic

/-!
# Writing JSON

Members and items stand on lines of their own, two spaces further in than what holds them; empty
arrays and objects have no lines. Strings keep every character but quotes, backslashes and controls.

* `Json.quote`, a string between quotes;
* `Json.print`, the layout of a document. Not every document is laid out, see `Json.dump`.
-/

set_option autoImplicit false

namespace Stencil

namespace Json

/-- The hexadecimal digit of a number below sixteen, in lower case. -/
def hexDigit (n : Nat) : CodePoint :=
  .scalar (Nat.digitChar n)

/-- The last `width` hexadecimal digits of a number. -/
def hexDigits : Nat → Nat → Text
  | 0, _ => []
  | width + 1, n => hexDigits width (n / 16) ++ [hexDigit (n % 16)]

/-- A code point as it stands in a string: quotes, backslashes and controls are escaped. -/
def escape (c : CodePoint) : Text :=
  if c = '"' then "\\\""
  else if c = '\\' then "\\\\"
  else if c = '\n' then "\\n"
  else if c = '\r' then "\\r"
  else if c = '\t' then "\\t"
  else if c = '\x08' then "\\b"
  else if c = '\x0c' then "\\f"
  else if c.value < 0x20 then ("\\u" : Text) ++ hexDigits 4 c.value
  else [c]

/-- A string between quotes. -/
def quote (text : Text) : Text :=
  .scalar '"' :: (text.flatMap escape ++ [.scalar '"'])

/-- The line break before what stands `depth` levels in. -/
def lineBreak (depth : Nat) : Text :=
  .scalar '\n' :: List.replicate (2 * depth) (.scalar ' ')

/-- What stands behind an item: a comma, unless it is the last. -/
def separator (last : Bool) : Text :=
  if last then [] else ","

mutual

/-- A document whose own lines stand `depth` levels in. -/
def printAt (depth : Nat) : Json → Text
  | .null => "null"
  | .bool true => "true"
  | .bool false => "false"
  | .int value => intNumeral value
  | .float value => value.numeral floatWords
  | .string value => quote value
  | .array items =>
    if items.isEmpty then "[]"
    else ("[" : Text) ++ printItems (depth + 1) items ++ lineBreak depth ++ ("]" : Text)
  | .object members =>
    if members.isEmpty then "\x7b\x7d"
    else
      ("\x7b" : Text) ++ printMembers (depth + 1) members ++ lineBreak depth ++ ("\x7d" : Text)

/-- The items of an array, each on its own line. -/
def printItems (depth : Nat) : List Json → Text
  | [] => []
  | item :: items =>
    lineBreak depth ++ printAt depth item ++ separator items.isEmpty ++ printItems depth items

/-- The members of an object, each on its own line. -/
def printMembers (depth : Nat) : List (Text × Json) → Text
  | [] => []
  | (name, value) :: members =>
    lineBreak depth ++ quote name ++ (": " : Text) ++ printAt depth value ++
      separator members.isEmpty ++ printMembers depth members

end

/-- A document as it is laid out. -/
def print (document : Json) : Text :=
  printAt 0 document

end Json

end Stencil
