import Stencil.Text.Basic

/-!
# Types of nodes

Every node has a tag that tells its type. A plain scalar without a tag gets its type from the way it
is written; two versions of the rules differ in what counts as a truth value or a number.

* `Yaml.Tag`, and `Tag.ofUri` for a tag that is written out;
* `Yaml.isInteger`, `Yaml.isFloating` and the like, for the forms of scalars;
* `Yaml.Stamp`, the parts of a date and time as they are written;
* `Tag.ofPlain`, the type of a plain scalar.
-/

set_option autoImplicit false

namespace Stencil

namespace Yaml

/-- The types of nodes. `merge` and `default` are those of the keys `<<` and `=`; an `unknown` tag
has no values. -/
inductive Tag where
  | null
  | bool
  | int
  | float
  | string
  | binary
  | timestamp
  | set
  | orderedMapping
  | pairs
  | sequence
  | mapping
  | merge
  | default
  | unknown
  deriving DecidableEq, Repr

namespace Tag

/-- What the tags of the common types start with. -/
def commonPrefix : Text :=
  "tag:yaml.org,2002:"

/-- The common types by their names. -/
def names : List (Text × Tag) :=
  [("null", null), ("bool", bool), ("int", int), ("float", float), ("str", string),
    ("binary", binary), ("timestamp", timestamp), ("set", set), ("omap", orderedMapping),
    ("pairs", pairs), ("seq", sequence), ("map", mapping), ("merge", merge), ("value", default)]

/-- The type that a tag names when it is written out. -/
def ofUri (uri : Text) : Tag :=
  if uri.startsWith commonPrefix then
    ((names.find? fun (name, _) => name = uri.drop commonPrefix.length).map (·.2)).getD unknown
  else unknown

end Tag

/-! ## Forms of numbers -/

/-- A text of digits of some kind, which may have underscores among them. -/
def isDigits (isDigit : CodePoint → Bool) (text : Text) : Bool :=
  !text.isEmpty && text.all fun c => isDigit c || c = '_'

/-- Digits that start with a digit proper. -/
def isNumeral (isFirst : CodePoint → Bool) (text : Text) : Bool :=
  text.head?.any isFirst && isDigits CodePoint.isAsciiDigit text

/-- A binary digit. -/
def isBinaryDigit (c : CodePoint) : Bool :=
  c = '0' || c = '1'

/-- An octal digit. -/
def isOctalDigit (c : CodePoint) : Bool :=
  c.isAsciiDigit && c.value ≤ 0x37

/-- A decimal digit other than zero. -/
def isLeadingDigit (c : CodePoint) : Bool :=
  c.isAsciiDigit && c ≠ '0'

/-- A number without its sign. -/
def unsigned (text : Text) : Text :=
  match text with
  | c :: rest => if c = '-' ∨ c = '+' then rest else text
  | [] => []

/-- What follows a text of two code points at the start. -/
def after? (start text : Text) : Option Text :=
  if text.startsWith start then some (text.drop start.length) else none

/-- One or two digits of a part of a sexagesimal number. -/
def isSixtieth (text : Text) : Bool :=
  match text with
  | [c] => c.isAsciiDigit
  | [c, d] => c.isAsciiDigit && c.value ≤ 0x35 && d.isAsciiDigit
  | _ => false

/-- A sexagesimal number: a numeral and further parts behind colons. -/
def isSexagesimal (isFirst : CodePoint → Bool) (text : Text) : Bool :=
  match Text.splitOn ':' text with
  | first :: part :: parts => isNumeral isFirst first && (part :: parts).all isSixtieth
  | _ => false

/-- Whether a text may start a number: with a digit or a sign. -/
def startsNumber (text : Text) : Bool :=
  text.head?.any fun c => c.isAsciiDigit || c = .scalar '-' || c = .scalar '+'

/-- Whether a text has the form of an integer. -/
def isInteger (legacy : Bool) (text : Text) : Bool :=
  let digits := unsigned text
  startsNumber text &&
    ((after? "0b" digits).any (isDigits isBinaryDigit) ||
      (after? "0x" digits).any (isDigits fun c => c.hexDigit?.isSome) ||
      if legacy then
        isDigits isOctalDigit digits || digits = ("0" : Text) || isNumeral isLeadingDigit digits ||
          isSexagesimal isLeadingDigit digits
      else
        (after? "0o" digits).any (isDigits isOctalDigit) ||
          isDigits CodePoint.isAsciiDigit digits)

/-- An exponent behind its letter. -/
def isExponent (signed : Bool) (text : Text) : Bool :=
  let digits := unsigned text
  (!signed || digits.length < text.length) && !digits.isEmpty && digits.all CodePoint.isAsciiDigit

/-- A text cut at its first exponent letter. -/
def splitExponent (text : Text) : Text × Option Text :=
  let isLetter (c : CodePoint) : Bool := c = 'e' || c = 'E'
  (text.takeWhile fun c => !isLetter c, (text.dropWhile fun c => !isLetter c).tail?)

/-- Whether the text before an exponent is a number with a point. -/
def isPointed (text : Text) : Bool :=
  match Text.find? "." text with
  | some (whole, fraction) =>
    isNumeral CodePoint.isAsciiDigit whole &&
      (fraction.isEmpty || isDigits CodePoint.isAsciiDigit fraction)
  | none => false

/-- A fraction without a whole part; its exponent must have a sign. -/
def isBareFraction (text : Text) : Bool :=
  let (front, exponent) := splitExponent text
  (after? "." front).any (isDigits CodePoint.isAsciiDigit) && exponent.all (isExponent true)

/-- A number with a whole part and a point or an exponent. -/
def isScientific (text : Text) : Bool :=
  let (front, exponent) := splitExponent text
  (isPointed front && exponent.all (isExponent false)) ||
    (isNumeral CodePoint.isAsciiDigit front && exponent.any (isExponent false))

/-- A sexagesimal number with a point. -/
def isSexagesimalFloat (text : Text) : Bool :=
  match Text.find? "." text with
  | some (front, fraction) =>
    isSexagesimal CodePoint.isAsciiDigit front &&
      (fraction.isEmpty || isDigits CodePoint.isAsciiDigit fraction)
  | none => false

/-- The words for infinity. -/
def infinityWords : List Text :=
  [".inf", ".Inf", ".INF"]

/-- The words for no number. -/
def nanWords : List Text :=
  [".nan", ".NaN", ".NAN"]

/-- Whether a text has the form of a number with a fraction or an exponent. -/
def isFloating (legacy : Bool) (text : Text) : Bool :=
  let digits := unsigned text
  isScientific digits || infinityWords.contains digits || nanWords.contains text ||
    if legacy then isBareFraction text || isSexagesimalFloat digits else isBareFraction digits

/-! ## Forms of words -/

/-- The words for truth values. -/
def boolWords : List Text :=
  ["true", "True", "TRUE", "false", "False", "FALSE"]

/-- The words for truth values under the older rules only. -/
def legacyBoolWords : List Text :=
  ["y", "Y", "yes", "Yes", "YES", "n", "N", "no", "No", "NO", "on", "On", "ON", "off", "Off", "OFF"]

/-- The words for null. -/
def nullWords : List Text :=
  ["", "~", "null", "Null", "NULL"]

/-! ## Dates and times -/

/-- The time of day as it is written: hour, minute, second, the fraction of a second, and the zone.
-/
structure StampClock where
  hour : Text
  minute : Text
  second : Text
  fraction : Text
  zone : Text
  deriving DecidableEq, Repr

/-- A date as it is written, with or without a time of day. -/
structure Stamp where
  year : Text
  month : Text
  day : Text
  clock : Option StampClock
  deriving DecidableEq, Repr

namespace Stamp

/-- As many digits as there are, but `most` at most; no fewer than `least`. -/
def digits? (least most : Nat) (text : Text) : Option (Text × Text) :=
  let digits := (text.take most).takeWhile CodePoint.isAsciiDigit
  if digits.length < least then none else some (digits, text.drop digits.length)

/-- What follows the sign at the start of a text. -/
def sign? (sign : CodePoint) : Text → Option Text
  | c :: rest => if c = sign then some rest else none
  | [] => none

/-- The fraction behind a point, when there is one. -/
def fraction (text : Text) : Text × Text :=
  match sign? '.' text with
  | some rest =>
    (rest.takeWhile CodePoint.isAsciiDigit, rest.dropWhile CodePoint.isAsciiDigit)
  | none => ([], text)

/-- Whether a text is a zone: the letter for universal time, or a sign with hours and perhaps
minutes. -/
def isZone : Text → Bool
  | [] => false
  | c :: rest =>
    if c = 'Z' then rest.isEmpty
    else if c = '+' ∨ c = '-' then
      match digits? 1 2 rest with
      | none => false
      | some (_, []) => true
      | some (_, behind) =>
        match (sign? ':' behind).bind (digits? 2 2) with
        | some (_, rest) => rest.isEmpty
        | none => false
    else false

/-- A text without the spaces and tabs it starts with. -/
def skipGaps (text : Text) : Text :=
  text.dropWhile fun c => c = .scalar ' ' || c = .scalar '\t'

/-- The zone that ends a time, behind blanks if there are any. -/
def zone? (text : Text) : Option Text :=
  let zone := skipGaps text
  if text.isEmpty then some [] else if isZone zone then some zone else none

/-- The time of day behind a date: after a letter or after blanks. -/
def clock? (text : Text) : Option StampClock := do
  let rest :=
    match text with
    | c :: rest =>
      if c = 'T' ∨ c = 't' then rest else skipGaps text
    | [] => []
  guard (rest.length < text.length)
  let (hour, rest) ← digits? 1 2 rest
  let (minute, rest) ← digits? 2 2 (← sign? ':' rest)
  let (second, rest) ← digits? 2 2 (← sign? ':' rest)
  let (fraction, rest) := fraction rest
  return ⟨hour, minute, second, fraction, ← zone? rest⟩

/-- The date and time that a text writes. -/
def ofText? (text : Text) : Option Stamp := do
  let (year, rest) ← digits? 4 4 text
  let (month, rest) ← digits? 1 2 (← sign? '-' rest)
  let (day, rest) ← digits? 1 2 (← sign? '-' rest)
  if rest.isEmpty then return ⟨year, month, day, none⟩
  else return ⟨year, month, day, some (← clock? rest)⟩

/-- Whether a date on its own has two digits for the month and two for the day. -/
def isFull (stamp : Stamp) : Bool :=
  stamp.clock.isSome || (stamp.month.length = 2 && stamp.day.length = 2)

end Stamp

/-- The type of a plain scalar by its form. -/
def Tag.ofPlain (legacy : Bool) (text : Text) : Tag :=
  if boolWords.contains text || (legacy && legacyBoolWords.contains text) then .bool
  else if isFloating legacy text then .float
  else if isInteger legacy text then .int
  else if text = ("<<" : Text) then .merge
  else if nullWords.contains text then .null
  else if (Stamp.ofText? text).any Stamp.isFull then .timestamp
  else if text = ("=" : Text) then .default
  else .string

end Yaml

end Stencil
