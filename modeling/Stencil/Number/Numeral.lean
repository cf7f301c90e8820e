import Stencil.Number.Binary64
import Stencil.Text.Blank
import Stencil.Text.DigitTable

/-!
# Numbers from numerals

Numerals as people write them: with blanks around, a sign, and digits of any script. Decimal
numerals of more than 4300 digits are not turned into integers.

* `digitsValue` and `maxIntegerDigits`, the limit for integers that are read or written;
* `NumeralFault`, and `readInteger` for a numeral in some base;
* `readFloat?` for a decimal with a point or an exponent, and for the words for what has no digits.
-/

set_option autoImplicit false

namespace Stencil

/-- The number that a run of decimal digits makes. -/
def digitsValue (digits : Text) : Nat :=
  digits.foldl (fun n c => n * 10 + (c.value - 0x30)) 0

/-- The most digits that an integer may have. -/
def maxIntegerDigits : Nat :=
  4300

/-- The words for an integer that is too long to be read. -/
def hugeIntegerMessage (digits : Nat) : Text :=
  ("Exceeds the limit (4300 digits) for integer string conversion: value has " : Text) ++
    natNumeral digits ++
    (" digits; use sys.set_int_max_str_digits() to increase the limit" : Text)

/-- The words for an integer that is too long to be written. -/
def unwritableMessage : Text :=
  ("Exceeds the limit (4300 digits) for integer string conversion; " : Text) ++
    ("use sys.set_int_max_str_digits() to increase the limit" : Text)

/-- Why a numeral makes no integer: it is none in its base, or it is too long. -/
inductive NumeralFault where
  | invalid (base : Nat) (numeral : Text)
  | huge (digits : Nat)
  deriving DecidableEq, Repr

/-- The blanks around a numeral. -/
def isNumeralBlank (c : CodePoint) : Bool :=
  c.isBlank && !(0x1C ≤ c.value && c.value ≤ 0x1F)

/-- A numeral without the blanks around it, its digits made those of ASCII. -/
def plainNumeral (numeral : Text) : Text :=
  let digits := numeral.map fun c =>
    match c.decimalDigit? with
    | some digit => (CodePoint.ofValue? (0x30 + digit)).getD c
    | none => c
  ((digits.dropWhile isNumeralBlank).reverse.dropWhile isNumeralBlank).reverse

/-- The sign of a numeral, and what follows it. -/
def splitSign : Text → Bool × Text
  | [] => (false, [])
  | c :: rest =>
    if c = '-' then (true, rest) else if c = '+' then (false, rest) else (false, c :: rest)

/-- A numeral without the two code points that tell its base. -/
def withoutBaseMark (base : Nat) (numeral : Text) : Text :=
  let marks : List Text :=
    if base = 2 then ["0b", "0B"] else if base = 8 then ["0o", "0O"]
    else if base = 16 then ["0x", "0X"] else []
  if marks.any numeral.startsWith then numeral.drop 2 else numeral

/-- The value of a digit in a base. -/
def digitIn? (base : Nat) (c : CodePoint) : Option Nat :=
  c.hexDigit?.filter fun digit => digit < base

/-- The integer that a numeral writes in a base up to sixteen. -/
def readInteger (base : Nat) (numeral : Text) : Except NumeralFault Int :=
  let (negative, body) := splitSign (plainNumeral numeral)
  let body := withoutBaseMark base body
  let digits := body.takeWhile fun c => (digitIn? base c).isSome
  if base = 10 ∧ maxIntegerDigits < digits.length then .error (.huge digits.length)
  else if digits.isEmpty ∨ digits.length < body.length then .error (.invalid base numeral)
  else
    let value := digits.foldl (fun n c => n * base + (digitIn? base c).getD 0) 0
    .ok (if negative then -(value : Int) else value)

/-! ## Decimals -/

/-- The words for infinity. -/
def infinityNames : List Text :=
  ["inf", "infinity"]

/-- The digits at the start of a text, and what follows them. -/
def spanDigits (text : Text) : Text × Text :=
  (text.takeWhile CodePoint.isAsciiDigit, text.dropWhile CodePoint.isAsciiDigit)

/-- The exponent that fills a text behind its letter. -/
def wholeExponent? (text : Text) : Option Int :=
  let (negative, body) := splitSign text
  if body.isEmpty || !body.all CodePoint.isAsciiDigit then none
  else
    let power : Int := digitsValue body
    some (if negative then -power else power)

/-- The number nearest to a decimal without a sign, in lower case. -/
def unsignedFloat? (text : Text) : Option Binary64 :=
  let (whole, behind) := spanDigits text
  let (fraction, behind) :=
    match behind with
    | c :: rest => if c = '.' then spanDigits rest else ([], behind)
    | [] => ([], [])
  if whole.isEmpty && fraction.isEmpty then none
  else
    let power? :=
      match behind with
      | [] => some 0
      | c :: rest => if c = 'e' then wholeExponent? rest else none
    power?.map fun power =>
      Binary64.ofDecimal false (digitsValue (whole ++ fraction)) (power - fraction.length)

/-- The number nearest to what a numeral in lower case writes. -/
def readFloat? (numeral : Text) : Option Binary64 :=
  let (negative, body) := splitSign (plainNumeral numeral)
  let value? :=
    if infinityNames.contains body then some (.infinite false)
    else if body = ("nan" : Text) then some .nan
    else unsignedFloat? body
  value?.map fun value => if negative then value.negate else value

end Stencil
