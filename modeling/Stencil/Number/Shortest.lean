import Stencil.Number.Binary64

/-!
# The shortest decimal of a number

Of the decimals that read back as a given number the shortest is written, and of those the one
nearest to the number. The reals that read back lie between the midpoints to the two neighbouring
numbers; the midpoints themselves count when the mantissa is even. For each count of digits the two
decimals around the number are tested, in exact arithmetic.

* `Decimal` and `Binary64.shortest`;
* `Decimal.layout`, positional where the number is of moderate size, with an exponent elsewhere;
* `Binary64.numeral`, with the words for the infinities and for no number.
-/

set_option autoImplicit false

namespace Stencil

/-- The positive decimal `digits * 10 ^ exponent`. -/
structure Decimal where
  digits : Nat
  exponent : Int
  deriving DecidableEq, Repr

namespace Binary64

/-- The place of the first digit of a positive quotient: the greatest `t` with
`10 ^ t ≤ num / den`. -/
def leadingPlace (num den : Nat) : Int :=
  if den ≤ num then (digitCount (num / den) : Int) - 1
  else -(digitCount ((den - 1) / num) : Int)

/-- The nearest decimal to `mantissa * 2 ^ exponent` with its last digit at `place`, if it reads
back. Bounds are in quarters of the last binary place; below a power of two the neighbour is only
half as far. -/
def nearestAt? (mantissa : Nat) (exponent place : Int) : Option Decimal :=
  let below := if mantissa = mantissaLimit / 2 ∧ -1074 < exponent then 1 else 2
  let scale (quarters : Nat) : Nat × Nat := quotient quarters (exponent - 2) (-place)
  let (lower, lowerUnit) := scale (4 * mantissa - below)
  let (upper, upperUnit) := scale (4 * mantissa + 2)
  let (num, den) := scale (4 * mantissa)
  let fits (candidate : Nat) : Bool :=
    if mantissa % 2 = 0 then
      lower ≤ candidate * lowerUnit && candidate * upperUnit ≤ upper
    else lower < candidate * lowerUnit && candidate * upperUnit < upper
  let down := num / den
  let twice := 2 * (num % den)
  let downFirst := twice < den || (twice = den && down % 2 = 0)
  let candidates := if downFirst then [down, down + 1] else [down + 1, down]
  (candidates.find? fits).map fun digits => ⟨digits, place⟩

/-- A decimal without the zeros at its end; `fuel` bounds their number. -/
def withoutZeros : Nat → Decimal → Decimal
  | 0, decimal => decimal
  | fuel + 1, decimal =>
    if decimal.digits % 10 = 0 then withoutZeros fuel ⟨decimal.digits / 10, decimal.exponent + 1⟩
    else decimal

/-- The shortest decimal that reads back as `mantissa * 2 ^ exponent`; seventeen digits always do.
-/
def shortest (mantissa : Nat) (exponent : Int) : Decimal :=
  let (num, den) := quotient mantissa exponent 0
  let lead := leadingPlace num den
  let found := (List.range 17).findSome? fun (more : Nat) =>
    nearestAt? mantissa exponent (lead - more)
  withoutZeros 17 (found.getD ⟨num / den, 0⟩)

end Binary64

/-! ## Layout -/

/-- A run of zeros. -/
def zeros (count : Nat) : Text :=
  List.replicate count '0'

/-- A power of ten behind the letter `e`, with a sign and at least two digits. -/
def exponentMark (power : Int) : Text :=
  let digits := natNumeral power.natAbs
  let padded := zeros (2 - digits.length) ++ digits
  (if power < 0 then ("e-" : Text) else ("e+" : Text)) ++ padded

/-- Numbers from 10^-4 up to 10^16 are written positionally, with at least one digit behind the
point; others have one digit before the point and an exponent. -/
def Decimal.layout (decimal : Decimal) : Text :=
  let digits := natNumeral decimal.digits
  let point : Int := digits.length + decimal.exponent
  if -4 < point ∧ point ≤ 16 then
    if point ≤ 0 then ("0." : Text) ++ zeros (-point).toNat ++ digits
    else
      let whole := digits.take point.toNat ++ zeros (point.toNat - digits.length)
      let fraction := digits.drop point.toNat
      whole ++ ("." : Text) ++ (if fraction.isEmpty then zeros 1 else fraction)
  else
    let fraction := digits.drop 1
    digits.take 1 ++ (if fraction.isEmpty then [] else ("." : Text) ++ fraction) ++
      exponentMark (point - 1)

/-- The words for numbers that have no digits. -/
structure SpecialWords where
  infinity : Text
  notANumber : Text

/-- A number in its shortest form, with given words for the infinities and for no number. -/
def Binary64.numeral (words : SpecialWords) : Binary64 → Text
  | finite negative mantissa exponent =>
    (if negative then ("-" : Text) else []) ++
      (if mantissa = 0 then ("0.0" : Text) else (shortest mantissa exponent).layout)
  | infinite negative => (if negative then ("-" : Text) else []) ++ words.infinity
  | nan => words.notANumber

end Stencil
