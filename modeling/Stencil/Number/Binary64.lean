import Stencil.Text.Basic

/-!
# Binary floating-point numbers

Numbers with a fraction or an exponent are kept in double precision: a mantissa below 2^53 times a
power of two that is at least 2^-1074. All arithmetic here is exact, on natural numbers.

* `Binary64`, and `Binary64.ofRatio`, the nearest such number to a quotient;
* `Binary64.ofDecimal`, the nearest to a decimal with an exponent;
* `Binary64.add` and `Binary64.mul`.
-/

set_option autoImplicit false

namespace Stencil

/-- A double-precision number: `mantissa * 2 ^ exponent` with a sign, an infinity, or no number. -/
inductive Binary64 where
  | finite (negative : Bool) (mantissa : Nat) (exponent : Int)
  | infinite (negative : Bool)
  | nan
  deriving DecidableEq, Repr

namespace Binary64

/-- The quotient rounded to the nearest natural number, a half to the even one. -/
def roundHalfEven (num den : Nat) : Nat :=
  let quotient := num / den
  let twice := 2 * (num % den)
  if twice < den then quotient
  else if den < twice then quotient + 1
  else if quotient % 2 = 0 then quotient
  else quotient + 1

/-- The number that a mantissa stays below: the 53rd power of two. -/
def mantissaLimit : Nat :=
  0x20000000000000

/-- `n * 2 ^ twos * 10 ^ tens` as a quotient of natural numbers. -/
def quotient (n : Nat) (twos tens : Int) : Nat × Nat :=
  (n * Nat.pow 2 twos.toNat * Nat.pow 10 tens.toNat,
    Nat.pow 2 (-twos).toNat * Nat.pow 10 (-tens).toNat)

/-- The exponent at which the quotient `num / den` has a mantissa of 53 bits, or the least exponent
there is. -/
def exponentFor (num den : Nat) : Int :=
  let guess : Int := (Nat.log2 num : Int) - (Nat.log2 den : Int) - 53
  let (scale, unit) := quotient num (-guess) 0
  max (-1074) (if mantissaLimit ≤ scale / (unit * den) then guess + 1 else guess)

/-- The number nearest to the positive quotient `num / den`, a tie to the even mantissa. -/
def ofRatio (negative : Bool) (num den : Nat) : Binary64 :=
  let exponent := exponentFor num den
  let (scale, unit) := quotient num (-exponent) 0
  let mantissa := roundHalfEven scale (unit * den)
  let (mantissa, exponent) :=
    if mantissa = mantissaLimit then (mantissaLimit / 2, exponent + 1) else (mantissa, exponent)
  if mantissa = 0 then finite negative 0 0
  else if 971 < exponent then infinite negative
  else finite negative mantissa exponent

/-- How many decimal digits a natural number has; zero has none. -/
def digitCount (n : Nat) : Nat :=
  if n = 0 then 0 else (Nat.toDigits 10 n).length

/-- The number nearest to `digits * 10 ^ exponent`. Magnitudes far outside the range are settled by
counting digits. -/
def ofDecimal (negative : Bool) (digits : Nat) (exponent : Int) : Binary64 :=
  let magnitude := (digitCount digits : Int) + exponent
  if digits = 0 ∨ magnitude < -400 then finite negative 0 0
  else if 400 < magnitude then infinite negative
  else
    let (num, den) := quotient digits 0 exponent
    ofRatio negative num den

/-- Whether the number is a zero of either sign. -/
def isZero : Binary64 → Bool
  | finite _ mantissa _ => mantissa = 0
  | _ => false

/-- The number with the opposite sign. -/
def negate : Binary64 → Binary64
  | finite negative mantissa exponent => finite (!negative) mantissa exponent
  | infinite negative => infinite (!negative)
  | nan => nan

/-- The number nearest to an integer. -/
def ofInt (n : Int) : Binary64 :=
  ofDecimal (n < 0) n.natAbs 0

/-- A finite number as a quotient. -/
def fraction? : Binary64 → Option (Int × Nat)
  | finite negative mantissa exponent =>
    let (num, den) := quotient mantissa exponent 0
    some (if negative then -(num : Int) else num, den)
  | _ => none

/-- The number nearest to a quotient. -/
def ofFraction (num : Int) (den : Nat) : Binary64 :=
  if num = 0 then finite false 0 0 else ofRatio (num < 0) num.natAbs den

/-- The sum of two finite numbers, rounded. -/
def add (a b : Binary64) : Binary64 :=
  match a.fraction?, b.fraction? with
  | some (m, d), some (n, e) => ofFraction (m * e + n * d) (d * e)
  | _, _ => nan

/-- The product of two finite numbers, rounded. -/
def mul (a b : Binary64) : Binary64 :=
  match a.fraction?, b.fraction? with
  | some (m, d), some (n, e) => ofFraction (m * n) (d * e)
  | _, _ => nan

/-- The integer equal to the number, if it is one. -/
def toInt? : Binary64 → Option Int
  | finite negative mantissa exponent =>
    let (num, den) := quotient mantissa exponent 0
    if num % den ≠ 0 then none
    else some (if negative then -((num / den : Nat) : Int) else (num / den : Nat))
  | _ => none

end Binary64

end Stencil
