/-!
# Numbers of double precision

A number of double precision is a multiple of a power of two whose mantissa has at most 53 bits.
Every quotient has a nearest one, and of two that are equally near the one with the even mantissa
is taken; a quotient that is too large becomes infinite, and one that is too small becomes zero.
Everything is worked out with whole numbers.
-/

namespace OutputIndex

/-- A number of double precision. -/
inductive Double where
  /-- The number `mantissa · 2 ^ exponent`, or its negative. -/
  | finite (negative : Bool) (mantissa : Nat) (exponent : Int)
  | infinite (negative : Bool)
  /-- What is not a number. -/
  | notNumber
deriving DecidableEq

namespace Double

/-- The least exponent. -/
def minExponent : Int := -1074

/-- The largest exponent. -/
def maxExponent : Int := 971

/-- Zero. -/
def zero (negative : Bool) : Double := .finite negative 0 minExponent

/-- Whether a number is finite. -/
def isFinite : Double → Bool
  | .finite _ _ _ => true
  | _ => false

/-- Whether a number is zero. -/
def isZero : Double → Bool
  | .finite _ mantissa _ => mantissa == 0
  | _ => false

/-! ## Rounding -/

/-- The whole number nearest to a quotient; of two the even one. -/
def nearestEven (numerator denominator : Nat) : Nat :=
  let quotient := numerator / denominator
  let twice := 2 * (numerator % denominator)
  if twice > denominator ∨ (twice = denominator ∧ quotient % 2 = 1) then quotient + 1
  else quotient

/-- The numerator and denominator of `numerator / denominator · 2 ^ (-exponent)`. -/
def scaleDown (numerator denominator : Nat) (exponent : Int) : Nat × Nat :=
  if 0 ≤ exponent then (numerator, denominator <<< exponent.toNat)
  else (numerator <<< (-exponent).toNat, denominator)

/-- The exponent with which the mantissa of a quotient that is not zero has 53 bits, or fewer if
the exponent is the least one. -/
def exponentOf (numerator denominator : Nat) : Int :=
  let estimate : Int := max minExponent ((numerator.log2 : Int) - denominator.log2 - 53)
  let (scaled, unit) := scaleDown numerator denominator estimate
  if scaled / unit < 1 <<< 53 then estimate else estimate + 1

/-- The number nearest to a quotient, whose denominator is positive. -/
def ofQuotient (negative : Bool) (numerator denominator : Nat) : Double :=
  if numerator = 0 then zero negative
  else
    let exponent := exponentOf numerator denominator
    let (scaled, unit) := scaleDown numerator denominator exponent
    let mantissa := nearestEven scaled unit
    -- rounding up can take the mantissa to the next power of two
    let (mantissa, exponent) :=
      if mantissa = 1 <<< 53 then (1 <<< 52, exponent + 1) else (mantissa, exponent)
    if maxExponent < exponent then .infinite negative else .finite negative mantissa exponent

/-- The number nearest to a whole number. -/
def ofNat (value : Nat) : Double := ofQuotient false value 1

/-- The negative of a number. -/
def neg : Double → Double
  | .finite negative mantissa exponent => .finite (!negative) mantissa exponent
  | .infinite negative => .infinite (!negative)
  | .notNumber => .notNumber

/-- The numerator and denominator of `mantissa · 2 ^ exponent`. -/
def quotient (mantissa : Nat) (exponent : Int) : Nat × Nat :=
  if 0 ≤ exponent then (mantissa <<< exponent.toNat, 1) else (mantissa, 1 <<< (-exponent).toNat)

/-- The whole number nearest to a number; a half goes away from zero.  Numbers below zero and what
is not a number give zero, and large ones give `limit`. -/
def toNat (limit : Nat) : Double → Nat
  | .finite true _ _ => 0
  | .finite false mantissa exponent =>
    let (numerator, denominator) := quotient mantissa exponent
    min limit ((2 * numerator + denominator) / (2 * denominator))
  | .infinite negative => if negative then 0 else limit
  | .notNumber => 0

end Double

end OutputIndex
