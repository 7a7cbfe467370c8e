import OutputIndex.Double

/-!
# Decimal forms of numbers of double precision

A decimal number is rounded to the nearest number of double precision, either in one step or in
two: first its digits to a number, and then that number times or over a power of ten.  The two
steps can end next to the nearest number.

A number is written with the fewest digits that are read as that number again.
-/

namespace OutputIndex.Double

/-! ## Reading -/

/-- The number nearest to `digits · 10 ^ scale`. -/
def ofDecimal (negative : Bool) (digits : Nat) (scale : Int) : Double :=
  -- far beyond the largest number, and far below the least one, the power is not worked out
  if digits = 0 then zero negative
  else if 400 < scale then .infinite negative
  else if scale + (digits.log2 / 3 + 1 : Nat) < -400 then zero negative
  else if 0 ≤ scale then ofQuotient negative (digits * Nat.pow 10 scale.toNat) 1
  else ofQuotient negative digits (Nat.pow 10 (-scale).toNat)

/-- The product of two numbers that are not negative. -/
def times : Double → Double → Double
  | .finite _ mantissa exponent, .finite _ mantissa' exponent' =>
    let (numerator, denominator) := quotient mantissa exponent
    let (numerator', denominator') := quotient mantissa' exponent'
    ofQuotient false (numerator * numerator') (denominator * denominator')
  | .notNumber, _ => .notNumber
  | _, .notNumber => .notNumber
  | _, _ => .infinite false

/-- The quotient of a finite number that is not negative and a positive one. -/
def dividedBy : Double → Double → Double
  | .finite _ mantissa exponent, .finite _ mantissa' exponent' =>
    let (numerator, denominator) := quotient mantissa exponent
    let (numerator', denominator') := quotient mantissa' exponent'
    ofQuotient false (numerator * denominator') (denominator * numerator')
  | _, _ => .notNumber

/-- A power of ten. -/
def power (exponent : Nat) : Double := ofDecimal false 1 exponent

/-- The largest exponent of a power of ten that is finite. -/
def maxPower : Nat := 308

/-- A number over a power of ten.  A large power is taken in steps, each of which is rounded; zero
ends them. -/
def overPower (number : Double) (exponent : Nat) : Double :=
  if exponent ≤ maxPower then number.dividedBy (power exponent)
  else if number.isZero then number
  else overPower (number.dividedBy (power maxPower)) (exponent - maxPower)
termination_by exponent
decreasing_by simp_all [maxPower]; omega

/-- A number times a power of ten; nothing if that is too large. -/
def timesPower (number : Double) (exponent : Nat) : Option Double :=
  if exponent ≤ maxPower then
    let product := number.times (power exponent)
    if product.isFinite then some product else none
  else if number.isZero then some number
  else none

/-- The number that `significand · 10 ^ scale` becomes in two steps; nothing if it is too large. -/
def inTwoSteps (significand : Nat) (scale : Int) : Option Double :=
  if 0 ≤ scale then timesPower (ofNat significand) scale.toNat
  else some (overPower (ofNat significand) (-scale).toNat)

/-! ## Writing -/

/-- The number of decimal digits in front of the point of a positive quotient; for one below a
tenth it is negative, and says how many zeros follow the point. -/
def magnitude (numerator denominator : Nat) : Int :=
  if denominator ≤ numerator then (Nat.toDigits 10 (numerator / denominator)).length
  else
    -- the quotient turned round tells the zeros, up to one
    let zeros := (Nat.toDigits 10 (denominator / numerator)).length - 1
    if denominator ≤ numerator * Nat.pow 10 zeros then 1 - (zeros : Int) else -(zeros : Int)

/-- Whether `digits · 10 ^ scale` is read as `mantissa · 2 ^ exponent`. -/
def readsAs (mantissa : Nat) (exponent : Int) (digits : Nat) (scale : Int) : Bool :=
  ofDecimal false digits scale == .finite false mantissa exponent

/-- The decimal number with `count` digits that lies nearest to a positive number and is read as
it, if there is one: its digits and the power of ten that they count.  Of two that are equally near
the upper one is taken. -/
def nearestDecimal? (mantissa : Nat) (exponent : Int) (count : Nat) : Option (Nat × Int) :=
  let (numerator, denominator) := quotient mantissa exponent
  let scale := magnitude numerator denominator - count
  let (scaled, unit) :=
    if 0 ≤ scale then (numerator, denominator * Nat.pow 10 scale.toNat)
    else (numerator * Nat.pow 10 (-scale).toNat, denominator)
  let below := scaled / unit
  let upIsNearer := unit ≤ 2 * (scaled % unit)
  let candidates := if upIsNearer then [below + 1, below] else [below, below + 1]
  (candidates.find? fun digits => readsAs mantissa exponent digits scale).map (·, scale)

/-- The decimal number with the fewest digits that is read as a positive number. -/
def shortest (mantissa : Nat) (exponent : Int) : Nat × Int :=
  ((List.range' 1 17).findSome? (nearestDecimal? mantissa exponent)).getD (mantissa, 0)

/-- The text of `digits · 10 ^ scale`, without a power of ten. -/
def positional (digits : Nat) (scale : Int) : String :=
  let text := Nat.toDigits 10 digits
  if 0 ≤ scale then String.ofList (text ++ List.replicate scale.toNat '0')
  else
    let places := (-scale).toNat
    let text := List.replicate (places + 1 - text.length) '0' ++ text
    let front := text.take (text.length - places)
    let fraction := (text.drop (text.length - places)).reverse.dropWhile (· == '0')
    if fraction.isEmpty then String.ofList front
    else String.ofList (front ++ '.' :: fraction.reverse)

/-- The text of a number. -/
def toText : Double → String
  | .finite negative mantissa exponent =>
    let (digits, scale) := if mantissa = 0 then (0, 0) else shortest mantissa exponent
    (if negative then "-" else "") ++ positional digits scale
  | .infinite negative => if negative then "-inf" else "inf"
  | .notNumber => "NaN"

end OutputIndex.Double
