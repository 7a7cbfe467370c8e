import OutputIndex.Document
import OutputIndex.Toml.Text

/-!
# Numbers in TOML

A whole number has 64 bits and is written in base ten, sixteen, eight or two; any other number is
of double precision, and finite unless it is written as infinite.  Underscores can stand between
digits.
-/

namespace OutputIndex.Toml

/-- Digits without the underscores, each of which must stand between two digits. -/
def grouped? (isDigit : Char → Bool) : List Char → Option (List Char)
  | [] => none
  | [c] => if isDigit c then some [c] else none
  | c :: '_' :: rest => if isDigit c then (grouped? isDigit rest).map (c :: ·) else none
  | c :: rest => if isDigit c then (grouped? isDigit rest).map (c :: ·) else none

/-- Decimal digits without leading zeros. -/
def wholeDigits? (digits : List Char) : Option (List Char) := do
  let digits ← grouped? Char.isDigit digits
  if digits.head? = some '0' ∧ digits.length ≠ 1 then none else some digits

/-- The number that digits of a base denote. -/
def based? (base : Nat) (digits : List Char) : Option Nat := do
  let digits ← grouped? (fun c => (hexValue? [c]).any (· < base)) digits
  return digits.foldl (fun value c => base * value + (hexValue? [c]).getD 0) 0

/-- A whole number, if 64 bits hold it. -/
def whole? (negative : Bool) (value : Nat) : Option Document :=
  if negative then if value ≤ UInt64.size / 2 then some (.whole (-value)) else none
  else if value < UInt64.size / 2 then some (.whole value)
  else none

/-- The power of ten behind the mark of an exponent; none without a mark. -/
def power? : List Char → Option Int
  | [] => some 0
  | _ :: text => do
    let (negative, digits) := Digits.splitSign text
    let value : Nat := Digits.value (← grouped? Char.isDigit digits)
    return if negative then -value else value

/-- A finite number with a fraction or an exponent. -/
def fraction? (negative : Bool) (text : List Char) : Option Document := do
  let isPower (c : Char) : Bool := c == 'e' || c == 'E'
  let power ← power? (text.dropWhile fun c => !isPower c)
  let mantissa := text.takeWhile fun c => !isPower c
  let front ← wholeDigits? (mantissa.takeWhile (· != '.'))
  let back ←
    match mantissa.dropWhile (· != '.') with
    | [] => some []
    | _ :: fraction => grouped? Char.isDigit fraction
  let number := Double.ofDecimal negative (Digits.value (front ++ back)) (power - back.length)
  if number.isFinite then some (.fraction number) else none

/-- A number. -/
def number? : List Char → Option Document
  | '0' :: 'x' :: digits => (based? 16 digits).bind (whole? false)
  | '0' :: 'o' :: digits => (based? 8 digits).bind (whole? false)
  | '0' :: 'b' :: digits => (based? 2 digits).bind (whole? false)
  | text =>
    let (negative, unsigned) := Digits.splitSign text
    if unsigned = "inf".toList then some (.fraction (.infinite negative))
    else if unsigned = "nan".toList then some (.fraction .notNumber)
    else
      -- digits alone are a whole number or nothing, even if only a fraction could hold it
      match wholeDigits? unsigned with
      | some digits => whole? negative (Digits.value digits)
      | none => fraction? negative unsigned

end OutputIndex.Toml
