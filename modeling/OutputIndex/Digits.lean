/-!
# Decimal digits

The numbers that texts of decimal digits denote.
-/

namespace OutputIndex.Digits

/-- The number that one digit denotes. -/
def digit (c : Char) : Nat := c.toNat - '0'.toNat

/-- The number that digits denote. -/
def value (digits : List Char) : Nat := digits.foldl (fun value c => 10 * value + digit c) 0

@[simp] theorem value_nil : value [] = 0 := rfl

/-- One more digit counts ten times what stands before it, and itself. -/
@[simp] theorem value_concat (digits : List Char) (c : Char) :
    value (digits ++ [c]) = 10 * value digits + digit c := by
  simp [value]

/-- A sign at the front of a text: whether it is negative, and the text behind it. -/
def splitSign : List Char → Bool × List Char
  | '-' :: rest => (true, rest)
  | '+' :: rest => (false, rest)
  | text => (false, text)

/-- The number that a text of digits denotes, with an optional plus sign before them. -/
def natural? (text : String) : Option Nat :=
  let digits :=
    match text.toList with
    | '+' :: digits => digits
    | digits => digits
  if digits.isEmpty || !digits.all Char.isDigit then none else some (value digits)

/-- The number that a text of digits denotes, with an optional sign before them. -/
def integer? (text : String) : Option Int :=
  let (negative, digits) := splitSign text.toList
  if digits.isEmpty || !digits.all Char.isDigit then none
  else some (if negative then -(value digits : Int) else value digits)

end OutputIndex.Digits
