import OutputIndex.Document
import OutputIndex.Json.Reader

/-!
# Documents of settings in JSON

A JSON text is a document of settings if every text in it can be read, every number is in range,
and it is not nested too deeply.  Of members of one name the last one counts.
-/

namespace OutputIndex

/-! ## Numbers -/

namespace Document

/-- The longest front of some digits that denotes, behind those of `value`, a number of 64 bits:
that number, and the digits that are left. -/
def gather (value : Nat) : List Char → Nat × List Char
  | [] => (value, [])
  | digit :: rest =>
    let next := 10 * value + Digits.digit digit
    if next < UInt64.size then gather next rest else (value, digit :: rest)

/-- The number with a sign. -/
def signed (negative : Bool) (number : Double) : Double := if negative then number.neg else number

/-- The whole number that digits with a sign denote; if it has more than 64 bits, the number of
double precision near it.  Zero with a sign is no whole number. -/
def wholeNumber? (negative : Bool) (digits : List Char) : Option Document :=
  let (value, dropped) := gather 0 digits
  if !dropped.isEmpty then
    (Double.inTwoSteps value dropped.length).map fun number => .fraction (signed negative number)
  else if negative then
    if value ≠ 0 ∧ value ≤ UInt64.size / 2 then some (.whole (-value))
    else some (.fraction (signed true (.ofNat value)))
  else if value < UInt64.size / 2 then some (.whole value)
  else some (.fraction (.ofNat value))

/-- The number of double precision near the one with the given digits before and behind the point
and the given power of ten.  Digits that no longer fit into 64 bits are dropped; one before the
point counts as a power of ten. -/
def fraction? (negative : Bool) (front back : List Char) (power : Int) : Option Document := do
  let (value, droppedFront) := gather 0 front
  let (value, droppedBack) := gather value back
  let scale := power + droppedFront.length - (back.length - droppedBack.length : Nat)
  return .fraction (signed negative (← Double.inTwoSteps value scale))

/-- The number that a JSON number literal denotes, if it is in range. -/
def ofNumber? (lexeme : String) : Option Document :=
  let (negative, digits) := Digits.splitSign lexeme.toList
  let isPower (c : Char) : Bool := c == 'e' || c == 'E'
  let mantissa := digits.takeWhile fun c => !isPower c
  let power := (digits.dropWhile fun c => !isPower c).drop 1
  let front := mantissa.takeWhile Char.isDigit
  let back := (mantissa.dropWhile Char.isDigit).drop 1
  if back.isEmpty ∧ power.isEmpty then wholeNumber? negative front
  else
    let exponent : Nat := Digits.value (power.filter Char.isDigit)
    fraction? negative front back (if power.head? = some '-' then -exponent else exponent)

/-! ## Trees -/

mutual

/-- The document that a JSON document is. -/
def ofTree? : Json → Option Document
  | .null => some .missing
  | .bool value => some (.truth value)
  | .natural value => ofNumber? (toString value)
  | .otherNumber lexeme => ofNumber? lexeme
  | .text value => some (.text value)
  | .unreadable => none
  | .array elements => do return .list (← ofElements? elements)
  | .object members => do return .table (← ofMembers? members)

/-- The documents that some JSON documents are. -/
def ofElements? : List Json → Option (List Document)
  | [] => some []
  | element :: rest => do return (← ofTree? element) :: (← ofElements? rest)

/-- The members of a table that those of an object are. -/
def ofMembers? : List (Option String × Json) → Option (List (String × Document))
  | [] => some []
  | (name, value) :: rest => do
    let name ← name
    let value ← ofTree? value
    let members ← ofMembers? rest
    return if (members.lookup name).isSome then members else (name, value) :: members

end

end Document

namespace Json

mutual

/-- How many arrays and objects of a document stand inside one another at most. -/
def depth : Json → Nat
  | .array elements => depthOfElements elements + 1
  | .object members => depthOfMembers members + 1
  | _ => 0

/-- The largest depth of some documents. -/
def depthOfElements : List Json → Nat
  | [] => 0
  | element :: rest => max element.depth (depthOfElements rest)

/-- The largest depth of the members of an object. -/
def depthOfMembers : List (Option String × Json) → Nat
  | [] => 0
  | (_, value) :: rest => max value.depth (depthOfMembers rest)

end

end Json

namespace Document

/-- The depth that a document of settings can have. -/
def maxJsonDepth : Nat := 127

/-- The document that a JSON text is. -/
def ofJsonText? (text : String) : Option Document := do
  let json ← Json.ofText? text
  if json.depth ≤ maxJsonDepth then ofTree? json else none

end Document

end OutputIndex
