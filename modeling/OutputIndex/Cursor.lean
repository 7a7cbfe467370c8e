import OutputIndex.Error

/-!
# Query order and cursors

Queries return outputs in the order of their slots and, within a slot, of their identifiers.  A
cursor is the text of a place in that order: eight hexadecimal digits for the slot and then those
of the identifier, so that cursors compare as texts like the places they stand for.
-/

namespace OutputIndex

/-- A place in query order. -/
@[ext] structure SortKey where
  /-- The slot in which the output was booked. -/
  slot : Slot
  outputId : OutputId
deriving DecidableEq

namespace SortKey

/-- The `n` lowest hexadecimal digits of a number, the highest first. -/
def slotDigits : Nat → Nat → List Char
  | 0, _ => []
  | n + 1, value => slotDigits n (value / 16) ++ [Hex.digit (value % 16)]

/-- The digits of a cursor. -/
def cursorDigits (key : SortKey) : List Char :=
  slotDigits 8 key.slot.toNat ++ Hex.digits key.outputId.toList

/-- The cursor of a place. -/
def cursor (key : SortKey) : String := String.ofList key.cursorDigits

/-- The number that hexadecimal digits denote, the highest first. -/
def ofSlotDigits (digits : List Char) : Nat :=
  digits.foldl (fun value digit => 16 * value + (Hex.value? digit).getD 0) 0

/-- Reads the digits of a slot. -/
def readSlot (digits : List Char) : Except CursorError Slot :=
  if digits.any fun c => (Hex.value? c).isNone then
    .error (.refused "invalid digit found in string")
  else if h : ofSlotDigits digits < UInt32.size then .ok (UInt32.ofNatLT (ofSlotDigits digits) h)
  else .error (.refused "number too large to fit in target type")

/-- Reads the digits of an identifier, which may be capitals. -/
def readOutputId (digits : List Char) : Except CursorError OutputId :=
  match Identifier.ofHex (String.ofList (digits.map Char.toLower)) with
  | .error cause => .error (.refused cause.message)
  | .ok id => .ok id

/-- Reads the digits of a cursor. -/
def ofCursorDigits (text : List Char) : Except CursorError SortKey :=
  if Hex.byteCount text ≠ 84 then .error (.length (Hex.byteCount text))
  else if text.any fun c => (Hex.value? c).isNone then .error .notHex
  else do
    let slot ← readSlot (text.take 8)
    let outputId ← readOutputId (text.drop 8)
    return ⟨slot, outputId⟩

/-- Reads a cursor. -/
def ofCursor (text : String) : Except CursorError SortKey := ofCursorDigits text.toList

end SortKey

end OutputIndex
