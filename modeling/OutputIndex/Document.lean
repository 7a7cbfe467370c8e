import OutputIndex.Digits
import OutputIndex.Double.Decimal
import OutputIndex.Field

/-!
# Documents of settings

Settings are written in documents: trees of tables, lists and plain values.  Plain values are read
leniently.  A text may stand for a number or a truth value and the other way round, and a fraction
is rounded; only a number that is out of range is refused.
-/

namespace OutputIndex

/-- A document, or a part of one. -/
inductive Document where
  /-- A value that is said to be missing. -/
  | missing
  /-- A truth value. -/
  | truth (value : Bool)
  /-- A whole number of 64 bits. -/
  | whole (value : Int)
  /-- A number of double precision. -/
  | fraction (value : Double)
  | text (value : String)
  | list (elements : List Document)
  /-- Named members, each name once. -/
  | table (members : List (String × Document))

namespace Document

/-! ## Plain values, read leniently -/

/-- The truth value that a text stands for, with one of the words or with another one. -/
def truthOf? (yes no : List String) (text : String) : Option Bool :=
  let text := text.map Char.toLower
  if yes.contains text then some true else if no.contains text then some false else none

/-- A text; other plain values stand for what they are written as. -/
def text? : Document → Option String
  | .text value => some value
  | .truth value => some (if value then "true" else "false")
  | .whole value => some (toString value)
  | .fraction value => some value.toText
  | _ => none

/-- The number that a plain value stands for, if it is not negative.  A fraction below zero counts
as zero, and one that is too large as the largest number of 64 bits. -/
def natural? : Document → Option Nat
  | .whole value => if 0 ≤ value then some value.toNat else none
  | .fraction value => some (value.toNat (UInt64.size - 1))
  | .truth value => some (if value then 1 else 0)
  | .text value =>
    match truthOf? ["true", "on", "yes"] ["false", "off", "no"] value with
    | some value => some (if value then 1 else 0)
    | none => Digits.natural? value
  | _ => none

/-- A number of 64 bits. -/
def word64? (document : Document) : Option UInt64 := do
  let value ← document.natural?
  if value < UInt64.size then some (UInt64.ofNat value) else none

/-- A number of 32 bits. -/
def word32? (document : Document) : Option UInt32 := do
  let value ← document.natural?
  if value < UInt32.size then some (UInt32.ofNat value) else none

/-- A truth value. -/
def truth? : Document → Option Bool
  | .truth value => some value
  | .whole value => some (value != 0)
  | .fraction value => some !value.isZero
  | .text value => truthOf? ["1", "true", "on", "yes"] ["0", "false", "off", "no"] value
  | _ => none

/-- A value that may be said to be missing. -/
def option? {α : Type} (read : Document → Option α) : Document → Option (Option α)
  | .missing => some none
  | document => (read document).map some

/-! ## Records -/

/-- What a document has for each of the fields of a record; members of other names, and elements
beyond the fields, are skipped. -/
def fields? (names : List String) : Document → Option (List (Field Document))
  | .table members =>
    some (names.map fun name => (members.lookup name).elim .absent .present)
  | .list elements =>
    some ((elements.take names.length).map .present
      ++ List.replicate (names.length - elements.length) .cut)
  | _ => none

end Document

end OutputIndex
