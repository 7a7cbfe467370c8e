/-!
# Fields of records

A record is written as a table, whose members are looked up by name, or as a list of the fields in
their declared order.  This file has what such a document can have for a field, and how a value
comes of it.
-/

namespace OutputIndex

/-- What a document has for one field of a record. -/
inductive Field (δ : Type) where
  /-- The field is written. -/
  | present (value : δ)
  /-- The table has no member of the field's name. -/
  | absent
  /-- The list ends before the field. -/
  | cut

namespace Field

variable {δ α : Type}

/-- A field that must be written. -/
def required (read : δ → Option α) : Field δ → Option α
  | .present value => read value
  | .absent => none
  | .cut => none

/-- A field that has the value `default` where it is not written. -/
def withDefault (default : α) (read : δ → Option α) : Field δ → Option α
  | .present value => read value
  | .absent => some default
  | .cut => some default

/-- A field that may be missing from a table, but not from a list. -/
def optional (read : δ → Option (Option α)) : Field δ → Option (Option α)
  | .present value => read value
  | .absent => some none
  | .cut => none

end Field

end OutputIndex
