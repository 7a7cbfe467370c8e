import OutputIndex.Field

/-!
# JSON documents

Ledger data, configuration and answers are exchanged as JSON.  This file has the tree of a
document and the reading of records from it.

A record can be written as an object, whose members are looked up by name, or as an array of the
fields in their declared order.  Members of unknown name are skipped, and so are their values, even
if these hold text that denotes no characters; a known member may stand only once.
-/

namespace OutputIndex

/-- A JSON document. -/
inductive Json where
  /-- The literal `null`. -/
  | null
  /-- One of the literals `true` and `false`. -/
  | bool (value : Bool)
  /-- A number without sign, fraction and exponent. -/
  | natural (value : Nat)
  /-- Any other number, as it is written. -/
  | otherNumber (lexeme : String)
  /-- A text. -/
  | text (value : String)
  /-- A well-formed text literal that denotes no text: it holds half of a surrogate pair, or bytes
  that are not UTF-8. -/
  | unreadable
  /-- A list of documents. -/
  | array (elements : List Json)
  /-- Named members, in the order they are written; a name that denotes no text is `none`. -/
  | object (members : List (Option String × Json))

namespace Json

/-- An object with the given members. -/
def ofFields (fields : List (String × Json)) : Json :=
  .object (fields.map fun field => (some field.1, field.2))

/-- A value that may be missing, written as `null` if it is. -/
def ofOption {α : Type} (write : α → Json) : Option α → Json
  | none => .null
  | some value => write value

/-! ## Reading plain values -/

/-- The number below `bound` that a document denotes. -/
def natural? (bound : Nat) : Json → Option (Fin bound)
  | .natural value => if h : value < bound then some ⟨value, h⟩ else none
  | _ => none

/-- The byte that a document denotes. -/
def word8? (json : Json) : Option UInt8 := (json.natural? UInt8.size).map (UInt8.ofNat ·.val)

/-- The 16-bit number that a document denotes. -/
def word16? (json : Json) : Option UInt16 := (json.natural? UInt16.size).map (UInt16.ofNat ·.val)

/-- The 32-bit number that a document denotes. -/
def word32? (json : Json) : Option UInt32 := (json.natural? UInt32.size).map (UInt32.ofNat ·.val)

/-- The 64-bit number that a document denotes. -/
def word64? (json : Json) : Option UInt64 := (json.natural? UInt64.size).map (UInt64.ofNat ·.val)

/-- The text that a document denotes. -/
def text? : Json → Option String
  | .text value => some value
  | _ => none

/-- The truth value that a document denotes. -/
def bool? : Json → Option Bool
  | .bool value => some value
  | _ => none

/-- The elements of a list, each read with `read`. -/
def list? {α : Type} (read : Json → Option α) : Json → Option (List α)
  | .array elements => elements.mapM read
  | _ => none

/-- A value that may be missing: `null` says that it is. -/
def option? {α : Type} (read : Json → Option α) : Json → Option (Option α)
  | .null => some none
  | json => (read json).map some

/-- A value of a sum: its name, and what is written behind the name, if anything. -/
def variant? : Json → Option (String × Option Json)
  | .text name => some (name, none)
  | .object [(some name, content)] => some (name, some content)
  | _ => none

/-- The content of a variant that has none. -/
def unit? : Option Json → Option Unit
  | none => some ()
  | some .null => some ()
  | some _ => none

/-! ## Reading records -/

/-- What a document has for one field of a record. -/
abbrev Field := OutputIndex.Field Json

/-- A field that may be missing from an object, but not from an array; `null` says that it is. -/
def Field.optional {α : Type} (read : Json → Option α) (field : Field) : Option (Option α) :=
  OutputIndex.Field.optional (option? read) field

/-- What the members of an object have for a field; nothing if the field is written twice. -/
def field? (members : List (Option String × Json)) (name : String) : Option Field :=
  match members.filter fun member => member.1 == some name with
  | [] => some .absent
  | [(_, value)] => some (.present value)
  | _ => none

/-- What a document has for each of the fields of a record. -/
def fields? (names : List String) : Json → Option (List Field)
  | .object members =>
    if members.all fun member => member.1.isSome then names.mapM (field? members) else none
  | .array elements =>
    if elements.length ≤ names.length then
      some (elements.map .present ++ List.replicate (names.length - elements.length) .cut)
    else none
  | _ => none

end Json

end OutputIndex
