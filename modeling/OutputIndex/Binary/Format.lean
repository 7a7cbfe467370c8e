import OutputIndex.Address.Parser
import OutputIndex.Text.Utf8

/-!
# Binary formats

A binary format says how values are written to bytes and how they are read back from the front of
a byte string.  Formats are built from a few basic ones: numbers are little-endian and of fixed
width, a truth value is one byte, a value that may be missing has a byte before it, lists and texts
have a count of 64 bits before them, and the alternatives of a sum have a tag of 32 bits.  Whatever
stands behind a value is left alone.

`Format.Reads` says that a value reads back from its written form whatever stands behind it, and
`Format.Canonical` that a value is read only from its written form.
-/

namespace OutputIndex

/-- Why bytes are not the binary form of a value. -/
inductive BinaryError where
  /-- The bytes end inside a number or a list. -/
  | endOfInput
  /-- A text is said to be longer than what is left. -/
  | shortText
  /-- A truth value is neither 0 nor 1. -/
  | notBool (byte : UInt8)
  /-- The byte before a value that may be missing is neither 0 nor 1. -/
  | notOption (byte : UInt8)
  /-- The tag of a sum is not below the number of its alternatives. -/
  | unknownVariant (tag : Nat) (count : Nat)
  /-- A text is not UTF-8. -/
  | notUtf8 (cause : Utf8Error)
  /-- An identifier has the wrong number of bytes. -/
  | wrongLength (length : Nat) (expected : IdentifierKind)
  /-- A text is not hexadecimal. -/
  | notHex (cause : HexError)
  /-- Bytes are not an address. -/
  | notAddress (cause : AddressError)
deriving DecidableEq

/-- The text of a fault in a binary form. -/
def BinaryError.message : BinaryError → String
  | .endOfInput => "io error: unexpected end of file"
  | .shortText => "io error: "
  | .notBool byte =>
    "invalid u8 while decoding bool, expected 0 or 1, found " ++ toString byte
  | .notOption byte => "tag for enum is not valid, found " ++ toString byte
  | .unknownVariant tag count =>
    "invalid value: integer `" ++ toString tag ++ "`, expected variant index 0 <= i < "
      ++ toString count
  | .notUtf8 cause => "string is not valid utf8: " ++ cause.message
  | .wrongLength length expected =>
    "invalid length " ++ toString length ++ ", expected " ++ expected.name
  | .notHex cause => cause.message
  | .notAddress cause => cause.message

/-- A binary format for the values of a type. -/
structure Format (α : Type) where
  /-- The bytes of a value. -/
  write : α → Bytes
  /-- Reads a value from the front of a byte string. -/
  read : Bytes → Except BinaryError (α × Bytes)

namespace Format

variable {α β : Type}

/-- The value reads back from its written form, and what stands behind it is left. -/
def Reads (format : Format α) (value : α) : Prop :=
  ∀ rest, format.read (format.write value ++ rest) = .ok (value, rest)

/-- A value is read only from its written form. -/
def Canonical (format : Format α) : Prop :=
  ∀ input value rest, format.read input = .ok (value, rest) → input = format.write value ++ rest

/-- Reads a value from the front of a byte string and drops the rest. -/
def decode (format : Format α) (input : Bytes) : Except BinaryError α :=
  (format.read input).map (·.1)

/-! ## Building formats -/

/-- One value after the other. -/
def prod (first : Format α) (second : Format β) : Format (α × β) where
  write value := first.write value.1 ++ second.write value.2
  read input := do
    let (a, rest) ← first.read input
    let (b, rest) ← second.read rest
    return ((a, b), rest)

/-- The values of one type, written as values of another. -/
def map (format : Format α) (forth : α → β) (back : β → α) : Format β where
  write value := format.write (back value)
  read input := do
    let (a, rest) ← format.read input
    return (forth a, rest)

/-- The values of one type, written as values of another that may be refused. -/
def refine (format : Format α) (forth : α → Except BinaryError β) (back : β → α) : Format β where
  write value := format.write (back value)
  read input := do
    let (a, rest) ← format.read input
    return (← forth a, rest)

/-- A value that may be missing: a byte says whether it is there. -/
def option (format : Format α) : Format (Option α) where
  write
    | none => [0]
    | some value => 1 :: format.write value
  read
    | [] => .error .endOfInput
    | 0 :: rest => .ok (none, rest)
    | 1 :: rest => do
      let (value, rest) ← format.read rest
      return (some value, rest)
    | byte :: _ => .error (.notOption byte)

/-- Reads `count` values. -/
def readMany (format : Format α) : Nat → Bytes → Except BinaryError (List α × Bytes)
  | 0, input => .ok ([], input)
  | count + 1, input => do
    let (value, rest) ← format.read input
    let (values, rest) ← readMany format count rest
    return (value :: values, rest)

/-! ## Numbers -/

/-- A number in `n` bytes, the lowest first. -/
def number (n : Nat) : Format Nat where
  write := littleEndian n
  read input :=
    if n ≤ input.length then .ok (ofLittleEndian (input.take n), input.drop n)
    else .error .endOfInput

/-- A number of 8 bits. -/
def word8 : Format UInt8 := (number 1).map UInt8.ofNat UInt8.toNat

/-- A number of 32 bits. -/
def word32 : Format UInt32 := (number 4).map UInt32.ofNat UInt32.toNat

/-- A number of 64 bits. -/
def word64 : Format UInt64 := (number 8).map UInt64.ofNat UInt64.toNat

/-- A number of 128 bits. -/
def word128 : Format (Fin (UInt64.size * UInt64.size)) := (number 16).map (Fin.ofNat _) Fin.val

/-- A truth value in one byte. -/
def bool : Format Bool :=
  word8.refine
    (fun byte => if byte = 0 then .ok false else if byte = 1 then .ok true
      else .error (.notBool byte))
    (fun value => if value then 1 else 0)

/-! ## Lists, texts and what is written as such -/

/-- A list: the number of its elements, then the elements. -/
def list (format : Format α) : Format (List α) where
  write values := (number 8).write values.length ++ values.flatMap format.write
  read input := do
    let (count, rest) ← (number 8).read input
    readMany format count rest

/-- A byte string, as the list of its bytes. -/
def bytes : Format Bytes where
  write value := (number 8).write value.length ++ value
  read input := do
    let (count, rest) ← (number 8).read input
    if count ≤ rest.length then return (rest.take count, rest.drop count)
    else .error .endOfInput

/-- A text: the number of the bytes of its UTF-8 form, then these. -/
def text : Format String where
  write value := bytes.write (Utf8.encode value)
  read input := do
    let (count, rest) ← (number 8).read input
    if count ≤ rest.length then
      match Utf8.decode (rest.take count) with
      | .ok value => return (value, rest.drop count)
      | .error cause => .error (.notUtf8 cause)
    else .error .shortText

/-- A byte string, as its hexadecimal text. -/
def hex : Format Bytes :=
  text.refine (fun value => (Hex.decode value).mapError .notHex) Hex.encode

/-- An identifier, as the list of its bytes. -/
def identifier (kind : IdentifierKind) : Format (Identifier kind) :=
  bytes.refine
    (fun value =>
      match Identifier.ofList? value with
      | some id => .ok id
      | none => .error (.wrongLength value.length kind))
    Identifier.toList

/-- An address, as the list of the bytes of its spelled-out form. -/
def address : Format Address :=
  bytes.refine (fun value => (Address.ofBytes value).mapError .notAddress) Address.toBytes

/-! ## Sums -/

/-- A sum of `count` alternatives: the tag of the alternative, then its content, which `read`
reads for the tags below `count`. -/
def sum (count : Nat) (tag : α → Nat) (write : α → Bytes)
    (read : Nat → Bytes → Except BinaryError (α × Bytes)) : Format α where
  write value := (number 4).write (tag value) ++ write value
  read input := do
    let (tag, rest) ← (number 4).read input
    if tag < count then read tag rest else .error (.unknownVariant tag count)

end Format

end OutputIndex
