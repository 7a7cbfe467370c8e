import OutputIndex.Address

/-!
# Reading addresses

The spelled-out form of an address is read from the front of a byte string: a multi address says
how many members follow, and a restricted one how many capability bytes, so the form ends itself.
Reading a whole address from a byte string or a text allows nothing behind it.
-/

namespace OutputIndex

/-- Why bytes or text are not an address. -/
inductive AddressError where
  /-- The bytes end inside the address. -/
  | truncated
  /-- No address begins with the byte. -/
  | unknownKind (kind : UInt8)
  /-- Some bytes follow the address. -/
  | trailing (count : Nat)
  /-- The text is not hexadecimal. -/
  | notHex (cause : HexError)
deriving DecidableEq

namespace Address

/-- Reads the first `n` bytes. -/
def readFixed (n : Nat) (input : Bytes) : Except AddressError (FixedBytes n × Bytes) :=
  match FixedBytes.ofList? (input.take n) with
  | some bytes => .ok (bytes, input.drop n)
  | none => .error .truncated

/-- Reads one byte. -/
def readByte : Bytes → Except AddressError (UInt8 × Bytes)
  | [] => .error .truncated
  | byte :: rest => .ok (byte, rest)

/-- Reads `count` members of a multi address, each with `read` and a weight behind it. -/
def readMembers (read : Bytes → Except AddressError (Address × Bytes)) :
    Nat → Bytes → Except AddressError (List (Address × UInt8) × Bytes)
  | 0, input => .ok ([], input)
  | count + 1, input => do
    let (member, rest) ← read input
    let (weight, rest) ← readByte rest
    let (members, rest) ← readMembers read count rest
    return ((member, weight) :: members, rest)

/-- Reads an address of at most `depth` levels from the front of a byte string. -/
def readNested : Nat → Bytes → Except AddressError (Address × Bytes)
  | 0, _ => .error .truncated
  | depth + 1, input => do
    let (kind, rest) ← readByte input
    match kind with
    | 0 => do
      let (hash, rest) ← readFixed 32 rest
      return (.ed25519 hash, rest)
    | 8 => do
      let (hash, rest) ← readFixed 32 rest
      return (.account ⟨hash⟩, rest)
    | 16 => do
      let (hash, rest) ← readFixed 32 rest
      return (.nft ⟨hash⟩, rest)
    | 24 => do
      let (hash, rest) ← readFixed 32 rest
      return (.anchor ⟨hash⟩, rest)
    | 32 => do
      let (hash, rest) ← readFixed 32 rest
      return (.implicitAccountCreation hash, rest)
    | 40 => do
      let (count, rest) ← readByte rest
      let (members, rest) ← readMembers (readNested depth) count.toNat rest
      let (threshold, rest) ← readFixed 2 rest
      return (.multi members (UInt16.ofNat (ofLittleEndian threshold.toList)), rest)
    | 48 => do
      let (inner, rest) ← readNested depth rest
      let (length, rest) ← readByte rest
      let (capabilities, rest) ← readFixed length.toNat rest
      return (.restricted inner capabilities.toList, rest)
    | kind => .error (.unknownKind kind)

/-- Reads an address from the front of a byte string.  Every level takes a byte, so there are no
more levels than bytes; one more lets the empty input end in the same fault as any other short
one. -/
def read (input : Bytes) : Except AddressError (Address × Bytes) :=
  readNested (input.length + 1) input

/-- Reads an address that takes up the whole byte string. -/
def ofBytes (input : Bytes) : Except AddressError Address := do
  let (address, rest) ← read input
  if rest.isEmpty then return address else .error (.trailing rest.length)

/-- Reads an address from hexadecimal text; one marker `0x` may stand before it. -/
def ofHex (text : String) : Except AddressError Address :=
  match Hex.decodeChars (Hex.dropMarker text.toList) with
  | .error cause => .error (.notHex cause)
  | .ok bytes => ofBytes bytes

/-- The address as a JSON document. -/
def toJson (address : Address) : Json := .text address.hex

/-- Reads an address from a JSON document. -/
def ofJson? (json : Json) : Option Address := do (ofHex (← json.text?)).toOption

end Address

/-- The definition of a multi address as a JSON document. -/
def MultiAddress.toJson (definition : MultiAddress) : Json :=
  .ofFields
    [("addresses", .array (definition.members.map fun (member, weight) =>
        .ofFields [("address", member.toJson), ("weight", .natural weight.toNat)])),
     ("threshold", .natural definition.threshold.toNat)]

/-- The text of a fault in an address. -/
def AddressError.message : AddressError → String
  | .truncated => "payload is truncated"
  | .unknownKind kind => "invalid address: unknown address kind " ++ toString kind
  | .trailing count => "invalid address: " ++ toString count ++ " trailing bytes"
  | .notHex cause => "invalid address: " ++ cause.message

end OutputIndex
