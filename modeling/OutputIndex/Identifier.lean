import OutputIndex.Digest
import OutputIndex.Hex
import OutputIndex.Json.Basic

/-!
# Identifiers

Outputs, the chains they carry (accounts, anchors, NFTs, delegations) and foundries have
identifiers of a fixed length.  An output's identifier is made of the transaction that created it,
the slot of that transaction and the output's place in it.  A chain whose first output spells out
no identifier is identified by the digest of that output's identifier, so an identifier of zeros
stands for "not spelled out".
-/

namespace OutputIndex

/-- A point in ledger time. -/
abbrev Slot := UInt32

namespace Slot

/-- The highest slot. -/
def last : Slot := 4294967295

/-- The slot after a slot, if there is one. -/
def next? (slot : Slot) : Option Slot := if slot = last then none else some (slot + 1)

/-- The slot after a slot is the one whose number is higher by one. -/
theorem next?_eq_some_iff {slot later : Slot} :
    slot.next? = some later ↔ later.toNat = slot.toNat + 1 := by
  have hlast : last.toNat = 4294967295 := rfl
  have hone : (1 : UInt32).toNat = 1 := rfl
  have hslot := slot.toNat_lt
  have hlater := later.toNat_lt
  unfold next?
  split
  · rename_i heq
    subst heq
    exact iff_of_false nofun (by omega)
  · rename_i hne
    rw [← UInt32.toNat_inj, hlast] at hne
    rw [Option.some.injEq, ← UInt32.toNat_inj, UInt32.toNat_add, hone]
    omega

end Slot

/-- What an identifier identifies. -/
inductive IdentifierKind where
  | output
  | account
  | anchor
  | nft
  | delegation
  | foundry
deriving DecidableEq

namespace IdentifierKind

/-- The number of bytes of an identifier. -/
def length : IdentifierKind → Nat
  | .output => 38
  | .account => 32
  | .anchor => 32
  | .nft => 32
  | .delegation => 32
  | .foundry => 38

/-- The name of the kind. -/
def name : IdentifierKind → String
  | .output => "OutputId"
  | .account => "AccountId"
  | .anchor => "AnchorId"
  | .nft => "NftId"
  | .delegation => "DelegationId"
  | .foundry => "FoundryId"

end IdentifierKind

/-- An identifier. -/
@[ext] structure Identifier (kind : IdentifierKind) where
  /-- The bytes of the identifier. -/
  bytes : FixedBytes kind.length
deriving DecidableEq

/-- Identifies an output. -/
abbrev OutputId := Identifier .output

/-- Identifies an account. -/
abbrev AccountId := Identifier .account

/-- Identifies an anchor. -/
abbrev AnchorId := Identifier .anchor

/-- Identifies an NFT. -/
abbrev NftId := Identifier .nft

/-- Identifies a delegation. -/
abbrev DelegationId := Identifier .delegation

/-- Identifies a foundry and the native token it mints. -/
abbrev FoundryId := Identifier .foundry

namespace Identifier

variable {kind : IdentifierKind}

/-- The bytes of the identifier as a list. -/
def toList (id : Identifier kind) : Bytes := id.bytes.toList

@[simp] theorem length_toList (id : Identifier kind) : id.toList.length = kind.length :=
  id.bytes.length_eq

/-- The identifier with the given bytes, if they have the right number. -/
def ofList? (bytes : Bytes) : Option (Identifier kind) := (FixedBytes.ofList? bytes).map .mk

@[simp] theorem ofList?_toList (id : Identifier kind) : ofList? id.toList = some id := by
  simp [ofList?, toList]

/-- The hexadecimal text of an identifier. -/
def hex (id : Identifier kind) : String := Hex.encode id.toList

/-- The identifier with its kind, as diagnostics show it. -/
def description (id : Identifier kind) : String := kind.name ++ "(" ++ id.hex ++ ")"

/-- Reads an identifier; one marker `0x` may stand before it. -/
def ofHex (text : String) : Except HexError (Identifier kind) :=
  (Hex.decodeFixed kind.length (Hex.dropMarker text.toList)).map .mk

/-- Reading the hexadecimal text of an identifier undoes writing it. -/
theorem ofHex_hex (id : Identifier kind) : ofHex id.hex = .ok id := by
  rw [ofHex, hex, Hex.toList_encode, Hex.dropMarker_digits]
  exact congrArg (Except.map mk) (Hex.decodeFixed_digits id.bytes)

/-- Whether the identifier is not spelled out. -/
def isEmpty (id : Identifier kind) : Bool := id.bytes.isZero

/-- The identifier as a JSON document. -/
def toJson (id : Identifier kind) : Json := .text id.hex

/-- Reads an identifier from a JSON document. -/
def ofJson? (json : Json) : Option (Identifier kind) := do (ofHex (← json.text?)).toOption

end Identifier

/-! ## Output identifiers -/

namespace Identifier

/-- The identifier of the output at place `index` of a transaction of slot `slot`. -/
def ofParts (transaction : Hash32) (slot : Slot) (index : UInt16) : OutputId :=
  ⟨⟨transaction.toList ++ (littleEndian 4 slot.toNat ++ littleEndian 2 index.toNat), by
    simp [transaction.length_eq, IdentifierKind.length]⟩⟩

/-- The transaction that created an output. -/
def transaction (id : OutputId) : Hash32 :=
  ⟨id.toList.take 32, by simp [IdentifierKind.length]⟩

/-- The slot of the transaction that created an output. -/
def creationSlot (id : OutputId) : Slot :=
  UInt32.ofNat (ofLittleEndian ((id.toList.drop 32).take 4))

/-- The place of an output in its transaction. -/
def index (id : OutputId) : UInt16 := UInt16.ofNat (ofLittleEndian (id.toList.drop 36))

/-! ## Chain and foundry identifiers -/

/-- The identifier of the chain that begins with an output. -/
def ofOutputId {kind : IdentifierKind} (h : kind.length = 32) (id : OutputId) : Identifier kind :=
  ⟨⟨(digest id.toList).toList, by rw [h]; exact (digest id.toList).length_eq⟩⟩

/-- The identifier, or if it is not spelled out the one of the chain that begins with the
output. -/
def orOfOutputId {kind : IdentifierKind} (id : Identifier kind) (h : kind.length = 32)
    (output : OutputId) : Identifier kind :=
  if id.isEmpty then ofOutputId h output else id

/-- The identifier of an account's foundry. -/
def ofFoundry (account : AccountId) (serial : UInt32) (scheme : UInt8) : FoundryId :=
  ⟨⟨8 :: account.toList ++ (littleEndian 4 serial.toNat ++ [scheme]), by
    simp [IdentifierKind.length]⟩⟩

end Identifier

end OutputIndex
