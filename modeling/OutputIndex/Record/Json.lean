import OutputIndex.Output.Json
import OutputIndex.Record

/-!
# Records as JSON documents

A record is an object with one member, named for its kind with a capital letter.  Address keys and
tags are lists of numbers.
-/

namespace OutputIndex

namespace Json

/-- A byte string as the list of its bytes. -/
def ofByteList (bytes : Bytes) : Json := .array (bytes.map fun byte => .natural byte.toNat)

/-- The byte string that a list of numbers denotes. -/
def byteList? (json : Json) : Option Bytes := json.list? word8?

/-- A 32-bit number. -/
def ofWord32 (value : UInt32) : Json := .natural value.toNat

/-- A 64-bit number. -/
def ofWord64 (value : UInt64) : Json := .natural value.toNat

end Json

namespace RecordMeta

/-- The common part of a record as a JSON document. -/
def toJson (about : RecordMeta) : Json :=
  .ofFields
    [("output_id", about.outputId.toJson), ("amount", .natural about.amount.toNat),
     ("created_at_slot", .natural about.createdAtSlot.toNat),
     ("deleted_at_slot", .natural about.deletedAtSlot.toNat),
     ("committed", .bool about.committed)]

/-- Reads the common part of a record from a JSON document. -/
def ofJson? (json : Json) : Option RecordMeta := do
  let [id, amount, created, deleted, committed] ←
    json.fields? ["output_id", "amount", "created_at_slot", "deleted_at_slot", "committed"] | none
  return {
    outputId := ← id.required Identifier.ofJson?
    amount := ← amount.required Json.word64?
    createdAtSlot := ← created.required Json.word32?
    deletedAtSlot := ← deleted.required Json.word32?
    committed := ← committed.required Json.bool? }

end RecordMeta

namespace BasicRecord

/-- The record as a JSON document. -/
def toJson (record : BasicRecord) : Json :=
  .ofFields
    [("meta", record.about.toJson), ("address", .ofByteList record.address),
     ("sender", .ofOption .ofByteList record.sender), ("tag", .ofOption .ofByteList record.tag),
     ("native_token", .ofOption (·.toJson) record.nativeToken),
     ("storage_deposit_return", .ofOption .ofWord64 record.storageDepositReturn),
     ("storage_deposit_return_address",
      .ofOption .ofByteList record.storageDepositReturnAddress),
     ("timelock_slot", .ofOption .ofWord32 record.timelockSlot),
     ("expiration_slot", .ofOption .ofWord32 record.expirationSlot),
     ("expiration_return_address", .ofOption .ofByteList record.expirationReturnAddress)]

/-- Reads a record of a basic output from a JSON document. -/
def ofJson? (json : Json) : Option BasicRecord := do
  let [about, address, sender, tag, token, depositReturn, depositAddress, timelock, expiration,
      expirationAddress] ←
    json.fields? ["meta", "address", "sender", "tag", "native_token", "storage_deposit_return",
      "storage_deposit_return_address", "timelock_slot", "expiration_slot",
      "expiration_return_address"] | none
  return {
    about := ← about.required RecordMeta.ofJson?
    address := ← address.required Json.byteList?
    sender := ← sender.optional Json.byteList?
    tag := ← tag.optional Json.byteList?
    nativeToken := ← token.optional Identifier.ofJson?
    storageDepositReturn := ← depositReturn.optional Json.word64?
    storageDepositReturnAddress := ← depositAddress.optional Json.byteList?
    timelockSlot := ← timelock.optional Json.word32?
    expirationSlot := ← expiration.optional Json.word32?
    expirationReturnAddress := ← expirationAddress.optional Json.byteList? }

end BasicRecord

namespace AccountRecord

/-- The record as a JSON document. -/
def toJson (record : AccountRecord) : Json :=
  .ofFields
    [("meta", record.about.toJson), ("account_id", record.accountId.toJson),
     ("address", .ofByteList record.address), ("issuer", .ofOption .ofByteList record.issuer),
     ("sender", .ofOption .ofByteList record.sender)]

/-- Reads a record of an account from a JSON document. -/
def ofJson? (json : Json) : Option AccountRecord := do
  let [about, id, address, issuer, sender] ←
    json.fields? ["meta", "account_id", "address", "issuer", "sender"] | none
  return {
    about := ← about.required RecordMeta.ofJson?
    accountId := ← id.required Identifier.ofJson?
    address := ← address.required Json.byteList?
    issuer := ← issuer.optional Json.byteList?
    sender := ← sender.optional Json.byteList? }

end AccountRecord

namespace AnchorRecord

/-- The record as a JSON document. -/
def toJson (record : AnchorRecord) : Json :=
  .ofFields
    [("meta", record.about.toJson), ("anchor_id", record.anchorId.toJson),
     ("state_controller", .ofByteList record.stateController),
     ("governor", .ofByteList record.governor),
     ("issuer", .ofOption .ofByteList record.issuer),
     ("sender", .ofOption .ofByteList record.sender)]

/-- Reads a record of an anchor from a JSON document. -/
def ofJson? (json : Json) : Option AnchorRecord := do
  let [about, id, controller, governor, issuer, sender] ←
    json.fields? ["meta", "anchor_id", "state_controller", "governor", "issuer", "sender"] | none
  return {
    about := ← about.required RecordMeta.ofJson?
    anchorId := ← id.required Identifier.ofJson?
    stateController := ← controller.required Json.byteList?
    governor := ← governor.required Json.byteList?
    issuer := ← issuer.optional Json.byteList?
    sender := ← sender.optional Json.byteList? }

end AnchorRecord

namespace FoundryRecord

/-- The record as a JSON document. -/
def toJson (record : FoundryRecord) : Json :=
  .ofFields
    [("meta", record.about.toJson), ("foundry_id", record.foundryId.toJson),
     ("account_address", .ofByteList record.accountAddress),
     ("native_token", .bool record.nativeToken)]

/-- Reads a record of a foundry from a JSON document. -/
def ofJson? (json : Json) : Option FoundryRecord := do
  let [about, id, address, token] ←
    json.fields? ["meta", "foundry_id", "account_address", "native_token"] | none
  return {
    about := ← about.required RecordMeta.ofJson?
    foundryId := ← id.required Identifier.ofJson?
    accountAddress := ← address.required Json.byteList?
    nativeToken := ← token.required Json.bool? }

end FoundryRecord

namespace NftRecord

/-- The record as a JSON document. -/
def toJson (record : NftRecord) : Json :=
  .ofFields
    [("meta", record.about.toJson), ("nft_id", record.nftId.toJson),
     ("address", .ofByteList record.address), ("issuer", .ofOption .ofByteList record.issuer),
     ("sender", .ofOption .ofByteList record.sender), ("tag", .ofOption .ofByteList record.tag),
     ("storage_deposit_return", .ofOption .ofWord64 record.storageDepositReturn),
     ("storage_deposit_return_address",
      .ofOption .ofByteList record.storageDepositReturnAddress),
     ("timelock_slot", .ofOption .ofWord32 record.timelockSlot),
     ("expiration_slot", .ofOption .ofWord32 record.expirationSlot),
     ("expiration_return_address", .ofOption .ofByteList record.expirationReturnAddress)]

/-- Reads a record of an NFT from a JSON document. -/
def ofJson? (json : Json) : Option NftRecord := do
  let [about, id, address, issuer, sender, tag, depositReturn, depositAddress, timelock,
      expiration, expirationAddress] ←
    json.fields? ["meta", "nft_id", "address", "issuer", "sender", "tag",
      "storage_deposit_return", "storage_deposit_return_address", "timelock_slot",
      "expiration_slot", "expiration_return_address"] | none
  return {
    about := ← about.required RecordMeta.ofJson?
    nftId := ← id.required Identifier.ofJson?
    address := ← address.required Json.byteList?
    issuer := ← issuer.optional Json.byteList?
    sender := ← sender.optional Json.byteList?
    tag := ← tag.optional Json.byteList?
    storageDepositReturn := ← depositReturn.optional Json.word64?
    storageDepositReturnAddress := ← depositAddress.optional Json.byteList?
    timelockSlot := ← timelock.optional Json.word32?
    expirationSlot := ← expiration.optional Json.word32?
    expirationReturnAddress := ← expirationAddress.optional Json.byteList? }

end NftRecord

namespace DelegationRecord

/-- The record as a JSON document. -/
def toJson (record : DelegationRecord) : Json :=
  .ofFields
    [("meta", record.about.toJson), ("delegation_id", record.delegationId.toJson),
     ("address", .ofByteList record.address), ("validator", .ofByteList record.validator)]

/-- Reads a record of a delegation from a JSON document. -/
def ofJson? (json : Json) : Option DelegationRecord := do
  let [about, id, address, validator] ←
    json.fields? ["meta", "delegation_id", "address", "validator"] | none
  return {
    about := ← about.required RecordMeta.ofJson?
    delegationId := ← id.required Identifier.ofJson?
    address := ← address.required Json.byteList?
    validator := ← validator.required Json.byteList? }

end DelegationRecord

namespace OutputRecord

/-- The record as a JSON document. -/
def toJson : OutputRecord → Json
  | .basic record => .ofFields [("Basic", record.toJson)]
  | .account record => .ofFields [("Account", record.toJson)]
  | .anchor record => .ofFields [("Anchor", record.toJson)]
  | .foundry record => .ofFields [("Foundry", record.toJson)]
  | .nft record => .ofFields [("Nft", record.toJson)]
  | .delegation record => .ofFields [("Delegation", record.toJson)]

/-- Reads a record from a JSON document. -/
def ofJson? (json : Json) : Option OutputRecord := do
  let (name, some json) ← json.variant? | none
  match name with
  | "Basic" => (BasicRecord.ofJson? json).map .basic
  | "Account" => (AccountRecord.ofJson? json).map .account
  | "Anchor" => (AnchorRecord.ofJson? json).map .anchor
  | "Foundry" => (FoundryRecord.ofJson? json).map .foundry
  | "Nft" => (NftRecord.ofJson? json).map .nft
  | "Delegation" => (DelegationRecord.ofJson? json).map .delegation
  | _ => none

end OutputRecord

end OutputIndex
