import OutputIndex.Filter
import OutputIndex.Output.Json

/-!
# Filters as JSON documents

The options of a filter are the members of an object.  An option that is missing, or `null`, is
absent; a member that is no option is skipped.
-/

namespace OutputIndex

namespace Json

/-- The value of an option. -/
def setting? {α : Type} (json : Json) (name : String) (read : Json → Option α) :
    Option (Option α) :=
  match json with
  | .object members =>
    match members.find? fun member => member.1 == some name with
    | some (_, value) => option? read value
    | none => some none
  | .null => some none
  | _ => none

end Json

/-- Reads the bounds whose options have names that begin with a word. -/
def SlotRange.ofJson? (name : String) (json : Json) : Option SlotRange := do
  return {
    before := ← json.setting? (name ++ "_before") Json.word32?
    after := ← json.setting? (name ++ "_after") Json.word32? }

namespace BasicFilter

/-- Reads the options on basic outputs. -/
def ofJson? (json : Json) : Option BasicFilter := do
  return {
    hasNativeToken := ← json.setting? "has_native_token" Json.bool?
    nativeToken := ← json.setting? "native_token" Identifier.ofJson?
    unlockableBy := ← json.setting? "unlockable_by_address" Address.ofJson?
    address := ← json.setting? "address" Address.ofJson?
    hasStorageDepositReturn := ← json.setting? "has_storage_deposit_return" Json.bool?
    storageDepositReturnAddress :=
      ← json.setting? "storage_deposit_return_address" Address.ofJson?
    hasExpiration := ← json.setting? "has_expiration" Json.bool?
    expirationReturnAddress := ← json.setting? "expiration_return_address" Address.ofJson?
    expires := ← SlotRange.ofJson? "expires" json
    hasTimelock := ← json.setting? "has_timelock" Json.bool?
    timelocked := ← SlotRange.ofJson? "timelocked" json
    sender := ← json.setting? "sender" Address.ofJson?
    tag := ← json.setting? "tag" Json.bytes?
    created := ← SlotRange.ofJson? "created" json }

end BasicFilter

namespace AccountFilter

/-- Reads the options on accounts. -/
def ofJson? (json : Json) : Option AccountFilter := do
  return {
    address := ← json.setting? "address" Address.ofJson?
    issuer := ← json.setting? "issuer" Address.ofJson?
    sender := ← json.setting? "sender" Address.ofJson?
    created := ← SlotRange.ofJson? "created" json }

end AccountFilter

namespace AnchorFilter

/-- Reads the options on anchors. -/
def ofJson? (json : Json) : Option AnchorFilter := do
  return {
    unlockableBy := ← json.setting? "unlockable_by_address" Address.ofJson?
    stateController := ← json.setting? "state_controller" Address.ofJson?
    governor := ← json.setting? "governor" Address.ofJson?
    issuer := ← json.setting? "issuer" Address.ofJson?
    sender := ← json.setting? "sender" Address.ofJson?
    created := ← SlotRange.ofJson? "created" json }

end AnchorFilter

namespace NftFilter

/-- Reads the options on NFTs. -/
def ofJson? (json : Json) : Option NftFilter := do
  return {
    unlockableBy := ← json.setting? "unlockable_by_address" Address.ofJson?
    address := ← json.setting? "address" Address.ofJson?
    hasStorageDepositReturn := ← json.setting? "has_storage_deposit_return" Json.bool?
    storageDepositReturnAddress :=
      ← json.setting? "storage_deposit_return_address" Address.ofJson?
    hasExpiration := ← json.setting? "has_expiration" Json.bool?
    expirationReturnAddress := ← json.setting? "expiration_return_address" Address.ofJson?
    expires := ← SlotRange.ofJson? "expires" json
    hasTimelock := ← json.setting? "has_timelock" Json.bool?
    timelocked := ← SlotRange.ofJson? "timelocked" json
    issuer := ← json.setting? "issuer" Address.ofJson?
    sender := ← json.setting? "sender" Address.ofJson?
    tag := ← json.setting? "tag" Json.bytes?
    created := ← SlotRange.ofJson? "created" json }

end NftFilter

namespace FoundryFilter

/-- Reads the options on foundries. -/
def ofJson? (json : Json) : Option FoundryFilter := do
  return {
    hasNativeToken := ← json.setting? "has_native_token" Json.bool?
    nativeToken := ← json.setting? "native_token" Identifier.ofJson?
    account := ← json.setting? "account" Address.ofJson?
    created := ← SlotRange.ofJson? "created" json }

end FoundryFilter

namespace DelegationFilter

/-- Reads the options on delegations. -/
def ofJson? (json : Json) : Option DelegationFilter := do
  return {
    address := ← json.setting? "address" Address.ofJson?
    validator := ← json.setting? "validator" Address.ofJson?
    created := ← SlotRange.ofJson? "created" json }

end DelegationFilter

namespace CombinedFilter

/-- Reads the options on all kinds. -/
def ofJson? (json : Json) : Option CombinedFilter := do
  return {
    hasNativeToken := ← json.setting? "has_native_token" Json.bool?
    nativeToken := ← json.setting? "native_token" Identifier.ofJson?
    unlockableBy := ← json.setting? "unlockable_by_address" Address.ofJson?
    created := ← SlotRange.ofJson? "created" json }

end CombinedFilter

/-- Reads the options of the filter of a name. -/
def Filter.ofJson? (name : String) (json : Json) : Option Filter :=
  match name with
  | "basic" => (BasicFilter.ofJson? json).map .basic
  | "account" => (AccountFilter.ofJson? json).map .account
  | "anchor" => (AnchorFilter.ofJson? json).map .anchor
  | "nft" => (NftFilter.ofJson? json).map .nft
  | "foundry" => (FoundryFilter.ofJson? json).map .foundry
  | "delegation" => (DelegationFilter.ofJson? json).map .delegation
  | "combined" => (CombinedFilter.ofJson? json).map .combined
  | _ => none

end OutputIndex
