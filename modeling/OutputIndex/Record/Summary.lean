import OutputIndex.Output.Json
import OutputIndex.Record

/-!
# Records for readers

A summary shows a record with all keys, tags and identifiers as hexadecimal text, and with amounts
as decimal text, so that no amount is too large for a reader's numbers.
-/

namespace OutputIndex

namespace Json

/-- An amount as decimal text. -/
def ofAmount (amount : Amount) : Json := .text (toString amount)

/-- A slot. -/
def ofSlot (slot : Slot) : Json := .natural slot.toNat

end Json

namespace BasicRecord

/-- The fields that records of basic outputs have besides the common ones. -/
def summary (record : BasicRecord) : List (String × Json) :=
  [("address", .ofBytes record.address), ("sender", .ofOption .ofBytes record.sender),
   ("tag", .ofOption .ofBytes record.tag),
   ("native_token", .ofOption (·.toJson) record.nativeToken),
   ("storage_deposit_return", .ofOption .ofAmount record.storageDepositReturn),
   ("storage_deposit_return_address", .ofOption .ofBytes record.storageDepositReturnAddress),
   ("timelock_slot", .ofOption .ofSlot record.timelockSlot),
   ("expiration_slot", .ofOption .ofSlot record.expirationSlot),
   ("expiration_return_address", .ofOption .ofBytes record.expirationReturnAddress)]

end BasicRecord

namespace AccountRecord

/-- The fields that records of accounts have besides the common ones. -/
def summary (record : AccountRecord) : List (String × Json) :=
  [("account_id", record.accountId.toJson), ("address", .ofBytes record.address),
   ("issuer", .ofOption .ofBytes record.issuer), ("sender", .ofOption .ofBytes record.sender)]

end AccountRecord

namespace AnchorRecord

/-- The fields that records of anchors have besides the common ones. -/
def summary (record : AnchorRecord) : List (String × Json) :=
  [("anchor_id", record.anchorId.toJson),
   ("state_controller", .ofBytes record.stateController), ("governor", .ofBytes record.governor),
   ("issuer", .ofOption .ofBytes record.issuer), ("sender", .ofOption .ofBytes record.sender)]

end AnchorRecord

namespace FoundryRecord

/-- The fields that records of foundries have besides the common ones. -/
def summary (record : FoundryRecord) : List (String × Json) :=
  [("foundry_id", record.foundryId.toJson), ("account_address", .ofBytes record.accountAddress),
   ("native_token", .bool record.nativeToken)]

end FoundryRecord

namespace NftRecord

/-- The fields that records of NFTs have besides the common ones. -/
def summary (record : NftRecord) : List (String × Json) :=
  [("nft_id", record.nftId.toJson), ("address", .ofBytes record.address),
   ("issuer", .ofOption .ofBytes record.issuer), ("sender", .ofOption .ofBytes record.sender),
   ("tag", .ofOption .ofBytes record.tag),
   ("storage_deposit_return", .ofOption .ofAmount record.storageDepositReturn),
   ("storage_deposit_return_address", .ofOption .ofBytes record.storageDepositReturnAddress),
   ("timelock_slot", .ofOption .ofSlot record.timelockSlot),
   ("expiration_slot", .ofOption .ofSlot record.expirationSlot),
   ("expiration_return_address", .ofOption .ofBytes record.expirationReturnAddress)]

end NftRecord

namespace DelegationRecord

/-- The fields that records of delegations have besides the common ones. -/
def summary (record : DelegationRecord) : List (String × Json) :=
  [("delegation_id", record.delegationId.toJson), ("address", .ofBytes record.address),
   ("validator", .ofBytes record.validator)]

end DelegationRecord

namespace OutputRecord

/-- The fields of a record that depend on its kind. -/
def kindSummary : OutputRecord → List (String × Json)
  | .basic record => record.summary
  | .account record => record.summary
  | .anchor record => record.summary
  | .foundry record => record.summary
  | .nft record => record.summary
  | .delegation record => record.summary

/-- The summary of a record. -/
def summary (record : OutputRecord) : Json :=
  .ofFields
    ([("kind", .text record.kind.name), ("output_id", record.about.outputId.toJson),
      ("amount", .ofAmount record.about.amount),
      ("created_at_slot", .ofSlot record.about.createdAtSlot),
      ("deleted_at_slot", .ofSlot record.about.deletedAtSlot),
      ("committed", .bool record.about.committed)] ++ record.kindSummary)

end OutputRecord

end OutputIndex
