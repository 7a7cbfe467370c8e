import OutputIndex.Address.Parser
import OutputIndex.Output

/-!
# Outputs as JSON documents

A condition, feature, token scheme or output is an object with one member, named for its kind.
Fields that say "nothing" by default (mana, counters, features) may be left out when read, and are
always written.  Byte strings are hexadecimal text without a marker.
-/

namespace OutputIndex

namespace OutputKind

/-- The kind as a JSON document. -/
def toJson (kind : OutputKind) : Json := .text kind.name

/-- Reads a kind from a JSON document. -/
def ofJson? (json : Json) : Option OutputKind := do
  let (name, content) ← json.variant?
  Json.unit? content
  ofName? name

end OutputKind

namespace Json

/-- The amount of a native token that a document denotes. -/
def tokenAmount? (json : Json) : Option TokenAmount := json.natural? (UInt64.size * UInt64.size)

/-- A byte string as hexadecimal text. -/
def ofBytes (bytes : Bytes) : Json := .text (Hex.encode bytes)

/-- The byte string that a document denotes. -/
def bytes? (json : Json) : Option Bytes := do (Hex.decode (← json.text?)).toOption

/-- A value of a sum with the fields of its content. -/
def ofVariant (name : String) (fields : List (String × Json)) : Json :=
  .ofFields [(name, .ofFields fields)]

end Json

namespace UnlockCondition

/-- The condition as a JSON document. -/
def toJson : UnlockCondition → Json
  | .address owner => .ofVariant "address" [("address", owner.toJson)]
  | .storageDepositReturn owner amount =>
    .ofVariant "storage_deposit_return"
      [("return_address", owner.toJson), ("amount", .natural amount.toNat)]
  | .timelock slot => .ofVariant "timelock" [("slot", .natural slot.toNat)]
  | .expiration owner slot =>
    .ofVariant "expiration" [("return_address", owner.toJson), ("slot", .natural slot.toNat)]
  | .stateController owner => .ofVariant "state_controller" [("address", owner.toJson)]
  | .governor owner => .ofVariant "governor" [("address", owner.toJson)]
  | .immutableAccount owner => .ofVariant "immutable_account" [("address", owner.toJson)]

/-- Reads a condition that holds an address only. -/
def ofAddressJson? (condition : Address → UnlockCondition) (json : Json) :
    Option UnlockCondition := do
  let [owner] ← json.fields? ["address"] | none
  return condition (← owner.required Address.ofJson?)

/-- Reads a condition from a JSON document. -/
def ofJson? (json : Json) : Option UnlockCondition := do
  let (name, some json) ← json.variant? | none
  match name with
  | "address" => ofAddressJson? .address json
  | "storage_deposit_return" => do
    let [owner, amount] ← json.fields? ["return_address", "amount"] | none
    return .storageDepositReturn (← owner.required Address.ofJson?)
      (← amount.required Json.word64?)
  | "timelock" => do
    let [slot] ← json.fields? ["slot"] | none
    return .timelock (← slot.required Json.word32?)
  | "expiration" => do
    let [owner, slot] ← json.fields? ["return_address", "slot"] | none
    return .expiration (← owner.required Address.ofJson?) (← slot.required Json.word32?)
  | "state_controller" => ofAddressJson? .stateController json
  | "governor" => ofAddressJson? .governor json
  | "immutable_account" => ofAddressJson? .immutableAccount json
  | _ => none

end UnlockCondition

namespace UnlockConditions

/-- The conditions as a JSON document. -/
def toJson (conditions : UnlockConditions) : Json := .array (conditions.map (·.toJson))

/-- Reads conditions from a JSON document. -/
def ofJson? (json : Json) : Option UnlockConditions := json.list? UnlockCondition.ofJson?

end UnlockConditions

namespace Feature

/-- The feature as a JSON document. -/
def toJson : Feature → Json
  | .sender address => .ofVariant "sender" [("address", address.toJson)]
  | .issuer address => .ofVariant "issuer" [("address", address.toJson)]
  | .metadata data => .ofVariant "metadata" [("data", .ofBytes data)]
  | .tag mark => .ofVariant "tag" [("tag", .ofBytes mark)]
  | .nativeToken id amount =>
    .ofVariant "native_token" [("id", id.toJson), ("amount", .natural amount.val)]

/-- Reads a feature from a JSON document. -/
def ofJson? (json : Json) : Option Feature := do
  let (name, some json) ← json.variant? | none
  match name with
  | "sender" => do
    let [address] ← json.fields? ["address"] | none
    return .sender (← address.required Address.ofJson?)
  | "issuer" => do
    let [address] ← json.fields? ["address"] | none
    return .issuer (← address.required Address.ofJson?)
  | "metadata" => do
    let [data] ← json.fields? ["data"] | none
    return .metadata (← data.required Json.bytes?)
  | "tag" => do
    let [mark] ← json.fields? ["tag"] | none
    return .tag (← mark.required Json.bytes?)
  | "native_token" => do
    let [id, amount] ← json.fields? ["id", "amount"] | none
    return .nativeToken (← id.required Identifier.ofJson?) (← amount.required Json.tokenAmount?)
  | _ => none

end Feature

namespace Features

/-- The features as a JSON document. -/
def toJson (features : Features) : Json := .array (features.map (·.toJson))

/-- Reads features from a JSON document. -/
def ofJson? (json : Json) : Option Features := json.list? Feature.ofJson?

end Features

namespace TokenScheme

/-- The token scheme as a JSON document. -/
def toJson : TokenScheme → Json
  | .simple minted melted maximum =>
    .ofVariant "simple"
      [("minted_tokens", .natural minted.val), ("melted_tokens", .natural melted.val),
       ("maximum_supply", .natural maximum.val)]

/-- Reads a token scheme from a JSON document. -/
def ofJson? (json : Json) : Option TokenScheme := do
  let (name, some json) ← json.variant? | none
  match name with
  | "simple" => do
    let [minted, melted, maximum] ←
      json.fields? ["minted_tokens", "melted_tokens", "maximum_supply"] | none
    return .simple (← minted.required Json.tokenAmount?) (← melted.required Json.tokenAmount?)
      (← maximum.required Json.tokenAmount?)
  | _ => none

end TokenScheme

namespace BasicOutput

/-- The output as a JSON document. -/
def toJson (output : BasicOutput) : Json :=
  .ofFields
    [("amount", .natural output.amount.toNat), ("mana", .natural output.mana.toNat),
     ("unlock_conditions", output.unlockConditions.toJson),
     ("features", output.features.toJson)]

/-- Reads a basic output from a JSON document. -/
def ofJson? (json : Json) : Option BasicOutput := do
  let [amount, mana, conditions, features] ←
    json.fields? ["amount", "mana", "unlock_conditions", "features"] | none
  return {
    amount := ← amount.required Json.word64?
    mana := ← mana.withDefault 0 Json.word64?
    unlockConditions := ← conditions.required UnlockConditions.ofJson?
    features := ← features.withDefault [] Features.ofJson? }

end BasicOutput

namespace AccountOutput

/-- The output as a JSON document. -/
def toJson (output : AccountOutput) : Json :=
  .ofFields
    [("amount", .natural output.amount.toNat), ("mana", .natural output.mana.toNat),
     ("account_id", output.accountId.toJson),
     ("foundry_counter", .natural output.foundryCounter.toNat),
     ("unlock_conditions", output.unlockConditions.toJson),
     ("features", output.features.toJson),
     ("immutable_features", output.immutableFeatures.toJson)]

/-- Reads an account output from a JSON document. -/
def ofJson? (json : Json) : Option AccountOutput := do
  let [amount, mana, id, counter, conditions, features, immutableFeatures] ←
    json.fields? ["amount", "mana", "account_id", "foundry_counter", "unlock_conditions",
      "features", "immutable_features"] | none
  return {
    amount := ← amount.required Json.word64?
    mana := ← mana.withDefault 0 Json.word64?
    accountId := ← id.required Identifier.ofJson?
    foundryCounter := ← counter.withDefault 0 Json.word32?
    unlockConditions := ← conditions.required UnlockConditions.ofJson?
    features := ← features.withDefault [] Features.ofJson?
    immutableFeatures := ← immutableFeatures.withDefault [] Features.ofJson? }

end AccountOutput

namespace AnchorOutput

/-- The output as a JSON document. -/
def toJson (output : AnchorOutput) : Json :=
  .ofFields
    [("amount", .natural output.amount.toNat), ("mana", .natural output.mana.toNat),
     ("anchor_id", output.anchorId.toJson), ("state_index", .natural output.stateIndex.toNat),
     ("unlock_conditions", output.unlockConditions.toJson),
     ("features", output.features.toJson),
     ("immutable_features", output.immutableFeatures.toJson)]

/-- Reads an anchor output from a JSON document. -/
def ofJson? (json : Json) : Option AnchorOutput := do
  let [amount, mana, id, stateIndex, conditions, features, immutableFeatures] ←
    json.fields? ["amount", "mana", "anchor_id", "state_index", "unlock_conditions",
      "features", "immutable_features"] | none
  return {
    amount := ← amount.required Json.word64?
    mana := ← mana.withDefault 0 Json.word64?
    anchorId := ← id.required Identifier.ofJson?
    stateIndex := ← stateIndex.withDefault 0 Json.word32?
    unlockConditions := ← conditions.required UnlockConditions.ofJson?
    features := ← features.withDefault [] Features.ofJson?
    immutableFeatures := ← immutableFeatures.withDefault [] Features.ofJson? }

end AnchorOutput

namespace FoundryOutput

/-- The output as a JSON document. -/
def toJson (output : FoundryOutput) : Json :=
  .ofFields
    [("amount", .natural output.amount.toNat),
     ("serial_number", .natural output.serialNumber.toNat),
     ("token_scheme", output.tokenScheme.toJson),
     ("unlock_conditions", output.unlockConditions.toJson),
     ("features", output.features.toJson),
     ("immutable_features", output.immutableFeatures.toJson)]

/-- Reads a foundry output from a JSON document. -/
def ofJson? (json : Json) : Option FoundryOutput := do
  let [amount, serialNumber, tokenScheme, conditions, features, immutableFeatures] ←
    json.fields? ["amount", "serial_number", "token_scheme", "unlock_conditions", "features",
      "immutable_features"] | none
  return {
    amount := ← amount.required Json.word64?
    serialNumber := ← serialNumber.required Json.word32?
    tokenScheme := ← tokenScheme.required TokenScheme.ofJson?
    unlockConditions := ← conditions.required UnlockConditions.ofJson?
    features := ← features.withDefault [] Features.ofJson?
    immutableFeatures := ← immutableFeatures.withDefault [] Features.ofJson? }

end FoundryOutput

namespace NftOutput

/-- The output as a JSON document. -/
def toJson (output : NftOutput) : Json :=
  .ofFields
    [("amount", .natural output.amount.toNat), ("mana", .natural output.mana.toNat),
     ("nft_id", output.nftId.toJson),
     ("unlock_conditions", output.unlockConditions.toJson),
     ("features", output.features.toJson),
     ("immutable_features", output.immutableFeatures.toJson)]

/-- Reads an NFT output from a JSON document. -/
def ofJson? (json : Json) : Option NftOutput := do
  let [amount, mana, id, conditions, features, immutableFeatures] ←
    json.fields? ["amount", "mana", "nft_id", "unlock_conditions", "features",
      "immutable_features"] | none
  return {
    amount := ← amount.required Json.word64?
    mana := ← mana.withDefault 0 Json.word64?
    nftId := ← id.required Identifier.ofJson?
    unlockConditions := ← conditions.required UnlockConditions.ofJson?
    features := ← features.withDefault [] Features.ofJson?
    immutableFeatures := ← immutableFeatures.withDefault [] Features.ofJson? }

end NftOutput

namespace DelegationOutput

/-- The output as a JSON document. -/
def toJson (output : DelegationOutput) : Json :=
  .ofFields
    [("amount", .natural output.amount.toNat),
     ("delegated_amount", .natural output.delegatedAmount.toNat),
     ("delegation_id", output.delegationId.toJson),
     ("validator_address", output.validatorAddress.toJson),
     ("start_epoch", .natural output.startEpoch.toNat),
     ("end_epoch", .natural output.endEpoch.toNat),
     ("unlock_conditions", output.unlockConditions.toJson)]

/-- Reads a delegation output from a JSON document. -/
def ofJson? (json : Json) : Option DelegationOutput := do
  let [amount, delegatedAmount, id, validator, startEpoch, endEpoch, conditions] ←
    json.fields? ["amount", "delegated_amount", "delegation_id", "validator_address",
      "start_epoch", "end_epoch", "unlock_conditions"] | none
  return {
    amount := ← amount.required Json.word64?
    delegatedAmount := ← delegatedAmount.required Json.word64?
    delegationId := ← id.required Identifier.ofJson?
    validatorAddress := ← validator.required Identifier.ofJson?
    startEpoch := ← startEpoch.required Json.word32?
    endEpoch := ← endEpoch.required Json.word32?
    unlockConditions := ← conditions.required UnlockConditions.ofJson? }

end DelegationOutput

namespace Output

/-- The output as a JSON document. -/
def toJson : Output → Json
  | .basic output => .ofFields [("basic", output.toJson)]
  | .account output => .ofFields [("account", output.toJson)]
  | .anchor output => .ofFields [("anchor", output.toJson)]
  | .foundry output => .ofFields [("foundry", output.toJson)]
  | .nft output => .ofFields [("nft", output.toJson)]
  | .delegation output => .ofFields [("delegation", output.toJson)]

/-- Reads an output from a JSON document. -/
def ofJson? (json : Json) : Option Output := do
  let (name, some json) ← json.variant? | none
  match name with
  | "basic" => (BasicOutput.ofJson? json).map .basic
  | "account" => (AccountOutput.ofJson? json).map .account
  | "anchor" => (AnchorOutput.ofJson? json).map .anchor
  | "foundry" => (FoundryOutput.ofJson? json).map .foundry
  | "nft" => (NftOutput.ofJson? json).map .nft
  | "delegation" => (DelegationOutput.ofJson? json).map .delegation
  | _ => none

end Output

end OutputIndex
