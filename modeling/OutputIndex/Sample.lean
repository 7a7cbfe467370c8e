import OutputIndex.Ledger
import OutputIndex.Status
import OutputIndex.Table

/-!
# Sample ledgers

Small ledgers to try an index on: five holders with recognisable addresses, outputs with plain
contents, and identifiers that depend on the slot and a number only.
-/

namespace OutputIndex.Sample

/-! ## Holders -/

/-- A holder of outputs. -/
inductive Holder where
  | alice
  | bob
  | carol
  | dave
  | eve
deriving DecidableEq

namespace Holder

/-- Every holder. -/
def all : List Holder := [.alice, .bob, .carol, .dave, .eve]

/-- The name of a holder. -/
def name : Holder → String
  | .alice => "alice"
  | .bob => "bob"
  | .carol => "carol"
  | .dave => "dave"
  | .eve => "eve"

/-- The holder of a name. -/
def ofName? (name : String) : Option Holder := all.find? (·.name == name)

/-- The number of a holder. -/
def ordinal : Holder → UInt8
  | .alice => 0
  | .bob => 1
  | .carol => 2
  | .dave => 3
  | .eve => 4

/-- The address of a holder. -/
def address (holder : Holder) : Address := .ed25519 (.replicate 32 (0xa0 + holder.ordinal))

/-- The key of a holder's address. -/
def key (holder : Holder) : AddressKey := holder.address.key

end Holder

/-- A multi address of some holders, whose signatures all have weight one. -/
def multiAddress (members : List Holder) (threshold : UInt16) : Address :=
  .multi (members.map fun member => (member.address, 1)) threshold

/-! ## Identifiers -/

/-- The identifier of the transaction with a number. -/
def transaction (sequence : UInt64) : Hash32 := digest (littleEndian 8 sequence.toNat)

/-- The identifier of an output of a slot. -/
def outputId (slot : Slot) (index : UInt16) : OutputId :=
  .ofParts (transaction slot.toUInt64) slot index

/-- Identifiers in the order in which a query returns outputs of one slot. -/
def sorted (ids : List OutputId) : List OutputId := ids.mergeSort fun a b => !TableKey.before b a

/-! ## Outputs -/

/-- The amount of an output that is no basic output. -/
def amount : Amount := 1000

/-- A basic output. -/
def basic (owner : Address) (amount : Amount) : Output :=
  .basic { amount, mana := 0, unlockConditions := [.address owner], features := [] }

/-- An account. -/
def account (accountId : AccountId) (owner : Address) : Output :=
  .account {
    amount, mana := 0, accountId, foundryCounter := 0, unlockConditions := [.address owner],
    features := [], immutableFeatures := [] }

/-- An anchor. -/
def anchor (anchorId : AnchorId) (stateController governor : Address) : Output :=
  .anchor {
    amount, mana := 0, anchorId, stateIndex := 0,
    unlockConditions := [.stateController stateController, .governor governor],
    features := [], immutableFeatures := [] }

/-- An NFT. -/
def nft (nftId : NftId) (owner : Address) : Output :=
  .nft {
    amount, mana := 0, nftId, unlockConditions := [.address owner], features := [],
    immutableFeatures := [] }

/-- A foundry of an account. -/
def foundry (controller : AccountId) (serialNumber : UInt32) : Output :=
  .foundry {
    amount, serialNumber, tokenScheme := .simple ⟨100, by decide⟩ ⟨0, by decide⟩ ⟨1000, by decide⟩,
    unlockConditions := [.immutableAccount (.account controller)], features := [],
    immutableFeatures := [] }

/-- A delegation. -/
def delegation (delegationId : DelegationId) (owner : Address) (validatorAddress : AccountId) :
    Output :=
  .delegation {
    amount, delegatedAmount := 1000, delegationId, validatorAddress, startEpoch := 1,
    endEpoch := 0, unlockConditions := [.address owner] }

/-- The output with one more condition. -/
def withCondition (condition : UnlockCondition) : Output → Output
  | .basic output =>
    .basic { output with unlockConditions := output.unlockConditions ++ [condition] }
  | .account output =>
    .account { output with unlockConditions := output.unlockConditions ++ [condition] }
  | .anchor output =>
    .anchor { output with unlockConditions := output.unlockConditions ++ [condition] }
  | .foundry output =>
    .foundry { output with unlockConditions := output.unlockConditions ++ [condition] }
  | .nft output => .nft { output with unlockConditions := output.unlockConditions ++ [condition] }
  | .delegation output =>
    .delegation { output with unlockConditions := output.unlockConditions ++ [condition] }

/-- The output with one more feature; delegations have none. -/
def withFeature? (feature : Feature) : Output → Option Output
  | .basic output => some (.basic { output with features := output.features ++ [feature] })
  | .account output => some (.account { output with features := output.features ++ [feature] })
  | .anchor output => some (.anchor { output with features := output.features ++ [feature] })
  | .foundry output => some (.foundry { output with features := output.features ++ [feature] })
  | .nft output => some (.nft { output with features := output.features ++ [feature] })
  | .delegation _ => none

/-- An output booked in a slot, with the identifier that the slot and a number give. -/
def booked (slot : Slot) (index : UInt16) (output : Output) : LedgerOutput :=
  { outputId := outputId slot index, output, bookedAt := slot }

/-! ## The node -/

/-- The name of the network. -/
def networkName : String := "testnet"

/-- The version of the protocol. -/
def protocolVersion : UInt8 := 3

/-- What the node says about itself when its ledger has come to a slot. -/
def nodeInfo (ledgerSlot : Slot) : NodeInfo :=
  { networkName, protocolVersion, ledgerSlot, pruningSlot := 0 }

/-- The status of an index that has come to a slot. -/
def status (committedSlot : Slot) : Status :=
  { committedSlot, protocolVersion, networkName, databaseVersion := layoutVersion }

end OutputIndex.Sample
