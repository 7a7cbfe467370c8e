import OutputIndex.Address

/-!
# Outputs

An output holds an amount of the base token under some unlock conditions.  There are six kinds:
basic outputs, the four chains (accounts, anchors, NFTs and delegations), and foundries, which mint
native tokens.  Conditions and features are lists; where a kind of condition or feature stands more
than once, the first one counts.
-/

namespace OutputIndex

/-- An amount of the base token. -/
abbrev Amount := UInt64

/-- An amount of a native token. -/
abbrev TokenAmount := Fin (UInt64.size * UInt64.size)

/-! ## Kinds -/

/-- The kinds of outputs, in the order in which they are listed everywhere. -/
inductive OutputKind where
  | basic
  | account
  | anchor
  | foundry
  | nft
  | delegation
deriving DecidableEq

namespace OutputKind

/-- Every kind. -/
def all : List OutputKind := [.basic, .account, .anchor, .foundry, .nft, .delegation]

/-- The name of a kind. -/
def name : OutputKind → String
  | .basic => "basic"
  | .account => "account"
  | .anchor => "anchor"
  | .foundry => "foundry"
  | .nft => "nft"
  | .delegation => "delegation"

/-- The byte that stands for a kind. -/
def tag : OutputKind → UInt8
  | .basic => 0
  | .account => 1
  | .anchor => 2
  | .foundry => 3
  | .nft => 4
  | .delegation => 5

/-- The kind that a byte stands for. -/
def ofTag? (tag : UInt8) : Option OutputKind := all.find? (·.tag == tag)

/-- The kind of a name. -/
def ofName? (name : String) : Option OutputKind := all.find? (·.name == name)

theorem ofTag?_tag (kind : OutputKind) : ofTag? kind.tag = some kind := by cases kind <;> rfl

end OutputKind

/-! ## Unlock conditions -/

/-- A condition for unlocking an output. -/
inductive UnlockCondition where
  /-- The address unlocks the output. -/
  | address (address : Address)
  /-- Whoever unlocks the output returns an amount to the address. -/
  | storageDepositReturn (returnAddress : Address) (amount : Amount)
  /-- The output is locked up to a slot. -/
  | timelock (slot : Slot)
  /-- From a slot on, the output belongs to the address. -/
  | expiration (returnAddress : Address) (slot : Slot)
  /-- The address controls the state of an anchor. -/
  | stateController (address : Address)
  /-- The address governs an anchor. -/
  | governor (address : Address)
  /-- The address, an account, controls a foundry for good. -/
  | immutableAccount (address : Address)
deriving DecidableEq

/-- The conditions of an output. -/
abbrev UnlockConditions := List UnlockCondition

namespace UnlockConditions

/-- The address that unlocks the output. -/
def address? (conditions : UnlockConditions) : Option Address :=
  conditions.findSome? fun
    | .address address => some address
    | _ => none

/-- The address and the amount of the return of the storage deposit. -/
def storageDepositReturn? (conditions : UnlockConditions) : Option (Address × Amount) :=
  conditions.findSome? fun
    | .storageDepositReturn address amount => some (address, amount)
    | _ => none

/-- The slot of the timelock. -/
def timelock? (conditions : UnlockConditions) : Option Slot :=
  conditions.findSome? fun
    | .timelock slot => some slot
    | _ => none

/-- The address and the slot of the expiration. -/
def expiration? (conditions : UnlockConditions) : Option (Address × Slot) :=
  conditions.findSome? fun
    | .expiration address slot => some (address, slot)
    | _ => none

/-- The controller of an anchor's state. -/
def stateController? (conditions : UnlockConditions) : Option Address :=
  conditions.findSome? fun
    | .stateController address => some address
    | _ => none

/-- The governor of an anchor. -/
def governor? (conditions : UnlockConditions) : Option Address :=
  conditions.findSome? fun
    | .governor address => some address
    | _ => none

/-- The account that controls a foundry. -/
def immutableAccount? (conditions : UnlockConditions) : Option Address :=
  conditions.findSome? fun
    | .immutableAccount address => some address
    | _ => none

/-- The addresses of all conditions, in order. -/
def addresses (conditions : UnlockConditions) : List Address :=
  conditions.filterMap fun
    | .address address => some address
    | .storageDepositReturn address _ => some address
    | .timelock _ => none
    | .expiration address _ => some address
    | .stateController address => some address
    | .governor address => some address
    | .immutableAccount address => some address

end UnlockConditions

/-! ## Features -/

/-- What an output carries besides its amount. -/
inductive Feature where
  /-- The address that sent the output. -/
  | sender (address : Address)
  /-- The address that issued the chain. -/
  | issuer (address : Address)
  /-- Any data. -/
  | metadata (data : Bytes)
  /-- A short mark to find the output by. -/
  | tag (tag : Bytes)
  /-- An amount of a native token. -/
  | nativeToken (id : FoundryId) (amount : TokenAmount)
deriving DecidableEq

/-- The features of an output. -/
abbrev Features := List Feature

namespace Features

/-- The sender. -/
def sender? (features : Features) : Option Address :=
  features.findSome? fun
    | .sender address => some address
    | _ => none

/-- The issuer. -/
def issuer? (features : Features) : Option Address :=
  features.findSome? fun
    | .issuer address => some address
    | _ => none

/-- The tag. -/
def tag? (features : Features) : Option Bytes :=
  features.findSome? fun
    | .tag tag => some tag
    | _ => none

/-- The native token and its amount. -/
def nativeToken? (features : Features) : Option (FoundryId × TokenAmount) :=
  features.findSome? fun
    | .nativeToken id amount => some (id, amount)
    | _ => none

/-- The addresses of all features, in order. -/
def addresses (features : Features) : List Address :=
  features.filterMap fun
    | .sender address => some address
    | .issuer address => some address
    | _ => none

end Features

/-! ## The six kinds -/

/-- An output that is no chain. -/
structure BasicOutput where
  amount : Amount
  mana : UInt64
  unlockConditions : UnlockConditions
  features : Features
deriving DecidableEq

/-- A state of an account. -/
structure AccountOutput where
  amount : Amount
  mana : UInt64
  accountId : AccountId
  foundryCounter : UInt32
  unlockConditions : UnlockConditions
  features : Features
  immutableFeatures : Features
deriving DecidableEq

/-- A state of an anchor. -/
structure AnchorOutput where
  amount : Amount
  mana : UInt64
  anchorId : AnchorId
  stateIndex : UInt32
  unlockConditions : UnlockConditions
  features : Features
  immutableFeatures : Features
deriving DecidableEq

/-- How the supply of a native token is controlled. -/
inductive TokenScheme where
  /-- Tokens are minted and melted up to a maximum supply. -/
  | simple (minted melted maximum : TokenAmount)
deriving DecidableEq

/-- The byte that stands for a token scheme. -/
def TokenScheme.kind : TokenScheme → UInt8
  | .simple _ _ _ => 0

/-- A state of a foundry. -/
structure FoundryOutput where
  amount : Amount
  serialNumber : UInt32
  tokenScheme : TokenScheme
  unlockConditions : UnlockConditions
  features : Features
  immutableFeatures : Features
deriving DecidableEq

/-- A state of an NFT. -/
structure NftOutput where
  amount : Amount
  mana : UInt64
  nftId : NftId
  unlockConditions : UnlockConditions
  features : Features
  immutableFeatures : Features
deriving DecidableEq

/-- A state of a delegation. -/
structure DelegationOutput where
  amount : Amount
  delegatedAmount : Amount
  delegationId : DelegationId
  validatorAddress : AccountId
  startEpoch : UInt32
  endEpoch : UInt32
  unlockConditions : UnlockConditions
deriving DecidableEq

/-- An output of any kind. -/
inductive Output where
  | basic (output : BasicOutput)
  | account (output : AccountOutput)
  | anchor (output : AnchorOutput)
  | foundry (output : FoundryOutput)
  | nft (output : NftOutput)
  | delegation (output : DelegationOutput)
deriving DecidableEq

namespace Output

/-- The kind of an output. -/
def kind : Output → OutputKind
  | .basic _ => .basic
  | .account _ => .account
  | .anchor _ => .anchor
  | .foundry _ => .foundry
  | .nft _ => .nft
  | .delegation _ => .delegation

/-- The amount of the base token. -/
def amount : Output → Amount
  | .basic output => output.amount
  | .account output => output.amount
  | .anchor output => output.amount
  | .foundry output => output.amount
  | .nft output => output.amount
  | .delegation output => output.amount

/-- The conditions for unlocking the output. -/
def unlockConditions : Output → UnlockConditions
  | .basic output => output.unlockConditions
  | .account output => output.unlockConditions
  | .anchor output => output.unlockConditions
  | .foundry output => output.unlockConditions
  | .nft output => output.unlockConditions
  | .delegation output => output.unlockConditions

/-- The features, for the kinds that have any. -/
def features? : Output → Option Features
  | .basic output => some output.features
  | .account output => some output.features
  | .anchor output => some output.features
  | .foundry output => some output.features
  | .nft output => some output.features
  | .delegation _ => none

/-- The features that never change, for the kinds that have any. -/
def immutableFeatures? : Output → Option Features
  | .account output => some output.immutableFeatures
  | .anchor output => some output.immutableFeatures
  | .foundry output => some output.immutableFeatures
  | .nft output => some output.immutableFeatures
  | .basic _ => none
  | .delegation _ => none

/-- The token scheme of a foundry. -/
def tokenScheme? : Output → Option TokenScheme
  | .foundry output => some output.tokenScheme
  | _ => none

/-- The account that validates a delegation. -/
def validator? : Output → Option AccountId
  | .delegation output => some output.validatorAddress
  | _ => none

/-- Every address in the output: those of its conditions, features and immutable features, and the
validator of a delegation. -/
def addresses (output : Output) : List Address :=
  output.unlockConditions.addresses
    ++ (output.features?.getD []).addresses
    ++ (output.immutableFeatures?.getD []).addresses
    ++ output.validator?.toList.map .account

end Output

end OutputIndex
