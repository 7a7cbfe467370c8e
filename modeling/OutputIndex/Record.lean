import OutputIndex.Table

/-!
# Records

A record is what the index keeps of an output: the addresses as keys, the marks and slots that
filters ask for, and how far the output has come.  A record is tentative until the update that
creates its output is committed, and it is dead while some update says that its output is spent.
-/

namespace OutputIndex

/-- What the records of all kinds have. -/
structure RecordMeta where
  outputId : OutputId
  amount : Amount
  /-- The slot in which the output was booked. -/
  createdAtSlot : Slot
  /-- The slot in which the output was spent; zero while it is live. -/
  deletedAtSlot : Slot
  /-- Whether the output's creation is final. -/
  committed : Bool
deriving DecidableEq

namespace RecordMeta

/-- Whether the output is not spent. -/
def isLive (about : RecordMeta) : Bool := about.deletedAtSlot == 0

/-- The place of the record in query order. -/
def sortKey (about : RecordMeta) : SortKey := ⟨about.createdAtSlot, about.outputId⟩

end RecordMeta

/-- A record of a basic output. -/
structure BasicRecord where
  about : RecordMeta
  address : AddressKey
  sender : Option AddressKey
  tag : Option Bytes
  nativeToken : Option FoundryId
  storageDepositReturn : Option Amount
  storageDepositReturnAddress : Option AddressKey
  timelockSlot : Option Slot
  expirationSlot : Option Slot
  expirationReturnAddress : Option AddressKey
deriving DecidableEq

/-- A record of an account. -/
structure AccountRecord where
  about : RecordMeta
  accountId : AccountId
  address : AddressKey
  issuer : Option AddressKey
  sender : Option AddressKey
deriving DecidableEq

/-- A record of an anchor. -/
structure AnchorRecord where
  about : RecordMeta
  anchorId : AnchorId
  stateController : AddressKey
  governor : AddressKey
  issuer : Option AddressKey
  sender : Option AddressKey
deriving DecidableEq

/-- A record of a foundry. -/
structure FoundryRecord where
  about : RecordMeta
  foundryId : FoundryId
  accountAddress : AddressKey
  nativeToken : Bool
deriving DecidableEq

/-- A record of an NFT. -/
structure NftRecord where
  about : RecordMeta
  nftId : NftId
  address : AddressKey
  issuer : Option AddressKey
  sender : Option AddressKey
  tag : Option Bytes
  storageDepositReturn : Option Amount
  storageDepositReturnAddress : Option AddressKey
  timelockSlot : Option Slot
  expirationSlot : Option Slot
  expirationReturnAddress : Option AddressKey
deriving DecidableEq

/-- A record of a delegation. -/
structure DelegationRecord where
  about : RecordMeta
  delegationId : DelegationId
  address : AddressKey
  validator : AddressKey
deriving DecidableEq

/-- A record of any kind of output. -/
inductive OutputRecord where
  | basic (record : BasicRecord)
  | account (record : AccountRecord)
  | anchor (record : AnchorRecord)
  | foundry (record : FoundryRecord)
  | nft (record : NftRecord)
  | delegation (record : DelegationRecord)
deriving DecidableEq

namespace OutputRecord

/-- The kind of the output. -/
def kind : OutputRecord → OutputKind
  | .basic _ => .basic
  | .account _ => .account
  | .anchor _ => .anchor
  | .foundry _ => .foundry
  | .nft _ => .nft
  | .delegation _ => .delegation

/-- What the record has in common with all others. -/
def about : OutputRecord → RecordMeta
  | .basic record => record.about
  | .account record => record.about
  | .anchor record => record.about
  | .foundry record => record.about
  | .nft record => record.about
  | .delegation record => record.about

/-- The record with another common part. -/
def withAbout (about : RecordMeta) : OutputRecord → OutputRecord
  | .basic record => .basic { record with about }
  | .account record => .account { record with about }
  | .anchor record => .anchor { record with about }
  | .foundry record => .foundry { record with about }
  | .nft record => .nft { record with about }
  | .delegation record => .delegation { record with about }

/-- The record, spent in a slot; live if the slot is zero. -/
def spentAt (record : OutputRecord) (slot : Slot) : OutputRecord :=
  record.withAbout { record.about with deletedAtSlot := slot }

/-- The record, final. -/
def finalized (record : OutputRecord) : OutputRecord :=
  record.withAbout { record.about with committed := true }

/-- The identifier of the output. -/
def outputId (record : OutputRecord) : OutputId := record.about.outputId

/-- The place of the record in query order. -/
def sortKey (record : OutputRecord) : SortKey := record.about.sortKey

/-- The bytes of the identifier of the chain or foundry. -/
def identityKey? : OutputRecord → Option Bytes
  | .basic _ => none
  | .account record => some record.accountId.toList
  | .anchor record => some record.anchorId.toList
  | .foundry record => some record.foundryId.toList
  | .nft record => some record.nftId.toList
  | .delegation record => some record.delegationId.toList

/-- The keys of the addresses in the record, field by field. -/
def heldKeys : OutputRecord → List AddressKey
  | .basic record =>
    record.address :: (record.sender.toList ++ record.storageDepositReturnAddress.toList
      ++ record.expirationReturnAddress.toList)
  | .account record => record.address :: (record.issuer.toList ++ record.sender.toList)
  | .anchor record =>
    record.stateController :: record.governor :: (record.issuer.toList ++ record.sender.toList)
  | .foundry record => [record.accountAddress]
  | .nft record =>
    record.address :: (record.issuer.toList ++ record.sender.toList
      ++ record.storageDepositReturnAddress.toList ++ record.expirationReturnAddress.toList)
  | .delegation record => [record.address, record.validator]

/-- The keys of the addresses in the record, in their order and each of them once. -/
def addressKeys (record : OutputRecord) : List AddressKey := (KeySet.ofList record.heldKeys).keys

@[simp] theorem kind_withAbout (about : RecordMeta) (record : OutputRecord) :
    (record.withAbout about).kind = record.kind := by cases record <;> rfl

@[simp] theorem about_withAbout (about : RecordMeta) (record : OutputRecord) :
    (record.withAbout about).about = about := by cases record <;> rfl

@[simp] theorem addressKeys_withAbout (about : RecordMeta) (record : OutputRecord) :
    (record.withAbout about).addressKeys = record.addressKeys := by cases record <;> rfl

@[simp] theorem identityKey?_withAbout (about : RecordMeta) (record : OutputRecord) :
    (record.withAbout about).identityKey? = record.identityKey? := by cases record <;> rfl

end OutputRecord

end OutputIndex
