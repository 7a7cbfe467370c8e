import OutputIndex.Store.Scan

/-!
# Filters

A filter is a set of options.  An option that is absent admits every record, and the options that
are present have to hold together.  Bounds on slots are strict, and a record without the slot lies
within no bound.  Only live records are admitted.

A filter for one kind scans that kind, by the first address among its options if there is one.  A
combined filter scans every kind that can have matching records.
-/

namespace OutputIndex

/-- Bounds on a slot. -/
structure SlotRange where
  /-- The slot lies before this one. -/
  before : Option Slot := none
  /-- The slot lies after this one. -/
  after : Option Slot := none
deriving DecidableEq

/-- Whether a slot, which may be missing, lies within the bounds. -/
def SlotRange.admits (range : SlotRange) (slot : Option Slot) : Bool :=
  (range.before.all fun bound => slot.any fun s => decide (s < bound))
    && (range.after.all fun bound => slot.any fun s => decide (s > bound))

namespace Filter

/-- Whether a key that every record has is that of the address asked for. -/
def admitsKey (wanted : Option Address) (key : AddressKey) : Bool :=
  wanted.all fun address => address.matchesKey key

/-- Whether a key that may be missing is that of the address asked for. -/
def admitsOptionalKey (wanted : Option Address) (key : Option AddressKey) : Bool :=
  wanted.all fun address => key.any address.matchesKey

/-- Whether something is there if and only if that is asked for. -/
def admitsPresence (wanted : Option Bool) (present : Bool) : Bool :=
  wanted.all fun wanted => wanted == present

/-- Whether a tag is the one asked for; an empty tag asks for nothing. -/
def admitsTag (wanted : Option Bytes) (tag : Option Bytes) : Bool :=
  wanted.all fun wanted => wanted.isEmpty || tag == some wanted

/-- Whether one of three keys is that of the address asked for. -/
def admitsAnyKey (wanted : Option Address) (owner : AddressKey)
    (first second : Option AddressKey) : Bool :=
  wanted.all fun address =>
    address.matchesKey owner || first.any address.matchesKey || second.any address.matchesKey

/-- Scans by the first address among some options. -/
def addressDriver (options : List (Option Address)) : ScanDriver :=
  match options.findSome? id with
  | some address => .address address.key
  | none => .all

end Filter

open OutputIndex.Filter

/-! ## One kind -/

/-- Options on basic outputs. -/
structure BasicFilter where
  hasNativeToken : Option Bool := none
  nativeToken : Option FoundryId := none
  /-- The owner, or the address that the output or its storage deposit returns to. -/
  unlockableBy : Option Address := none
  address : Option Address := none
  hasStorageDepositReturn : Option Bool := none
  storageDepositReturnAddress : Option Address := none
  hasExpiration : Option Bool := none
  expirationReturnAddress : Option Address := none
  expires : SlotRange := {}
  hasTimelock : Option Bool := none
  timelocked : SlotRange := {}
  sender : Option Address := none
  tag : Option Bytes := none
  created : SlotRange := {}
deriving DecidableEq

namespace BasicFilter

/-- How the candidates are found. -/
def driver (filter : BasicFilter) : ScanDriver :=
  addressDriver [filter.address, filter.unlockableBy, filter.sender,
    filter.storageDepositReturnAddress, filter.expirationReturnAddress]

/-- Whether a record satisfies the options. -/
def admits (filter : BasicFilter) (record : BasicRecord) : Bool :=
  record.about.isLive
    && admitsPresence filter.hasNativeToken record.nativeToken.isSome
    && (filter.nativeToken.all fun id => record.nativeToken == some id)
    && admitsAnyKey filter.unlockableBy record.address record.expirationReturnAddress
        record.storageDepositReturnAddress
    && admitsKey filter.address record.address
    && admitsPresence filter.hasStorageDepositReturn record.storageDepositReturn.isSome
    && admitsOptionalKey filter.storageDepositReturnAddress record.storageDepositReturnAddress
    && admitsPresence filter.hasExpiration record.expirationReturnAddress.isSome
    && admitsOptionalKey filter.expirationReturnAddress record.expirationReturnAddress
    && filter.expires.admits record.expirationSlot
    && admitsPresence filter.hasTimelock record.timelockSlot.isSome
    && filter.timelocked.admits record.timelockSlot
    && admitsOptionalKey filter.sender record.sender
    && admitsTag filter.tag record.tag
    && filter.created.admits (some record.about.createdAtSlot)

/-- The scan of the filter. -/
def source (filter : BasicFilter) : ScanSource where
  kind := .basic
  driver := filter.driver
  accepts
    | .basic record => filter.admits record
    | _ => false

end BasicFilter

/-- Options on accounts. -/
structure AccountFilter where
  address : Option Address := none
  issuer : Option Address := none
  sender : Option Address := none
  created : SlotRange := {}
deriving DecidableEq

namespace AccountFilter

/-- How the candidates are found. -/
def driver (filter : AccountFilter) : ScanDriver :=
  addressDriver [filter.address, filter.issuer, filter.sender]

/-- Whether a record satisfies the options. -/
def admits (filter : AccountFilter) (record : AccountRecord) : Bool :=
  record.about.isLive
    && admitsKey filter.address record.address
    && admitsOptionalKey filter.issuer record.issuer
    && admitsOptionalKey filter.sender record.sender
    && filter.created.admits (some record.about.createdAtSlot)

/-- The scan of the filter. -/
def source (filter : AccountFilter) : ScanSource where
  kind := .account
  driver := filter.driver
  accepts
    | .account record => filter.admits record
    | _ => false

end AccountFilter

/-- Options on anchors. -/
structure AnchorFilter where
  /-- The state controller or the governor. -/
  unlockableBy : Option Address := none
  stateController : Option Address := none
  governor : Option Address := none
  issuer : Option Address := none
  sender : Option Address := none
  created : SlotRange := {}
deriving DecidableEq

namespace AnchorFilter

/-- How the candidates are found. -/
def driver (filter : AnchorFilter) : ScanDriver :=
  addressDriver [filter.stateController, filter.governor, filter.unlockableBy, filter.issuer,
    filter.sender]

/-- Whether a record satisfies the options. -/
def admits (filter : AnchorFilter) (record : AnchorRecord) : Bool :=
  record.about.isLive
    && (filter.unlockableBy.all fun address =>
        address.matchesKey record.stateController || address.matchesKey record.governor)
    && admitsKey filter.stateController record.stateController
    && admitsKey filter.governor record.governor
    && admitsOptionalKey filter.issuer record.issuer
    && admitsOptionalKey filter.sender record.sender
    && filter.created.admits (some record.about.createdAtSlot)

/-- The scan of the filter. -/
def source (filter : AnchorFilter) : ScanSource where
  kind := .anchor
  driver := filter.driver
  accepts
    | .anchor record => filter.admits record
    | _ => false

end AnchorFilter

/-- Options on NFTs. -/
structure NftFilter where
  /-- The owner, or the address that the output or its storage deposit returns to. -/
  unlockableBy : Option Address := none
  address : Option Address := none
  hasStorageDepositReturn : Option Bool := none
  storageDepositReturnAddress : Option Address := none
  hasExpiration : Option Bool := none
  expirationReturnAddress : Option Address := none
  expires : SlotRange := {}
  hasTimelock : Option Bool := none
  timelocked : SlotRange := {}
  issuer : Option Address := none
  sender : Option Address := none
  tag : Option Bytes := none
  created : SlotRange := {}
deriving DecidableEq

namespace NftFilter

/-- How the candidates are found. -/
def driver (filter : NftFilter) : ScanDriver :=
  addressDriver [filter.address, filter.unlockableBy, filter.issuer, filter.sender,
    filter.storageDepositReturnAddress, filter.expirationReturnAddress]

/-- Whether a record satisfies the options. -/
def admits (filter : NftFilter) (record : NftRecord) : Bool :=
  record.about.isLive
    && admitsAnyKey filter.unlockableBy record.address record.expirationReturnAddress
        record.storageDepositReturnAddress
    && admitsKey filter.address record.address
    && admitsPresence filter.hasStorageDepositReturn record.storageDepositReturn.isSome
    && admitsOptionalKey filter.storageDepositReturnAddress record.storageDepositReturnAddress
    && admitsPresence filter.hasExpiration record.expirationReturnAddress.isSome
    && admitsOptionalKey filter.expirationReturnAddress record.expirationReturnAddress
    && filter.expires.admits record.expirationSlot
    && admitsPresence filter.hasTimelock record.timelockSlot.isSome
    && filter.timelocked.admits record.timelockSlot
    && admitsOptionalKey filter.issuer record.issuer
    && admitsOptionalKey filter.sender record.sender
    && admitsTag filter.tag record.tag
    && filter.created.admits (some record.about.createdAtSlot)

/-- The scan of the filter. -/
def source (filter : NftFilter) : ScanSource where
  kind := .nft
  driver := filter.driver
  accepts
    | .nft record => filter.admits record
    | _ => false

end NftFilter

/-- Options on foundries. -/
structure FoundryFilter where
  hasNativeToken : Option Bool := none
  /-- The foundry that mints the token. -/
  nativeToken : Option FoundryId := none
  /-- The controlling account. -/
  account : Option Address := none
  created : SlotRange := {}
deriving DecidableEq

namespace FoundryFilter

/-- How the candidates are found. -/
def driver (filter : FoundryFilter) : ScanDriver := addressDriver [filter.account]

/-- Whether a record satisfies the options. -/
def admits (filter : FoundryFilter) (record : FoundryRecord) : Bool :=
  record.about.isLive
    && admitsPresence filter.hasNativeToken record.nativeToken
    && (filter.nativeToken.all fun id => record.foundryId == id)
    && admitsKey filter.account record.accountAddress
    && filter.created.admits (some record.about.createdAtSlot)

/-- The scan of the filter. -/
def source (filter : FoundryFilter) : ScanSource where
  kind := .foundry
  driver := filter.driver
  accepts
    | .foundry record => filter.admits record
    | _ => false

end FoundryFilter

/-- Options on delegations. -/
structure DelegationFilter where
  address : Option Address := none
  validator : Option Address := none
  created : SlotRange := {}
deriving DecidableEq

namespace DelegationFilter

/-- How the candidates are found. -/
def driver (filter : DelegationFilter) : ScanDriver :=
  addressDriver [filter.address, filter.validator]

/-- Whether a record satisfies the options. -/
def admits (filter : DelegationFilter) (record : DelegationRecord) : Bool :=
  record.about.isLive
    && admitsKey filter.address record.address
    && admitsKey filter.validator record.validator
    && filter.created.admits (some record.about.createdAtSlot)

/-- The scan of the filter. -/
def source (filter : DelegationFilter) : ScanSource where
  kind := .delegation
  driver := filter.driver
  accepts
    | .delegation record => filter.admits record
    | _ => false

end DelegationFilter

/-! ## All kinds -/

/-- Options that mean something for every kind. -/
structure CombinedFilter where
  hasNativeToken : Option Bool := none
  nativeToken : Option FoundryId := none
  unlockableBy : Option Address := none
  created : SlotRange := {}
deriving DecidableEq

namespace CombinedFilter

/-- Whether outputs without native tokens are of no interest. -/
def wantsNativeTokens (filter : CombinedFilter) : Bool :=
  filter.hasNativeToken == some true || filter.nativeToken.isSome

/-- The options on basic outputs. -/
def basic (filter : CombinedFilter) : BasicFilter :=
  { hasNativeToken := filter.hasNativeToken
    nativeToken := filter.nativeToken
    unlockableBy := filter.unlockableBy
    created := filter.created }

/-- The options on accounts. -/
def account (filter : CombinedFilter) : Option AccountFilter :=
  if filter.wantsNativeTokens then none
  else some { address := filter.unlockableBy, created := filter.created }

/-- The options on anchors. -/
def anchor (filter : CombinedFilter) : Option AnchorFilter :=
  if filter.wantsNativeTokens then none
  else some { unlockableBy := filter.unlockableBy, created := filter.created }

/-- The options on foundries, which only accounts control. -/
def foundry (filter : CombinedFilter) : Option FoundryFilter :=
  -- no other address can unlock a foundry, so there is nothing to scan for it
  if filter.unlockableBy.all Address.isAccount then
    some {
      hasNativeToken := filter.hasNativeToken
      nativeToken := filter.nativeToken
      account := filter.unlockableBy
      created := filter.created }
  else none

/-- The options on NFTs. -/
def nft (filter : CombinedFilter) : Option NftFilter :=
  if filter.wantsNativeTokens then none
  else some { unlockableBy := filter.unlockableBy, created := filter.created }

/-- The options on delegations. -/
def delegation (filter : CombinedFilter) : Option DelegationFilter :=
  if filter.wantsNativeTokens then none
  else some { address := filter.unlockableBy, created := filter.created }

/-- The scans of the filter. -/
def sources (filter : CombinedFilter) : List ScanSource :=
  filter.basic.source :: (filter.account.toList.map (·.source)
    ++ filter.anchor.toList.map (·.source) ++ filter.foundry.toList.map (·.source)
    ++ filter.nft.toList.map (·.source) ++ filter.delegation.toList.map (·.source))

end CombinedFilter

/-! ## Any filter -/

/-- A filter. -/
inductive Filter where
  | basic (filter : BasicFilter)
  | account (filter : AccountFilter)
  | anchor (filter : AnchorFilter)
  | nft (filter : NftFilter)
  | foundry (filter : FoundryFilter)
  | delegation (filter : DelegationFilter)
  | combined (filter : CombinedFilter)
deriving DecidableEq

/-- The scans of a filter. -/
def Filter.sources : Filter → List ScanSource
  | .basic filter => [filter.source]
  | .account filter => [filter.source]
  | .anchor filter => [filter.source]
  | .nft filter => [filter.source]
  | .foundry filter => [filter.source]
  | .delegation filter => [filter.source]
  | .combined filter => filter.sources

end OutputIndex
