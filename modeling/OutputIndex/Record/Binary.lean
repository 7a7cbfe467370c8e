import OutputIndex.Record

/-!
# Records as bytes

A record is the tag of its kind and then its fields in their order.
-/

namespace OutputIndex

/-- The format of what all records have. -/
def RecordMeta.format : Format RecordMeta :=
  ((Format.identifier .output).prod <| Format.word64.prod <| Format.word32.prod <|
    Format.word32.prod Format.bool).map
    (fun (outputId, amount, createdAtSlot, deletedAtSlot, committed) =>
      { outputId, amount, createdAtSlot, deletedAtSlot, committed })
    (fun about => (about.outputId, about.amount, about.createdAtSlot, about.deletedAtSlot,
      about.committed))

/-- The format of the fields of records of basic outputs. -/
def BasicRecord.format : Format BasicRecord :=
  (RecordMeta.format.prod <| Format.bytes.prod <| Format.bytes.option.prod <|
    Format.bytes.option.prod <| (Format.identifier .foundry).option.prod <|
    Format.word64.option.prod <| Format.bytes.option.prod <| Format.word32.option.prod <|
    Format.word32.option.prod Format.bytes.option).map
    (fun (about, address, sender, tag, nativeToken, storageDepositReturn,
        storageDepositReturnAddress, timelockSlot, expirationSlot, expirationReturnAddress) =>
      { about, address, sender, tag, nativeToken, storageDepositReturn,
        storageDepositReturnAddress, timelockSlot, expirationSlot, expirationReturnAddress })
    (fun record => (record.about, record.address, record.sender, record.tag, record.nativeToken,
      record.storageDepositReturn, record.storageDepositReturnAddress, record.timelockSlot,
      record.expirationSlot, record.expirationReturnAddress))

/-- The format of the fields of records of accounts. -/
def AccountRecord.format : Format AccountRecord :=
  (RecordMeta.format.prod <| (Format.identifier .account).prod <| Format.bytes.prod <|
    Format.bytes.option.prod Format.bytes.option).map
    (fun (about, accountId, address, issuer, sender) =>
      { about, accountId, address, issuer, sender })
    (fun record => (record.about, record.accountId, record.address, record.issuer,
      record.sender))

/-- The format of the fields of records of anchors. -/
def AnchorRecord.format : Format AnchorRecord :=
  (RecordMeta.format.prod <| (Format.identifier .anchor).prod <| Format.bytes.prod <|
    Format.bytes.prod <| Format.bytes.option.prod Format.bytes.option).map
    (fun (about, anchorId, stateController, governor, issuer, sender) =>
      { about, anchorId, stateController, governor, issuer, sender })
    (fun record => (record.about, record.anchorId, record.stateController, record.governor,
      record.issuer, record.sender))

/-- The format of the fields of records of foundries. -/
def FoundryRecord.format : Format FoundryRecord :=
  (RecordMeta.format.prod <| (Format.identifier .foundry).prod <|
    Format.bytes.prod Format.bool).map
    (fun (about, foundryId, accountAddress, nativeToken) =>
      { about, foundryId, accountAddress, nativeToken })
    (fun record => (record.about, record.foundryId, record.accountAddress, record.nativeToken))

/-- The format of the fields of records of NFTs. -/
def NftRecord.format : Format NftRecord :=
  (RecordMeta.format.prod <| (Format.identifier .nft).prod <| Format.bytes.prod <|
    Format.bytes.option.prod <| Format.bytes.option.prod <| Format.bytes.option.prod <|
    Format.word64.option.prod <| Format.bytes.option.prod <| Format.word32.option.prod <|
    Format.word32.option.prod Format.bytes.option).map
    (fun (about, nftId, address, issuer, sender, tag, storageDepositReturn,
        storageDepositReturnAddress, timelockSlot, expirationSlot, expirationReturnAddress) =>
      { about, nftId, address, issuer, sender, tag, storageDepositReturn,
        storageDepositReturnAddress, timelockSlot, expirationSlot, expirationReturnAddress })
    (fun record => (record.about, record.nftId, record.address, record.issuer, record.sender,
      record.tag, record.storageDepositReturn, record.storageDepositReturnAddress,
      record.timelockSlot, record.expirationSlot, record.expirationReturnAddress))

/-- The format of the fields of records of delegations. -/
def DelegationRecord.format : Format DelegationRecord :=
  (RecordMeta.format.prod <| (Format.identifier .delegation).prod <|
    Format.bytes.prod Format.bytes).map
    (fun (about, delegationId, address, validator) =>
      { about, delegationId, address, validator })
    (fun record => (record.about, record.delegationId, record.address, record.validator))

namespace OutputRecord

/-- The format of records. -/
def format : Format OutputRecord :=
  .sum 6 (·.kind.tag.toNat)
    (fun
      | .basic record => BasicRecord.format.write record
      | .account record => AccountRecord.format.write record
      | .anchor record => AnchorRecord.format.write record
      | .foundry record => FoundryRecord.format.write record
      | .nft record => NftRecord.format.write record
      | .delegation record => DelegationRecord.format.write record)
    (fun
      | 0, input => return (← BasicRecord.format.read input).map .basic id
      | 1, input => return (← AccountRecord.format.read input).map .account id
      | 2, input => return (← AnchorRecord.format.read input).map .anchor id
      | 3, input => return (← FoundryRecord.format.read input).map .foundry id
      | 4, input => return (← NftRecord.format.read input).map .nft id
      | _, input => return (← DelegationRecord.format.read input).map .delegation id)

/-- The bytes of a record. -/
def encode (record : OutputRecord) : Bytes := format.write record

/-- Reads a record from bytes. -/
def decode (input : Bytes) : Except CodecError OutputRecord :=
  (format.decode input).mapError .malformed

end OutputRecord

end OutputIndex
