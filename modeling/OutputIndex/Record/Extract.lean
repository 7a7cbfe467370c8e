import OutputIndex.Ledger
import OutputIndex.Record

/-!
# Records of outputs

The record of an output is built from its conditions and features.  Each kind has conditions that
it cannot do without, and a foundry has to be controlled by an account.  The sender is taken from
the features and the issuer from the immutable ones; an empty tag counts as none.
-/

namespace OutputIndex

/-- The address of a condition that an output cannot do without. -/
def RequiredCondition.of (condition : RequiredCondition) :
    Option Address → Except CodecError Address
  | some owner => .ok owner
  | none => .error (.missingCondition condition)

/-- The tag, unless it is empty. -/
def Features.mark? (features : Features) : Option Bytes :=
  features.tag?.filter fun tag => !tag.isEmpty

namespace OutputRecord

/-- The record of an output, which is not spent. -/
def ofOutput (id : OutputId) (output : Output) (bookedAt : Slot) (committed : Bool) :
    Except CodecError OutputRecord := do
  let about : RecordMeta :=
    { outputId := id, amount := output.amount, createdAtSlot := bookedAt, deletedAtSlot := 0,
      committed }
  match output with
  | .basic output =>
    let conditions := output.unlockConditions
    let features := output.features
    let address ← RequiredCondition.address.of conditions.address?
    return .basic {
      about
      address := address.key
      sender := features.sender?.map (·.key)
      tag := features.mark?
      nativeToken := features.nativeToken?.map (·.1)
      storageDepositReturn := conditions.storageDepositReturn?.map (·.2)
      storageDepositReturnAddress := conditions.storageDepositReturn?.map (·.1.key)
      timelockSlot := conditions.timelock?
      expirationSlot := conditions.expiration?.map (·.2)
      expirationReturnAddress := conditions.expiration?.map (·.1.key) }
  | .account output =>
    let address ← RequiredCondition.address.of output.unlockConditions.address?
    return .account {
      about
      accountId := output.accountId.orOfOutputId rfl id
      address := address.key
      issuer := output.immutableFeatures.issuer?.map (·.key)
      sender := output.features.sender?.map (·.key) }
  | .anchor output =>
    let controller ← RequiredCondition.stateController.of output.unlockConditions.stateController?
    let governor ← RequiredCondition.governor.of output.unlockConditions.governor?
    return .anchor {
      about
      anchorId := output.anchorId.orOfOutputId rfl id
      stateController := controller.key
      governor := governor.key
      issuer := output.immutableFeatures.issuer?.map (·.key)
      sender := output.features.sender?.map (·.key) }
  | .foundry output =>
    let owner ← RequiredCondition.immutableAccount.of output.unlockConditions.immutableAccount?
    match owner with
    | .account controller =>
      return .foundry {
        about
        foundryId := .ofFoundry controller output.serialNumber output.tokenScheme.kind
        accountAddress := owner.key
        nativeToken := output.features.nativeToken?.isSome }
    | owner => throw (.foundryOwner owner.kind)
  | .nft output =>
    let conditions := output.unlockConditions
    let address ← RequiredCondition.address.of conditions.address?
    return .nft {
      about
      nftId := output.nftId.orOfOutputId rfl id
      address := address.key
      issuer := output.immutableFeatures.issuer?.map (·.key)
      sender := output.features.sender?.map (·.key)
      tag := output.features.mark?
      storageDepositReturn := conditions.storageDepositReturn?.map (·.2)
      storageDepositReturnAddress := conditions.storageDepositReturn?.map (·.1.key)
      timelockSlot := conditions.timelock?
      expirationSlot := conditions.expiration?.map (·.2)
      expirationReturnAddress := conditions.expiration?.map (·.1.key) }
  | .delegation output =>
    let address ← RequiredCondition.address.of output.unlockConditions.address?
    return .delegation {
      about
      delegationId := output.delegationId.orOfOutputId rfl id
      address := address.key
      validator := (Address.account output.validatorAddress).key }

/-- The record of a booked output. -/
def ofLedgerOutput (output : LedgerOutput) (committed : Bool) : Except CodecError OutputRecord :=
  ofOutput output.outputId output.output output.bookedAt committed

end OutputRecord

end OutputIndex
