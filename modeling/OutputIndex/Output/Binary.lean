import OutputIndex.Binary.Format
import OutputIndex.Output

/-!
# Outputs as bytes

The raw form of an output is the byte of its kind and then the fields of the kind in their order.
-/

namespace OutputIndex

/-- The format of unlock conditions. -/
def UnlockCondition.format : Format UnlockCondition :=
  .sum 7
    (fun
      | .address _ => 0
      | .storageDepositReturn _ _ => 1
      | .timelock _ => 2
      | .expiration _ _ => 3
      | .stateController _ => 4
      | .governor _ => 5
      | .immutableAccount _ => 6)
    (fun
      | .address owner => Format.address.write owner
      | .storageDepositReturn owner amount =>
        (Format.address.prod .word64).write (owner, amount)
      | .timelock slot => Format.word32.write slot
      | .expiration owner slot => (Format.address.prod .word32).write (owner, slot)
      | .stateController owner => Format.address.write owner
      | .governor owner => Format.address.write owner
      | .immutableAccount owner => Format.address.write owner)
    (fun
      | 0, input => return (← Format.address.read input).map .address id
      | 1, input =>
        return (← (Format.address.prod .word64).read input).map
          (fun (owner, amount) => .storageDepositReturn owner amount) id
      | 2, input => return (← Format.word32.read input).map .timelock id
      | 3, input =>
        return (← (Format.address.prod .word32).read input).map
          (fun (owner, slot) => .expiration owner slot) id
      | 4, input => return (← Format.address.read input).map .stateController id
      | 5, input => return (← Format.address.read input).map .governor id
      | _, input => return (← Format.address.read input).map .immutableAccount id)

/-- The format of features. -/
def Feature.format : Format Feature :=
  .sum 5
    (fun
      | .sender _ => 0
      | .issuer _ => 1
      | .metadata _ => 2
      | .tag _ => 3
      | .nativeToken _ _ => 4)
    (fun
      | .sender address => Format.address.write address
      | .issuer address => Format.address.write address
      | .metadata data => Format.hex.write data
      | .tag mark => Format.hex.write mark
      | .nativeToken id amount => ((Format.identifier _).prod .word128).write (id, amount))
    (fun
      | 0, input => return (← Format.address.read input).map .sender id
      | 1, input => return (← Format.address.read input).map .issuer id
      | 2, input => return (← Format.hex.read input).map .metadata id
      | 3, input => return (← Format.hex.read input).map .tag id
      | _, input =>
        return (← ((Format.identifier _).prod .word128).read input).map
          (fun (token, amount) => .nativeToken token amount) id)

/-- The format of token schemes. -/
def TokenScheme.format : Format TokenScheme :=
  let simple : Format (TokenAmount × TokenAmount × TokenAmount) :=
    Format.word128.prod (Format.word128.prod .word128)
  .sum 1 (fun _ => 0)
    (fun | .simple minted melted maximum => simple.write (minted, melted, maximum))
    (fun _ input =>
      return (← simple.read input).map
        (fun (minted, melted, maximum) => .simple minted melted maximum) id)

/-- The format of unlock conditions as a list. -/
def UnlockConditions.format : Format UnlockConditions := UnlockCondition.format.list

/-- The format of features as a list. -/
def Features.format : Format Features := Feature.format.list

/-- The format of the fields of basic outputs. -/
def BasicOutput.format : Format BasicOutput :=
  (Format.word64.prod <| Format.word64.prod <| UnlockConditions.format.prod Features.format).map
    (fun (amount, mana, unlockConditions, features) =>
      { amount, mana, unlockConditions, features })
    (fun output => (output.amount, output.mana, output.unlockConditions, output.features))

/-- The format of the fields of account outputs. -/
def AccountOutput.format : Format AccountOutput :=
  (Format.word64.prod <| Format.word64.prod <| (Format.identifier .account).prod <|
    Format.word32.prod <| UnlockConditions.format.prod <| Features.format.prod Features.format).map
    (fun (amount, mana, accountId, foundryCounter, unlockConditions, features,
        immutableFeatures) =>
      { amount, mana, accountId, foundryCounter, unlockConditions, features, immutableFeatures })
    (fun output => (output.amount, output.mana, output.accountId, output.foundryCounter,
      output.unlockConditions, output.features, output.immutableFeatures))

/-- The format of the fields of anchor outputs. -/
def AnchorOutput.format : Format AnchorOutput :=
  (Format.word64.prod <| Format.word64.prod <| (Format.identifier .anchor).prod <|
    Format.word32.prod <| UnlockConditions.format.prod <| Features.format.prod Features.format).map
    (fun (amount, mana, anchorId, stateIndex, unlockConditions, features, immutableFeatures) =>
      { amount, mana, anchorId, stateIndex, unlockConditions, features, immutableFeatures })
    (fun output => (output.amount, output.mana, output.anchorId, output.stateIndex,
      output.unlockConditions, output.features, output.immutableFeatures))

/-- The format of the fields of foundry outputs. -/
def FoundryOutput.format : Format FoundryOutput :=
  (Format.word64.prod <| Format.word32.prod <| TokenScheme.format.prod <|
    UnlockConditions.format.prod <| Features.format.prod Features.format).map
    (fun (amount, serialNumber, tokenScheme, unlockConditions, features, immutableFeatures) =>
      { amount, serialNumber, tokenScheme, unlockConditions, features, immutableFeatures })
    (fun output => (output.amount, output.serialNumber, output.tokenScheme,
      output.unlockConditions, output.features, output.immutableFeatures))

/-- The format of the fields of NFT outputs. -/
def NftOutput.format : Format NftOutput :=
  (Format.word64.prod <| Format.word64.prod <| (Format.identifier .nft).prod <|
    UnlockConditions.format.prod <| Features.format.prod Features.format).map
    (fun (amount, mana, nftId, unlockConditions, features, immutableFeatures) =>
      { amount, mana, nftId, unlockConditions, features, immutableFeatures })
    (fun output => (output.amount, output.mana, output.nftId, output.unlockConditions,
      output.features, output.immutableFeatures))

/-- The format of the fields of delegation outputs. -/
def DelegationOutput.format : Format DelegationOutput :=
  (Format.word64.prod <| Format.word64.prod <| (Format.identifier .delegation).prod <|
    (Format.identifier .account).prod <| Format.word32.prod <|
    Format.word32.prod UnlockConditions.format).map
    (fun (amount, delegatedAmount, delegationId, validatorAddress, startEpoch, endEpoch,
        unlockConditions) =>
      { amount, delegatedAmount, delegationId, validatorAddress, startEpoch, endEpoch,
        unlockConditions })
    (fun output => (output.amount, output.delegatedAmount, output.delegationId,
      output.validatorAddress, output.startEpoch, output.endEpoch, output.unlockConditions))

end OutputIndex
