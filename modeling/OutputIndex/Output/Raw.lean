import OutputIndex.Error
import OutputIndex.Output.Binary

/-!
# Raw outputs

The raw form of an output is the byte of its kind and then the fields of that kind.  What stands
behind the last field is left alone.
-/

namespace OutputIndex.Output

/-- The raw form of an output. -/
def encode : Output → Bytes
  | .basic output => OutputKind.basic.tag :: BasicOutput.format.write output
  | .account output => OutputKind.account.tag :: AccountOutput.format.write output
  | .anchor output => OutputKind.anchor.tag :: AnchorOutput.format.write output
  | .foundry output => OutputKind.foundry.tag :: FoundryOutput.format.write output
  | .nft output => OutputKind.nft.tag :: NftOutput.format.write output
  | .delegation output => OutputKind.delegation.tag :: DelegationOutput.format.write output

/-- Reads the fields of an output of a kind. -/
def decodeFields : OutputKind → Bytes → Except BinaryError Output
  | .basic, input => (BasicOutput.format.decode input).map .basic
  | .account, input => (AccountOutput.format.decode input).map .account
  | .anchor, input => (AnchorOutput.format.decode input).map .anchor
  | .foundry, input => (FoundryOutput.format.decode input).map .foundry
  | .nft, input => (NftOutput.format.decode input).map .nft
  | .delegation, input => (DelegationOutput.format.decode input).map .delegation

/-- Reads a raw output. -/
def decode : Bytes → Except CodecError Output
  | [] => .error .truncated
  | tag :: fields =>
    match OutputKind.ofTag? tag with
    | none => .error (.unknownOutputKind tag)
    | some kind => (decodeFields kind fields).mapError .malformed

end OutputIndex.Output
