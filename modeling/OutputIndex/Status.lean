import OutputIndex.Error
import OutputIndex.Ledger
import OutputIndex.Ledger.Json

/-!
# The status of an index

The status says up to which slot the index has taken over the ledger, and of which network.  An
index whose status does not agree with a node cannot follow it and has to be imported again;
`Status.resetReason?` finds the first reason.
-/

namespace OutputIndex

/-- What an index reflects. -/
structure Status where
  /-- The last committed slot. -/
  committedSlot : Slot
  protocolVersion : UInt8
  networkName : String
  /-- The version of the store's layout. -/
  databaseVersion : UInt32
deriving DecidableEq

/-- The version of the store's layout that this library writes. -/
def layoutVersion : UInt32 := 1

namespace Status

/-! ## Forms -/

/-- The format of a status. -/
def format : Format Status :=
  (Format.word32.prod <| Format.word8.prod <| Format.text.prod Format.word32).map
    (fun (committedSlot, protocolVersion, networkName, databaseVersion) =>
      { committedSlot, protocolVersion, networkName, databaseVersion })
    (fun status => (status.committedSlot, status.protocolVersion, status.networkName,
      status.databaseVersion))

/-- The bytes of a status. -/
def encode (status : Status) : Bytes := format.write status

/-- Reads a status from bytes. -/
def decode (input : Bytes) : Except CodecError Status := (format.decode input).mapError .malformed

/-- The status as a JSON document. -/
def toJson (status : Status) : Json :=
  .ofFields
    [("committed_slot", .natural status.committedSlot.toNat),
     ("protocol_version", .natural status.protocolVersion.toNat),
     ("network_name", .text status.networkName),
     ("database_version", .natural status.databaseVersion.toNat)]

/-- Reads a status from a JSON document. -/
def ofJson? (json : Json) : Option Status := do
  let [slot, version, name, database] ←
    json.fields? ["committed_slot", "protocol_version", "network_name", "database_version"] | none
  return {
    committedSlot := ← slot.required Json.word32?
    protocolVersion := ← version.required Json.word8?
    networkName := ← name.required Json.text?
    databaseVersion := ← database.required Json.word32? }

end Status

/-! ## Agreement with a node -/

/-- Why an index cannot follow a node. -/
inductive ResetReason where
  /-- The protocol of the node is another one. -/
  | protocolVersionChanged (stored node : UInt8)
  /-- The network of the node is another one. -/
  | networkChanged (stored node : String)
  /-- The layout of the store is another one. -/
  | databaseVersionChanged (stored expected : UInt32)
  /-- The node's ledger ends before the index. -/
  | nodeBehind (indexer node : Slot)
  /-- The node has dropped data that the index lacks. -/
  | prunedPastIndexer (pruning indexer : Slot)
deriving DecidableEq

/-- The text of a reason. -/
def ResetReason.message : ResetReason → String
  | .protocolVersionChanged stored node =>
    "protocol version changed: " ++ toString stored ++ " vs " ++ toString node
  | .networkChanged stored node => "network name changed: " ++ stored ++ " vs " ++ node
  | .databaseVersionChanged stored expected =>
    "database version changed: " ++ toString stored ++ " vs " ++ toString expected
  | .nodeBehind indexer node =>
    "network has been reset: indexer slot " ++ toString indexer ++ " > ledger slot "
      ++ toString node
  | .prunedPastIndexer pruning indexer =>
    "node pruned past the indexer: pruning slot " ++ toString pruning ++ " > indexer slot "
      ++ toString indexer

/-- The first reason why an index of this status cannot follow a node. -/
def Status.resetReason? (status : Status) (node : NodeInfo) : Option ResetReason :=
  if status.protocolVersion ≠ node.protocolVersion then
    some (.protocolVersionChanged status.protocolVersion node.protocolVersion)
  else if status.networkName ≠ node.networkName then
    some (.networkChanged status.networkName node.networkName)
  else if status.databaseVersion ≠ layoutVersion then
    some (.databaseVersionChanged status.databaseVersion layoutVersion)
  else if node.ledgerSlot < status.committedSlot then
    some (.nodeBehind status.committedSlot node.ledgerSlot)
  else if node.pruningSlot > status.committedSlot then
    some (.prunedPastIndexer node.pruningSlot status.committedSlot)
  else none

end OutputIndex
