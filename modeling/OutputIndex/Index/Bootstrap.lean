import OutputIndex.Bridge
import OutputIndex.Index.Import

/-!
# Following a node

An index is brought to a state from which it can follow a node: it is imported if there is none,
imported again if it does not agree with the node, and otherwise freed of what a previous run left
tentative.  Then the node's events are applied one by one; those whose slots are already committed
are skipped.  A replay does the same with an index that is there, from a slot of its own.
-/

namespace OutputIndex

/-- An operation of the index that draws on a bridge. -/
abbrev BridgeM := ExceptT BridgeError (StateM Index)

namespace Index

/-- An operation of the index, or a part of an import, alone. -/
def toBridge {σ α : Type} (operation : ExceptT IndexError (StateM σ) α) :
    ExceptT BridgeError (StateM σ) α :=
  operation.adapt .index

/-- The values of a stream; an error in it comes first. -/
def collect {α : Type} (stream : List (Except BridgeError α)) : Except BridgeError (List α) :=
  stream.mapM id

/-- The number of outputs that an import loads at a time. -/
def batchSize : Nat := 10000

/-- A list cut into batches of some size, of which the last may be smaller. -/
def batches {α : Type} (size : Nat) (list : List α) : List (List α) :=
  (List.range ((list.length + (size - 1)) / size)).map fun place =>
    (list.drop (place * size)).take size

/-- Imports a batch of a stream; an error in the stream comes before one of the import. -/
def importBatch (batch : List (Except BridgeError LedgerOutput)) :
    ExceptT BridgeError (StateM Import) Unit := do
  let outputs ← collect batch
  toBridge (Import.addAll outputs)

/-- Loads the node's unspent outputs into the index, batch by batch. -/
def importSnapshot (bridge : Bridge) : BridgeM Status := do
  let node ← bridge.nodeInfo
  let stream ← bridge.unspentOutputs
  match ((batches batchSize stream).forM importBatch).run.run (.start (← get)) with
  | (.error cause, _) => throw cause
  | (.ok (), state) =>
    toBridge (state.finalize node.ledgerSlot node.protocolVersion node.networkName)

/-- Brings the index to a state from which it can follow the node. -/
def bootstrap (bridge : Bridge) : BridgeM Status := do
  let node ← bridge.nodeInfo
  match (← get).store.status with
  | none => importSnapshot bridge
  | some status =>
    -- the store is emptied in a write of its own, so a failed import leaves it empty
    if (status.resetReason? node).isSome then
      toBridge clear
      importSnapshot bridge
    else
      toBridge removeUncommittedChanges
      toBridge Index.status

/-- Applies an event, and says whether it was not skipped. -/
def applyUnlessStale (event : LedgerEvent) : BridgeM Bool := do
  let (result, index) := (apply event).run.run (← get)
  -- what the event made of the index is kept, whether it is skipped or not
  set index
  match result with
  | .ok () => return true
  | .error (.updateSkipped _ _) => return false
  | .error cause => throw (.index cause)

/-- Applies the events of a stream: the number of those that were not skipped. -/
def applyAll : List (Except BridgeError LedgerEvent) → BridgeM Nat
  | [] => return 0
  | .error cause :: _ => throw cause
  | .ok event :: rest => do
    let applied ← applyUnlessStale event
    return (← applyAll rest) + if applied then 1 else 0

/-- Applies the node's events from a slot on. -/
def follow (bridge : Bridge) (start : Slot) : BridgeM Nat := do
  applyAll (← (bridge.ledgerUpdates start : Except BridgeError _))

/-! ## Replays -/

/-- Why a replay ends early. -/
inductive ReplayError where
  | bridge (cause : BridgeError)
  /-- There is no slot after the committed one. -/
  | overflow
deriving DecidableEq

/-- The slot from which a replay starts if nothing else is asked for: the one after the committed
slot. -/
def replayStart (status : Status) : Except ReplayError Slot :=
  match status.committedSlot.next? with
  | some slot => .ok slot
  | none => .error .overflow

/-- Takes back everything tentative and applies the node's events from a slot on. -/
def replay (bridge : Bridge) (start : Option Slot) : ExceptT ReplayError (StateM Index) Nat := do
  let status ← (toBridge status).adapt .bridge
  (toBridge removeUncommittedChanges).adapt .bridge
  -- the slot is worked out even if another one is asked for
  let next ← replayStart status
  (follow bridge (start.getD next)).adapt .bridge

end Index

end OutputIndex
