import OutputIndex.Output

/-!
# The ledger as a node tells it

A node reports its unspent outputs once and then a stream of events.  An event is an update of a
slot, with the outputs it consumes and creates; it is first accepted, which may still be taken
back, and later committed.
-/

namespace OutputIndex

/-- An output with the slot in which it was booked. -/
structure LedgerOutput where
  outputId : OutputId
  output : Output
  bookedAt : Slot
deriving DecidableEq

/-- The kind of the output. -/
def LedgerOutput.kind (output : LedgerOutput) : OutputKind := output.output.kind

/-- An output that is consumed, with the slot of its consumption. -/
structure LedgerSpent where
  output : LedgerOutput
  spentAt : Slot
deriving DecidableEq

/-- The identifier of the consumed output. -/
def LedgerSpent.outputId (spent : LedgerSpent) : OutputId := spent.output.outputId

/-- What a slot changes. -/
structure LedgerUpdate where
  slot : Slot
  consumed : List LedgerSpent
  created : List LedgerOutput
deriving DecidableEq

namespace LedgerUpdate

/-- The consumed outputs that the same update does not create. -/
def netConsumed (update : LedgerUpdate) : List LedgerSpent :=
  update.consumed.filter fun spent =>
    !update.created.any fun output => output.outputId == spent.outputId

/-- The created outputs that the same update does not consume. -/
def netCreated (update : LedgerUpdate) : List LedgerOutput :=
  update.created.filter fun output =>
    !update.consumed.any fun spent => spent.outputId == output.outputId

end LedgerUpdate

/-- What a node reports about a slot. -/
inductive LedgerEvent where
  /-- The update may still be taken back. -/
  | accepted (update : LedgerUpdate)
  /-- The update is final. -/
  | committed (update : LedgerUpdate)
deriving DecidableEq

/-- The update of an event. -/
def LedgerEvent.update : LedgerEvent → LedgerUpdate
  | .accepted update => update
  | .committed update => update

/-- The slot of an event. -/
def LedgerEvent.slot (event : LedgerEvent) : Slot := event.update.slot

/-- What a node says about itself. -/
structure NodeInfo where
  networkName : String
  protocolVersion : UInt8
  /-- The latest slot of the node's ledger. -/
  ledgerSlot : Slot
  /-- The oldest slot the node still has data for. -/
  pruningSlot : Slot
deriving DecidableEq

end OutputIndex
