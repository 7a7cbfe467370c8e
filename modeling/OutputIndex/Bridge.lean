import OutputIndex.Error
import OutputIndex.Ledger

/-!
# Bridges to a node

A bridge gives the node's information, its unspent outputs and its events from a slot on.  The
outputs and events come one by one, and each of them may be an error instead.
-/

namespace OutputIndex

/-- A bridge to a node. -/
structure Bridge where
  nodeInfo : Except BridgeError NodeInfo
  /-- The outputs unspent in the latest slot of the node's ledger. -/
  unspentOutputs : Except BridgeError (List (Except BridgeError LedgerOutput))
  /-- The events from a slot on. -/
  ledgerUpdates : Slot → Except BridgeError (List (Except BridgeError LedgerEvent))

namespace Bridge

/-- The bridge to a node of which everything is known. -/
def ofLists (info : NodeInfo) (outputs : List LedgerOutput) (events : List LedgerEvent) :
    Bridge where
  nodeInfo := .ok info
  unspentOutputs := .ok (outputs.map .ok)
  ledgerUpdates start := .ok ((events.filter fun event => start ≤ event.slot).map .ok)

/-- The bridge with something made to fail. -/
def withFault (bridge : Bridge) (fault : Fault) : Bridge where
  nodeInfo := if fault = .nodeInfo then .error (.io (.injected fault)) else bridge.nodeInfo
  unspentOutputs :=
    if fault = .snapshot then .error (.io (.injected fault)) else bridge.unspentOutputs
  ledgerUpdates start := do
    let events ← bridge.ledgerUpdates start
    return match fault with
      | .updates after => events.take after ++ [.error (.io (.injected fault))]
      | _ => events

end Bridge

end OutputIndex
