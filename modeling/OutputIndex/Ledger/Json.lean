import OutputIndex.Ledger
import OutputIndex.Output.Json

/-!
# Ledger data as JSON documents
-/

namespace OutputIndex

namespace LedgerOutput

/-- The output as a JSON document. -/
def toJson (output : LedgerOutput) : Json :=
  .ofFields
    [("output_id", output.outputId.toJson), ("output", output.output.toJson),
     ("booked_at", .natural output.bookedAt.toNat)]

/-- Reads a booked output from a JSON document. -/
def ofJson? (json : Json) : Option LedgerOutput := do
  let [id, output, bookedAt] ← json.fields? ["output_id", "output", "booked_at"] | none
  return {
    outputId := ← id.required Identifier.ofJson?
    output := ← output.required Output.ofJson?
    bookedAt := ← bookedAt.required Json.word32? }

end LedgerOutput

namespace LedgerSpent

/-- The consumed output as a JSON document. -/
def toJson (spent : LedgerSpent) : Json :=
  .ofFields [("output", spent.output.toJson), ("spent_at", .natural spent.spentAt.toNat)]

/-- Reads a consumed output from a JSON document. -/
def ofJson? (json : Json) : Option LedgerSpent := do
  let [output, spentAt] ← json.fields? ["output", "spent_at"] | none
  return {
    output := ← output.required LedgerOutput.ofJson?
    spentAt := ← spentAt.required Json.word32? }

end LedgerSpent

namespace LedgerUpdate

/-- The update as a JSON document. -/
def toJson (update : LedgerUpdate) : Json :=
  .ofFields
    [("slot", .natural update.slot.toNat),
     ("consumed", .array (update.consumed.map (·.toJson))),
     ("created", .array (update.created.map (·.toJson)))]

/-- Reads an update from a JSON document. -/
def ofJson? (json : Json) : Option LedgerUpdate := do
  let [slot, consumed, created] ← json.fields? ["slot", "consumed", "created"] | none
  return {
    slot := ← slot.required Json.word32?
    consumed := ← consumed.withDefault [] (Json.list? LedgerSpent.ofJson?)
    created := ← created.withDefault [] (Json.list? LedgerOutput.ofJson?) }

end LedgerUpdate

namespace LedgerEvent

/-- The event as a JSON document. -/
def toJson : LedgerEvent → Json
  | .accepted update => .ofFields [("accepted", update.toJson)]
  | .committed update => .ofFields [("committed", update.toJson)]

/-- Reads an event from a JSON document. -/
def ofJson? (json : Json) : Option LedgerEvent := do
  let (name, some json) ← json.variant? | none
  match name with
  | "accepted" => (LedgerUpdate.ofJson? json).map .accepted
  | "committed" => (LedgerUpdate.ofJson? json).map .committed
  | _ => none

end LedgerEvent

namespace NodeInfo

/-- The node's information as a JSON document. -/
def toJson (info : NodeInfo) : Json :=
  .ofFields
    [("network_name", .text info.networkName),
     ("protocol_version", .natural info.protocolVersion.toNat),
     ("ledger_slot", .natural info.ledgerSlot.toNat),
     ("pruning_slot", .natural info.pruningSlot.toNat)]

/-- Reads a node's information from a JSON document. -/
def ofJson? (json : Json) : Option NodeInfo := do
  let [name, version, ledgerSlot, pruningSlot] ←
    json.fields? ["network_name", "protocol_version", "ledger_slot", "pruning_slot"] | none
  return {
    networkName := ← name.required Json.text?
    protocolVersion := ← version.required Json.word8?
    ledgerSlot := ← ledgerSlot.required Json.word32?
    pruningSlot := ← pruningSlot.withDefault 0 Json.word32? }

end NodeInfo

end OutputIndex
