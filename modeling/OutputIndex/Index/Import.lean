import OutputIndex.Index

/-!
# Bulk imports

An import loads the unspent outputs of a ledger in one write.  The tables beside the rows are
dropped at its start and built once at its end.  Every imported row is final and live, and the
index counts as committed up to the highest slot seen.
-/

namespace OutputIndex

/-- An import in progress. -/
structure Import where
  /-- The write that will make up the index. -/
  writer : Writer
  /-- The highest slot in which an imported output was booked. -/
  lastSlot : Slot
  /-- The number of imported outputs. -/
  imported : Nat

/-- A part of an import. -/
abbrev ImportM := ExceptT IndexError (StateM Import)

namespace Import

/-- An import into the store of a handle. -/
def start (index : Index) : Import := ⟨.startImport index.store index.fault, 0, 0⟩

/-- Runs a part of the write.  A part that fails leaves the write as it was. -/
def write {α : Type} (body : WriteM α) : ImportM α := do
  let state ← get
  match body.run state.writer with
  | .error cause => throw cause
  | .ok (result, writer) =>
    set { state with writer }
    return result

/-- Puts a record of an output with the addresses that the output holds. -/
def put (record : OutputRecord) (addresses : List Address) : ImportM Unit := do
  write (WriteM.writeOutput record)
  write (WriteM.recordReferences record.outputId addresses)
  modify fun state =>
    { state with
      lastSlot := max state.lastSlot record.about.createdAtSlot
      imported := state.imported + 1 }

/-- The record of an imported output, with the addresses that the output holds. -/
def prepare (output : LedgerOutput) : Except IndexError (OutputRecord × List Address) :=
  match OutputRecord.ofLedgerOutput output true with
  | .ok record => .ok (record, output.output.addresses)
  | .error cause => .error (.codec cause)

/-- Imports an output. -/
def add (output : LedgerOutput) : ImportM Unit := do
  let (record, addresses) ← prepare output
  put record addresses

/-- Imports a batch of outputs; an output without a record stops the batch before its start. -/
def addAll (outputs : List LedgerOutput) : ImportM Unit := do
  let prepared ← (outputs.mapM prepare : Except IndexError _)
  prepared.forM fun (record, addresses) => put record addresses

/-- The write that ends an import: the tables beside the rows are built and the status is put. -/
def finalizeWrite (status : Status) : WriteM Store := do
  WriteM.buildIndexes
  WriteM.writeStatus status
  WriteM.commit

/-- The status of the index after an import. -/
def status (state : Import) (ledgerSlot : Slot) (protocolVersion : UInt8) (networkName : String) :
    Status :=
  { committedSlot := max ledgerSlot state.lastSlot
    protocolVersion
    networkName
    databaseVersion := layoutVersion }

/-- Ends an import: its write takes the place of the handle's store. -/
def finalize (state : Import) (ledgerSlot : Slot) (protocolVersion : UInt8)
    (networkName : String) : IndexM Status := do
  let status := state.status ledgerSlot protocolVersion networkName
  match (finalizeWrite status).run state.writer with
  | .error cause => throw cause
  | .ok (store, _) =>
    modify fun index => { index with store, committedSlot := status.committedSlot }
    return status

end Import

end OutputIndex
