import OutputIndex.Store.Scan
import OutputIndex.Store.Writer

/-!
# The index

The index follows a ledger through accepted and committed updates.  An accepted update is taken
over tentatively: the rows of new outputs are not final, and spent rows are only marked, so that
queries see the change at once.  A commit of a slot first drops the tentative rows booked up to the
slot and takes back the marks up to it, and then applies the committed update for good.  So nothing
tentative outlives the commit of its slot unless the committed update says the same.

Several handles can work on one store.  Each remembers the last slot that it knows to be committed,
so that it can skip updates without looking at the store.

An operation is one write: it goes through as a whole, or it fails and the store stays as it was.
-/

namespace OutputIndex

/-- A store as one handle sees it. -/
structure Index where
  store : Store
  /-- The last committed slot that the handle knows of. -/
  committedSlot : Slot
  /-- What is made to fail. -/
  fault : Fault

/-- An operation of the index. -/
abbrev IndexM := ExceptT IndexError (StateM Index)

/-! ## Parts of updates -/

namespace WriteM

/-- Takes over a created output.  A row that is there stays as it is, but becomes final if the
output is committed. -/
def insertOutput (output : LedgerOutput) (committed : Bool) : WriteM Unit := do
  match ← readOutput output.kind output.outputId with
  | some record => if committed && !record.about.committed then writeOutput record.finalized
  | none =>
    match OutputRecord.ofLedgerOutput output committed with
    | .error cause => throw (.codec cause)
    | .ok record =>
      writeOutput record
      recordReferences output.outputId output.output.addresses

/-- Marks a consumed output as spent.  If it was never seen, a tentative spent row is put, so that
the consumption is taken back with all else that is tentative. -/
def markSpent (spent : LedgerSpent) : WriteM Unit := do
  let output := spent.output
  match ← readOutput output.kind output.outputId with
  | some record =>
    if record.about.deletedAtSlot ≠ spent.spentAt then writeOutput (record.spentAt spent.spentAt)
  | none =>
    match OutputRecord.ofLedgerOutput output false with
    | .error cause => throw (.codec cause)
    | .ok record =>
      writeOutput (record.spentAt spent.spentAt)
      recordReferences output.outputId output.output.addresses

/-- Takes out a consumed output for good. -/
def removeSpent (spent : LedgerSpent) : WriteM Unit := do
  if (← removeOutput spent.output.kind spent.outputId).isSome then
    discard (releaseReferences spent.outputId)

/-- Drops the tentative rows booked up to a slot, and takes back the marks up to it. -/
def removeUncommitted (slot : Slot) : WriteM Unit := do
  let ids ← discardUncommitted slot
  ids.forM fun id => discard (releaseReferences id)
  discard (revertSpent slot)

end WriteM

namespace Index

/-! ## Handles -/

/-- A new handle on a store. -/
def attach (store : Store) (fault : Fault) : Index :=
  ⟨store, (store.status.map (·.committedSlot)).getD 0, fault⟩

/-- Runs a write, whose store takes the place of the handle's if nothing fails. -/
def transact {α : Type} (body : WriteM α) : IndexM α := do
  let index ← get
  let write : WriteM (α × Store) := do
    let result ← body
    return (result, ← WriteM.commit)
  match write.run (.start index.store index.fault) with
  | .error cause => throw cause
  | .ok ((result, store), _) =>
    set { index with store }
    return result

/-- Fails if the look-ups of queries are made to. -/
def checkLookups : IndexM Unit := do
  let index ← get
  if index.fault = .lookups then throw (.storage (.injected index.fault))

/-- The status of the store. -/
def status : IndexM Status := do
  match (← get).store.status with
  | some status => return status
  | none => throw .statusNotFound

/-- The definition of a multi address, by its key. -/
def multiAddress (key : AddressKey) : IndexM MultiAddress := do
  checkLookups
  match (← get).store.multiAddress? key with
  | .error cause => throw (.codec cause)
  | .ok none => throw (.multiAddressNotFound key)
  | .ok (some definition) => return definition

/-- Scans the store. -/
def scan (sources : List ScanSource) (start : Option SortKey) (limit : Option Nat) :
    IndexM ScanOutcome := do
  checkLookups
  match (← get).store.scan sources start limit with
  | .error cause => throw (.storage cause)
  | .ok outcome => return outcome

/-! ## Updates -/

/-- Empties the store. -/
def clear : IndexM Unit :=
  modify fun index => { index with store := .empty, committedSlot := 0 }

/-- The write of an accepted update. -/
def acceptWrite (update : LedgerUpdate) : WriteM Unit := do
  update.netConsumed.forM WriteM.markSpent
  update.netCreated.forM fun output => WriteM.insertOutput output false

/-- Takes over an accepted update tentatively. -/
def accept (update : LedgerUpdate) : IndexM Unit := do
  let committedSlot := (← get).committedSlot
  if update.slot ≤ committedSlot then throw (.updateSkipped update.slot committedSlot)
  transact (acceptWrite update)

/-- The write of a committed update. -/
def commitWrite (update : LedgerUpdate) : WriteM Unit := do
  let some status ← WriteM.readStatus | throw .statusNotFound
  -- another handle may have committed more than this one knows of
  if update.slot < status.committedSlot then
    throw (.updateSkipped update.slot status.committedSlot)
  WriteM.removeUncommitted update.slot
  update.netConsumed.forM WriteM.removeSpent
  update.netCreated.forM fun output => WriteM.insertOutput output true
  WriteM.writeStatus { status with committedSlot := update.slot }

/-- Takes over a committed update for good. -/
def commit (update : LedgerUpdate) : IndexM Unit := do
  let committedSlot := (← get).committedSlot
  if update.slot < committedSlot then throw (.updateSkipped update.slot committedSlot)
  transact (commitWrite update)
  -- the handle never knows of less than before
  modify fun index => { index with committedSlot := max index.committedSlot update.slot }

/-- The write that takes back everything tentative. -/
def rollbackWrite : WriteM Unit := do
  WriteM.removeUncommitted Slot.last
  discard WriteM.purgeOrphans

/-- Takes back everything tentative. -/
def removeUncommittedChanges : IndexM Unit := transact rollbackWrite

/-- Takes over an event. -/
def apply : LedgerEvent → IndexM Unit
  | .accepted update => accept update
  | .committed update => commit update

end Index

end OutputIndex
