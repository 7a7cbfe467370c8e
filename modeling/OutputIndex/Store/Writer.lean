import OutputIndex.Store

/-!
# Writing to a store

A writer works on a copy of the store that takes the store's place when the writer commits, and is
lost when it does not.  A writer for a bulk import starts without the tables beside the rows and
leaves them alone until it is told to build them.

A writer can be made to fail at some calls.  A call that fails changes nothing.
-/

namespace OutputIndex

/-- A write in progress. -/
structure Writer where
  /-- What the store will be. -/
  store : Store
  /-- Whether the tables beside the rows are kept up to date. -/
  indexed : Bool
  /-- What is made to fail. -/
  fault : Fault

/-- A part of a write. -/
abbrev WriteM := StateT Writer (Except IndexError)

namespace Writer

/-- A writer on a store. -/
def start (store : Store) (fault : Fault) : Writer := ⟨store, true, fault⟩

/-- A writer for a bulk import into a store. -/
def startImport (store : Store) (fault : Fault) : Writer := ⟨store.dropIndexes, false, fault⟩

/-! ## What the calls do -/

/-- Puts a row, in place of any that the output had. -/
def putRecord (writer : Writer) (record : OutputRecord) : Writer :=
  if writer.indexed then
    -- the places of the row that is replaced may differ from those of the new one
    let store :=
      match writer.store.row? record.kind record.outputId with
      | some previous => writer.store.unindex previous
      | none => writer.store
    { writer with store := (store.putRow record).index record }
  else { writer with store := writer.store.putRow record }

/-- Takes a row out. -/
def takeRecord (writer : Writer) (kind : OutputKind) (id : OutputId) :
    Option OutputRecord × Writer :=
  match writer.store.row? kind id with
  | none => (none, writer)
  | some record =>
    let store := writer.store.eraseRow kind id
    (some record, { writer with store := if writer.indexed then store.unindex record else store })

/-- The rows that a table of unsettled rows holds up to a slot. -/
def upTo (slot : Slot) (table : KeySet TrackedKey) : List (OutputKind × OutputId) :=
  (table.keys.filter fun key => key.1 ≤ slot).map (·.2)

/-- Takes out a row, and notes the identifier of its output if it was there. -/
def discardRow (state : List OutputId × Writer) (place : OutputKind × OutputId) :
    List OutputId × Writer :=
  match state.2.takeRecord place.1 place.2 with
  | (some _, writer) => (state.1 ++ [place.2], writer)
  | (none, writer) => (state.1, writer)

/-- Takes out the tentative rows booked up to a slot: the identifiers of their outputs. -/
def discard (writer : Writer) (slot : Slot) : List OutputId × Writer :=
  let table := writer.store.uncommitted.getD .empty
  let writer := { writer with store := { writer.store with uncommitted := some table } }
  (upTo slot table).foldl discardRow ([], writer)

/-- Makes a row live again, and counts it if it was there. -/
def reviveRow (state : Nat × Writer) (place : OutputKind × OutputId) : Nat × Writer :=
  match state.2.store.row? place.1 place.2 with
  | some record => (state.1 + 1, state.2.putRecord (record.spentAt 0))
  | none => state

/-- Makes the rows spent up to a slot live again: their number. -/
def revive (writer : Writer) (slot : Slot) : Nat × Writer :=
  let table := writer.store.spent.getD .empty
  let writer := { writer with store := { writer.store with spent := some table } }
  (upTo slot table).foldl reviveRow (0, writer)

end Writer

/-! ## The calls -/

namespace WriteM

/-- Fails if the call is made to. -/
def check (call : WriterCall) : WriteM Unit := do
  let writer ← get
  if writer.fault = .writer call then throw (.storage (.injected writer.fault))

/-- The status of the store. -/
def readStatus : WriteM (Option Status) := return (← get).store.status

/-- Puts the status of the store. -/
def writeStatus (status : Status) : WriteM Unit := do
  check .writeStatus
  modify fun writer => { writer with store := { writer.store with status := some status } }

/-- The row of an output. -/
def readOutput (kind : OutputKind) (id : OutputId) : WriteM (Option OutputRecord) :=
  return (← get).store.row? kind id

/-- Puts a row, in place of any that the output had. -/
def writeOutput (record : OutputRecord) : WriteM Unit := do
  check .writeOutput
  modify fun writer => writer.putRecord record

/-- Takes a row out. -/
def removeOutput (kind : OutputKind) (id : OutputId) : WriteM (Option OutputRecord) := do
  check .removeOutput
  modifyGet fun writer => writer.takeRecord kind id

/-- Takes out the tentative rows booked up to a slot. -/
def discardUncommitted (slot : Slot) : WriteM (List OutputId) :=
  modifyGet fun writer => writer.discard slot

/-- Makes the rows spent up to a slot live again. -/
def revertSpent (slot : Slot) : WriteM Nat := modifyGet fun writer => writer.revive slot

/-- Notes the multi addresses that an output refers to. -/
def recordReferences (id : OutputId) (addresses : List Address) : WriteM Unit :=
  modify fun writer => { writer with store := writer.store.recordReferences id addresses }

/-- Takes back what an output refers to. -/
def releaseReferences (id : OutputId) : WriteM Nat :=
  modifyGet fun writer =>
    let (count, store) := writer.store.releaseReferences id
    (count, { writer with store })

/-- Drops the definitions that no output refers to. -/
def purgeOrphans : WriteM Nat :=
  modifyGet fun writer =>
    let (count, store) := writer.store.purgeOrphans
    (count, { writer with store })

/-- Builds the tables beside the rows, and keeps them up to date from then on. -/
def buildIndexes : WriteM Unit :=
  modify fun writer => { writer with store := writer.store.buildIndexes, indexed := true }

/-- The store that takes the place of the one the writer was started on. -/
def commit : WriteM Store := do
  check .commit
  return (← get).store

end WriteM

end OutputIndex
