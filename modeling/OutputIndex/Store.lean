import OutputIndex.Record.Extract
import OutputIndex.Status
import OutputIndex.Table

/-!
# The store of an index

The store keeps a row for each output, in a table for each kind, and tables beside them that say
where rows are found: by slot, by address and by identity for each kind, and for all kinds together
the rows that are tentative and the rows that are spent.  It keeps the definitions of multi
addresses with the outputs that refer to them, and the status.

The tables beside the rows can be missing: a bulk import drops them, and they come back when they
are built or first written to.  Reading a missing table is an error.
-/

namespace OutputIndex

/-! ## One value for each kind -/

/-- A value for each kind of output. -/
structure PerKind (α : Type) where
  basic : α
  account : α
  anchor : α
  foundry : α
  nft : α
  delegation : α

namespace PerKind

variable {α β : Type}

/-- The same value for every kind. -/
def replicate (value : α) : PerKind α := ⟨value, value, value, value, value, value⟩

/-- The value of a kind. -/
def get (values : PerKind α) : OutputKind → α
  | .basic => values.basic
  | .account => values.account
  | .anchor => values.anchor
  | .foundry => values.foundry
  | .nft => values.nft
  | .delegation => values.delegation

/-- The values with another one for a kind. -/
def set (values : PerKind α) (kind : OutputKind) (value : α) : PerKind α :=
  match kind with
  | .basic => { values with basic := value }
  | .account => { values with account := value }
  | .anchor => { values with anchor := value }
  | .foundry => { values with foundry := value }
  | .nft => { values with nft := value }
  | .delegation => { values with delegation := value }

/-- A function of every value. -/
def map (f : α → β) (values : PerKind α) : PerKind β :=
  ⟨f values.basic, f values.account, f values.anchor, f values.foundry, f values.nft,
    f values.delegation⟩

theorem get_set (values : PerKind α) (kind k : OutputKind) (value : α) :
    (values.set kind value).get k = if k = kind then value else values.get k := by
  cases kind <;> cases k <;> rfl

@[simp] theorem get_map (f : α → β) (values : PerKind α) (kind : OutputKind) :
    (values.map f).get kind = f (values.get kind) := by cases kind <;> rfl

@[simp] theorem get_replicate (value : α) (kind : OutputKind) :
    (replicate value).get kind = value := by cases kind <;> rfl

theorem ext_get {v w : PerKind α} (h : ∀ kind, v.get kind = w.get kind) : v = w := by
  cases v
  cases w
  congr
  · exact h .basic
  · exact h .account
  · exact h .anchor
  · exact h .foundry
  · exact h .nft
  · exact h .delegation

end PerKind

/-! ## Tables -/

/-- A place in a table that finds rows by a key: the key, then the row's place in query order. -/
abbrev LookupKey := Bytes × SortKey

/-- A place in a table of rows that are not settled: the slot that settles them, then the row. -/
abbrev TrackedKey := Slot × OutputKind × OutputId

/-- The tables of a kind. -/
structure KindTables where
  /-- The rows. -/
  rows : Table OutputId OutputRecord
  /-- The rows in query order. -/
  bySlot : Option (KeySet SortKey)
  /-- The rows by each of their addresses. -/
  byAddress : Option (KeySet LookupKey)
  /-- The rows by the identifier of their chain or foundry. -/
  byIdentity : Option (KeySet LookupKey)

/-- Everything that an index keeps. -/
structure Store where
  /-- The tables of each kind. -/
  kinds : PerKind KindTables
  /-- The tentative rows, by the slot in which they were booked. -/
  uncommitted : Option (KeySet TrackedKey)
  /-- The spent rows, by the slot in which they were spent. -/
  spent : Option (KeySet TrackedKey)
  /-- The spelled-out definitions of multi addresses, by their keys. -/
  definitions : Table AddressKey Bytes
  /-- Which outputs refer to a multi address. -/
  references : KeySet (AddressKey × OutputId)
  /-- Which multi addresses an output refers to. -/
  referencesByOutput : KeySet (OutputId × AddressKey)
  /-- What the store reflects, once something is imported. -/
  status : Option Status

namespace KindTables

/-- The tables of a kind without rows. -/
def empty : KindTables := ⟨.empty, some .empty, some .empty, some .empty⟩

/-- The tables without those that find rows. -/
def dropIndexes (tables : KindTables) : KindTables :=
  { tables with bySlot := none, byAddress := none, byIdentity := none }

/-- The tables with empty ones to find rows. -/
def clearIndexes (tables : KindTables) : KindTables :=
  { tables with bySlot := some .empty, byAddress := some .empty, byIdentity := some .empty }

/-- The tables, with empty ones in place of those that are missing. -/
def withSchema (tables : KindTables) : KindTables :=
  { tables with
    bySlot := some (tables.bySlot.getD .empty)
    byAddress := some (tables.byAddress.getD .empty)
    byIdentity := some (tables.byIdentity.getD .empty) }

/-- The places at which a record is found by its addresses. -/
def addressPlaces (record : OutputRecord) : List LookupKey :=
  record.addressKeys.map fun key => (key, record.sortKey)

/-- The places at which a record is found by its identity. -/
def identityPlaces (record : OutputRecord) : List LookupKey :=
  record.identityKey?.toList.map fun key => (key, record.sortKey)

/-- The tables, with those that find rows finding the record. -/
def index (tables : KindTables) (record : OutputRecord) : KindTables :=
  { tables with
    bySlot := some (KeySet.add (tables.bySlot.getD .empty) record.sortKey)
    byAddress := some (KeySet.addAll (tables.byAddress.getD .empty) (addressPlaces record))
    byIdentity :=
      -- a record without an identity leaves the table alone, even a missing one
      match record.identityKey? with
      | none => tables.byIdentity
      | some _ => some (KeySet.addAll (tables.byIdentity.getD .empty) (identityPlaces record)) }

/-- The tables, with those that find rows not finding the record. -/
def unindex (tables : KindTables) (record : OutputRecord) : KindTables :=
  { tables with
    bySlot := some ((tables.bySlot.getD .empty).erase record.sortKey)
    byAddress := some (KeySet.eraseAll (tables.byAddress.getD .empty) (addressPlaces record))
    byIdentity :=
      match record.identityKey? with
      | none => tables.byIdentity
      | some _ => some (KeySet.eraseAll (tables.byIdentity.getD .empty) (identityPlaces record)) }

end KindTables

namespace Store

/-- The store without anything in it. -/
def empty : Store :=
  { kinds := .replicate .empty
    uncommitted := some .empty
    spent := some .empty
    definitions := .empty
    references := .empty
    referencesByOutput := .empty
    status := none }

/-- The tables of a kind. -/
def tables (store : Store) (kind : OutputKind) : KindTables := store.kinds.get kind

/-- The store with other tables for a kind. -/
def setTables (store : Store) (kind : OutputKind) (tables : KindTables) : Store :=
  { store with kinds := store.kinds.set kind tables }

/-- The store without the tables beside the rows. -/
def dropIndexes (store : Store) : Store :=
  { store with kinds := store.kinds.map (·.dropIndexes), uncommitted := none, spent := none }

/-- The store, with empty tables in place of those that are missing. -/
def withSchema (store : Store) : Store :=
  { store with
    kinds := store.kinds.map (·.withSchema)
    uncommitted := some (store.uncommitted.getD .empty)
    spent := some (store.spent.getD .empty) }

/-! ## Rows -/

/-- The row of an output. -/
def row? (store : Store) (kind : OutputKind) (id : OutputId) : Option OutputRecord :=
  (store.tables kind).rows.get? id

/-- The place of a tentative record among the tentative rows. -/
def bookedPlace (record : OutputRecord) : TrackedKey :=
  (record.about.createdAtSlot, record.kind, record.outputId)

/-- The place of a spent record among the spent rows. -/
def spentPlace (record : OutputRecord) : TrackedKey :=
  (record.about.deletedAtSlot, record.kind, record.outputId)

/-- The store, with a record among the tentative and the spent rows as far as it is so. -/
def track (store : Store) (record : OutputRecord) : Store :=
  { store with
    uncommitted :=
      if record.about.committed then store.uncommitted
      else some (KeySet.add (store.uncommitted.getD .empty) (bookedPlace record))
    spent :=
      if record.about.isLive then store.spent
      else some (KeySet.add (store.spent.getD .empty) (spentPlace record)) }

/-- The store, with a record no longer among the tentative and the spent rows. -/
def untrack (store : Store) (record : OutputRecord) : Store :=
  { store with
    uncommitted :=
      if record.about.committed then store.uncommitted
      else some ((store.uncommitted.getD .empty).erase (bookedPlace record))
    spent :=
      if record.about.isLive then store.spent
      else some ((store.spent.getD .empty).erase (spentPlace record)) }

/-- The store, with the tables beside the rows holding a record. -/
def index (store : Store) (record : OutputRecord) : Store :=
  (store.setTables record.kind ((store.tables record.kind).index record)).track record

/-- The store, with the tables beside the rows not holding a record. -/
def unindex (store : Store) (record : OutputRecord) : Store :=
  (store.setTables record.kind ((store.tables record.kind).unindex record)).untrack record

/-- The store with the row of a record, in place of any that its output had. -/
def putRow (store : Store) (record : OutputRecord) : Store :=
  let tables := store.tables record.kind
  store.setTables record.kind { tables with rows := tables.rows.insert record.outputId record }

/-- The store without the row of an output. -/
def eraseRow (store : Store) (kind : OutputKind) (id : OutputId) : Store :=
  let tables := store.tables kind
  store.setTables kind { tables with rows := tables.rows.erase id }

/-- The rows of a kind, in the order of their identifiers. -/
def rowsOf (store : Store) (kind : OutputKind) : List OutputRecord :=
  (store.tables kind).rows.values

/-- The rows of all kinds. -/
def allRows (store : Store) : List OutputRecord := OutputKind.all.flatMap store.rowsOf

/-- The store with the tables beside the rows built anew. -/
def buildIndexes (store : Store) : Store :=
  store.allRows.foldl index
    { store with
      kinds := store.kinds.map (·.clearIndexes)
      uncommitted := some .empty
      spent := some .empty }

/-! ## Multi addresses -/

/-- Whether some output refers to a multi address. -/
def isReferenced (store : Store) (key : AddressKey) : Bool :=
  store.references.keys.any fun reference => reference.1 == key

/-- The store, with an output referring to a multi address. -/
def addReference (store : Store) (id : OutputId) (definition : MultiAddress) : Store :=
  let key := definition.key
  { store with
    -- the first definition under a key stays
    definitions :=
      if store.definitions.contains key then store.definitions
      else store.definitions.insert key definition.toBytes
    references := KeySet.add store.references (key, id)
    referencesByOutput := KeySet.add store.referencesByOutput (id, key) }

/-- The store, with an output referring to the multi addresses that addresses are or wrap. -/
def recordReferences (store : Store) (id : OutputId) (addresses : List Address) : Store :=
  (Address.multiAddresses addresses).foldl (fun store entry => store.addReference id entry.2)
    store

/-- The multi addresses that an output refers to. -/
def referencesOf (store : Store) (id : OutputId) : List AddressKey :=
  (store.referencesByOutput.keys.filter fun reference => reference.1 == id).map (·.2)

/-- Takes back that an output refers to a multi address, whose definition goes with the last
reference; `count` counts the definitions that have gone. -/
def dropReference (id : OutputId) (count : Nat × Store) (key : AddressKey) : Nat × Store :=
  let store := { count.2 with references := count.2.references.erase (key, id) }
  if store.isReferenced key then (count.1, store)
  else (count.1 + 1, { store with definitions := store.definitions.erase key })

/-- Takes back what an output refers to, and counts the definitions that have gone. -/
def releaseReferences (store : Store) (id : OutputId) : Nat × Store :=
  -- the references from the output go first, all at once
  let keys := store.referencesOf id
  let store :=
    { store with
      referencesByOutput := store.referencesByOutput.filter fun reference _ => reference.1 != id }
  keys.foldl (dropReference id) (0, store)

/-- Drops the definitions that no output refers to, and counts them. -/
def purgeOrphans (store : Store) : Nat × Store :=
  let kept := store.definitions.filter fun key _ => store.isReferenced key
  (store.definitions.size - kept.size, { store with definitions := kept })

/-- The definition of a multi address, by its key. -/
def multiAddress? (store : Store) (key : AddressKey) : Except CodecError (Option MultiAddress) :=
  match store.definitions.get? key with
  | none => .ok none
  | some bytes =>
    match Address.ofBytes bytes with
    | .error cause => .error (.address cause)
    | .ok (.multi members threshold) => .ok (some ⟨members, threshold⟩)
    | .ok other => .error (.notMultiAddress other.kind)

/-! ## Counts -/

/-- A table that is needed, or the error that it is missing. -/
def need {κ : Type} [TableKey κ] (name : TableName) :
    Option (KeySet κ) → Except StorageError (KeySet κ)
  | some table => .ok table
  | none => .error (.missingTable name)

/-- The number of rows of each kind, of tentative and of spent rows, and of multi addresses. -/
def stats (store : Store) : Except StorageError (List (String × Nat)) := do
  let uncommitted ← need .uncommitted store.uncommitted
  let spent ← need .spent store.spent
  return OutputKind.all.map (fun kind => (kind.name, (store.tables kind).rows.size))
    ++ [("uncommitted", uncommitted.size), ("spent", spent.size),
      ("multiaddresses", store.definitions.size)]

end Store

end OutputIndex
