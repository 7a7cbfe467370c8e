import OutputIndex.Store

/-!
# Scanning a store

A scan walks some sources.  A source is a kind of output with a condition on its records and a way
to enumerate the candidates: all rows of the kind, or those found by an address or an identity.
Each source gives its rows in query order, from a place on and up to a limit.
-/

namespace OutputIndex

/-- How the candidates of a scan are found. -/
inductive ScanDriver where
  /-- All rows of the kind. -/
  | all
  /-- The rows with an address. -/
  | address (key : AddressKey)
  /-- The rows of a chain or foundry. -/
  | identity (key : Bytes)
deriving DecidableEq

/-- One kind of output that takes part in a scan. -/
structure ScanSource where
  kind : OutputKind
  driver : ScanDriver
  /-- The condition on the records. -/
  accepts : OutputRecord → Bool

/-- What a scan finds. -/
structure ScanOutcome where
  /-- The rows of each source, in query order. -/
  rows : List (List SortKey)
  /-- The last committed slot, if anything is imported. -/
  committedSlot : Option Slot
deriving DecidableEq

namespace Store

/-- The places from one on. -/
def placesFrom (start : Option SortKey) (places : List SortKey) : List SortKey :=
  match start with
  | none => places
  | some first => places.filter fun place => !TableKey.before place first

/-- The places of the rows found by a key. -/
def placesOf (key : Bytes) (table : KeySet LookupKey) : List SortKey :=
  (table.keys.filter fun place => place.1 == key).map (·.2)

/-- The candidates of a source, in query order. -/
def candidates (store : Store) (source : ScanSource) : Except StorageError (List SortKey) :=
  let tables := store.tables source.kind
  match source.driver with
  | .all => do return (← need (.bySlot source.kind) tables.bySlot).keys
  | .address key => do
    return placesOf key (← need (.byAddress source.kind) tables.byAddress)
  | .identity key => do
    return placesOf key (← need (.byIdentity source.kind) tables.byIdentity)

/-- Whether the row at a place is there and satisfies the condition of a source. -/
def admits (store : Store) (source : ScanSource) (place : SortKey) : Bool :=
  (store.row? source.kind place.outputId).any source.accepts

/-- The rows of a source, from a place on and up to a limit. -/
def scanSource (store : Store) (start : Option SortKey) (limit : Option Nat)
    (source : ScanSource) : Except StorageError (List SortKey) :=
  if limit = some 0 then .ok []
  else do
    let places ← store.candidates source
    -- the limit counts the rows that are accepted, not the candidates
    let rows := (placesFrom start places).filter (store.admits source)
    return match limit with
      | none => rows
      | some count => rows.take count

/-- Scans some sources. -/
def scan (store : Store) (sources : List ScanSource) (start : Option SortKey)
    (limit : Option Nat) : Except StorageError ScanOutcome := do
  let rows ← sources.mapM (store.scanSource start limit)
  return ⟨rows, store.status.map (·.committedSlot)⟩

end Store

end OutputIndex
