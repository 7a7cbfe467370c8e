import OutputIndex.Filter
import OutputIndex.Index

/-!
# Queries

A query returns the identifiers of the outputs that a filter admits, in query order, with the slot
that the answer reflects.  A page size of zero asks for all of them; otherwise one row more than a
page is fetched, and if it is there, its place is the cursor of the next page.
-/

namespace OutputIndex

/-- Which part of an answer is asked for. -/
structure Page where
  /-- The number of outputs on a page; zero for all. -/
  size : UInt32
  /-- Where the page begins. -/
  cursor : Option String
deriving DecidableEq

/-- An answer. -/
structure QueryResult where
  outputIds : List OutputId
  committedSlot : Slot
  pageSize : UInt32
  nextCursor : Option String
deriving DecidableEq

/-- The answer as a JSON document. -/
def QueryResult.toJson (result : QueryResult) : Json :=
  .ofFields
    ([("output_ids", .array (result.outputIds.map (·.toJson))),
      ("committed_slot", .natural result.committedSlot.toNat),
      ("page_size", .natural result.pageSize.toNat)]
      ++ result.nextCursor.toList.map fun cursor => ("next_cursor", .text cursor))

namespace SortKey

/-- Whether a place does not come after another one. -/
def le (a b : SortKey) : Bool := !TableKey.before b a

/-- Sorted lists of places as one sorted list. -/
def mergeAll (rows : List (List SortKey)) : List SortKey :=
  rows.foldr (fun row merged => row.merge merged le) []

end SortKey

namespace Index

/-- The place at which a page begins. -/
def pageStart (page : Page) : Except IndexError (Option SortKey) :=
  match page.cursor with
  | none => .ok none
  | some cursor =>
    if page.size = 0 then .error (.unsupportedQuery "a cursor requires a page size")
    else
      match SortKey.ofCursor cursor with
      | .ok start => .ok (some start)
      | .error cause => .error (.invalidCursor cause)

/-- The number of rows to fetch for a page. -/
def pageLimit (page : Page) : Option Nat :=
  if page.size = 0 then none else some (page.size.toNat + 1)

/-- Answers a query on some sources. -/
def querySources (sources : List ScanSource) (page : Page) : IndexM QueryResult := do
  let start ← (pageStart page : Except IndexError _)
  let outcome ← scan sources start (pageLimit page)
  let merged := SortKey.mergeAll outcome.rows
  let committedSlot := outcome.committedSlot.getD 0
  match pageLimit page with
  | none => return ⟨merged.map (·.outputId), committedSlot, page.size, none⟩
  | some limit =>
    let rows := merged.take limit
    -- the row beyond the page, if there is one, is where the next page begins
    let next := if rows.length = limit then rows.getLast? else none
    return ⟨(rows.take (limit - 1)).map (·.outputId), committedSlot, page.size,
      next.map (·.cursor)⟩

/-- Answers a query. -/
def query (filter : Filter) (page : Page) : IndexM QueryResult := querySources filter.sources page

/-- The live rows of a chain or foundry. -/
def identitySource (kind : OutputKind) (key : Bytes) : ScanSource where
  kind
  driver := .identity key
  accepts record := record.about.isLive

/-- The first live output of a chain or foundry. -/
def findByIdentity (kind : OutputKind) (key : Bytes) : IndexM QueryResult := do
  let result ← querySources [identitySource kind key] ⟨0, none⟩
  return { result with outputIds := result.outputIds.take 1 }

end Index

end OutputIndex
