import OutputIndex.Proofs.Cursor
import OutputIndex.Proofs.Index.Ledger
import OutputIndex.Proofs.Index.Reachable
import OutputIndex.Proofs.Query.Scan

/-!
# Answers are exact

Whatever driver a filter chooses, and although the rows of each source are cut before they are
merged, a query answers what looking at every row would (`Index.run_query_eq_fullScan`): a page of
the rows that the filter admits, in query order, and the place of the row beyond it.  The same holds
of looking a chain or foundry up by its identity.
-/

namespace OutputIndex

/-- A page begins at the place of its cursor, and without one at the first place.  Only a page of
some size can have a cursor. -/
def Page.BeginsAt (page : Page) (start : Option SortKey) : Prop :=
  match page.cursor with
  | none => start = none
  | some cursor => page.size ≠ 0 ∧ ∃ first, SortKey.ofCursor cursor = .ok first ∧ start = some first

/-- The answer that gives a page of some rows, and where the next page begins. -/
def Page.answer (page : Page) (rows : List OutputRecord) (committedSlot : Option Slot) :
    QueryResult where
  outputIds := (if page.size = 0 then rows else rows.take page.size.toNat).map (·.outputId)
  committedSlot := committedSlot.getD 0
  pageSize := page.size
  nextCursor := if page.size = 0 then none else rows[page.size.toNat]?.map (·.sortKey.cursor)

namespace Index

variable {index : Index} {page : Page} {start : Option SortKey} {sources : List ScanSource}

lemma pageStart_eq_ok (h : page.BeginsAt start) : pageStart page = .ok start := by
  unfold Page.BeginsAt at h
  unfold pageStart
  cases hcursor : page.cursor with
  | none =>
    rw [hcursor] at h
    rw [h]
  | some cursor =>
    rw [hcursor] at h
    obtain ⟨hsize, first, hfirst, rfl⟩ := h
    simp only [if_neg hsize, hfirst]

lemma run_checkLookups (index : Index) :
    checkLookups.run.run index =
      if index.fault = .lookups then (.error (.storage (.injected index.fault)), index)
      else (.ok (), index) := by
  have hunfold : checkLookups.run.run index =
      (if index.fault = .lookups then throw (.storage (.injected index.fault))
        else pure () : IndexM Unit).run.run index := rfl
  rw [hunfold]
  split <;> rfl

lemma run_scan (sources : List ScanSource) (start : Option SortKey) (limit : Option Nat)
    (index : Index) :
    (scan sources start limit).run.run index =
      if index.fault = .lookups then (.error (.storage (.injected index.fault)), index)
      else
        match index.store.scan sources start limit with
        | .error cause => (.error (.storage cause), index)
        | .ok outcome => (.ok outcome, index) := by
  have hcheck := run_checkLookups index
  have hget : (get : IndexM Index).run.run index = (.ok index, index) := rfl
  split at hcheck
  · rw [scan, run_bind_of_error hcheck, if_pos ‹_›]
  · rw [scan, run_bind_of_ok hcheck, run_bind_of_ok hget, if_neg ‹_›]
    cases index.store.scan sources start limit <;> rfl

/-- If one row more than a page is fetched, the last one is there exactly if the page is not the
last one. -/
lemma getLast?_take_succ {α : Type} (rows : List α) (n : Nat) :
    (if (rows.take (n + 1)).length = n + 1 then (rows.take (n + 1)).getLast? else none) =
      rows[n]? := by
  by_cases h : n < rows.length
  · rw [if_pos (by rw [List.length_take]; omega), List.take_add_one, List.getElem?_eq_getElem h]
    exact List.getLast?_concat
  · rw [if_neg (by rw [List.length_take]; omega), List.getElem?_eq_none (by omega)]

/-- The rows that are merged from what a scan gives make up the page of all that there are. -/
lemma answer_of_upTo {merged : List SortKey} {rows : List OutputRecord} (page : Page)
    (committedSlot : Option Slot)
    (h : Store.upTo (pageLimit page) merged =
      Store.upTo (pageLimit page) (rows.map (·.sortKey))) :
    (match pageLimit page with
      | none => ⟨merged.map (·.outputId), committedSlot.getD 0, page.size, none⟩
      | some limit =>
        let found := merged.take limit
        let next := if found.length = limit then found.getLast? else none
        ⟨(found.take (limit - 1)).map (·.outputId), committedSlot.getD 0, page.size,
          next.map (·.cursor)⟩) = page.answer rows committedSlot := by
  unfold Page.answer
  by_cases hsize : page.size = 0
  · have hlimit : pageLimit page = none := if_pos hsize
    rw [hlimit] at h ⊢
    obtain rfl : merged = rows.map (·.sortKey) := h
    simp only [hsize, if_true, List.map_map]
    rfl
  · -- one row more than the page is fetched, and it is the one that the next page begins with
    have hlimit : pageLimit page = some (page.size.toNat + 1) := if_neg hsize
    rw [hlimit] at h ⊢
    have htake : merged.take (page.size.toNat + 1) =
        (rows.map (·.sortKey)).take (page.size.toNat + 1) := h
    simp only [hsize, if_false, htake, getLast?_take_succ, List.getElem?_map, Option.map_map,
      Nat.add_sub_cancel, List.take_take, Nat.min_eq_left (Nat.le_succ _)]
    rw [← List.map_take, List.map_map]
    rfl

lemma run_querySources (hexact : index.store.Exact) (hstart : page.BeginsAt start)
    (sources : List ScanSource) :
    (querySources sources page).run.run index =
      if index.fault = .lookups then (.error (.storage (.injected index.fault)), index)
      else
        (.ok (page.answer
          (index.store.fullScan (sources.map fun source => (source.kind, source.finds)) start)
          (index.store.status.map (·.committedSlot))), index) := by
  have hlift : (liftM (pageStart page) : IndexM (Option SortKey)).run.run index =
      (.ok start, index) := by
    rw [pageStart_eq_ok hstart]
    rfl
  have hscan := run_scan sources start (pageLimit page) index
  obtain ⟨rows, hrows, hmerged⟩ := hexact.exists_scan sources start (pageLimit page)
  rw [querySources, run_bind_of_ok hlift]
  split at hscan
  · rw [run_bind_of_error hscan, if_pos ‹_›]
  · rw [hrows] at hscan
    rw [run_bind_of_ok hscan, if_neg ‹_›, ← answer_of_upTo page _ hmerged]
    cases pageLimit page <;> rfl

/-- The condition on the live rows of a chain or foundry. -/
def hasIdentity (key : Bytes) (record : OutputRecord) : Bool :=
  record.about.isLive && record.identityKey? == some key

lemma finds_identitySource (kind : OutputKind) (key : Bytes) :
    (identitySource kind key).finds = hasIdentity key :=
  funext fun record => Bool.and_comm _ record.about.isLive

/-- **Queries are exact.**  In a reachable store, a query answers the page of the rows that the
filter admits among all rows, in query order, and with the place of the row beyond it; and looking
up an identity answers the first of the live rows that have it.  Nothing is changed.  Only look-ups
that are made to fail keep them from it. -/
theorem run_query_eq_fullScan (index : Index)
    (hreachable : Store.Reachable Set.univ index.store) :
    let committedSlot := index.store.status.map (·.committedSlot)
    (∀ (filter : Filter) (page : Page) (start : Option SortKey), page.BeginsAt start →
      (query filter page).run.run index =
        if index.fault = .lookups then (.error (.storage (.injected index.fault)), index)
        else
          (.ok (page.answer
            (index.store.fullScan (filter.sources.map fun source => (source.kind, source.accepts))
              start) committedSlot), index)) ∧
      ∀ (kind : OutputKind) (key : Bytes),
        (findByIdentity kind key).run.run index =
          if index.fault = .lookups then (.error (.storage (.injected index.fault)), index)
          else
            (.ok {
              outputIds := ((index.store.fullScan [(kind, hasIdentity key)] none).head?.map
                (·.outputId)).toList
              committedSlot := committedSlot.getD 0
              pageSize := 0
              nextCursor := none }, index) := by
  intro committedSlot
  have hexact := hreachable.exact
  constructor
  · intro filter page start hstart
    -- the driver reaches all that the filter admits, so it takes nothing from the condition
    have hconditions : (filter.sources.map fun source => (source.kind, source.finds)) =
        filter.sources.map fun source => (source.kind, source.accepts) := by
      refine List.map_congr_left fun source hsource => ?_
      rw [(Filter.covers_of_mem_sources hsource).finds_eq]
    rw [← hconditions]
    exact run_querySources hexact hstart filter.sources
  · intro kind key
    -- a look-up is a query for all live rows of the identity, of which it gives the first
    have hbegins : (⟨0, none⟩ : Page).BeginsAt none := rfl
    have hsources := run_querySources hexact hbegins [identitySource kind key]
    have hkind : (identitySource kind key).kind = kind := rfl
    rw [List.map_singleton, finds_identitySource, hkind] at hsources
    split at hsources
    · rw [findByIdentity, run_bind_of_error hsources, if_pos ‹_›]
    · rw [findByIdentity, run_bind_of_ok hsources, if_neg ‹_›]
      cases index.store.fullScan [(kind, hasIdentity key)] none <;> rfl

/-! ## A sample -/

/-- An account of alice. -/
def sampleController : AccountId := ⟨.replicate 32 7⟩

/-- The identifier of an output of a slot, all of whose transactions have the same digest. -/
def sampleMixedId (slot : Slot) (index : UInt16) : OutputId :=
  .ofParts (.replicate 32 0xcd) slot index

/-- The account, its foundry, an NFT and a basic output that it owns, and a basic output of alice,
in query order. -/
def sampleMixed : List LedgerOutput :=
  [⟨sampleMixedId 3 0, Sample.account sampleController Sample.Holder.alice.address, 3⟩,
   ⟨sampleMixedId 4 0, Sample.nft ⟨.replicate 32 8⟩ (.account sampleController), 4⟩,
   ⟨sampleMixedId 5 0, Sample.foundry sampleController 1, 5⟩,
   ⟨sampleMixedId 5 1, Sample.basic Sample.Holder.alice.address 100, 5⟩,
   ⟨sampleMixedId 6 0, Sample.basic (.account sampleController) 100, 6⟩]

/-- The records of the outputs. -/
def sampleMixedRows : List OutputRecord :=
  sampleMixed.filterMap fun output => (OutputRecord.ofLedgerOutput output true).toOption

/-- The index after an import of these outputs. -/
def sampleMixedIndex : Index :=
  (((Import.start (.attach .empty .none)).after (.addAll sampleMixed)).finalize 6
    Sample.protocolVersion Sample.networkName).run.run (.attach .empty .none) |>.2

lemma reachable_sampleMixedIndex : Store.Reachable Set.univ sampleMixedIndex.store := by
  have hload : (([.addAll sampleMixed].foldl Import.after (.start (.attach .empty .none))).finalize
      6 Sample.protocolVersion Sample.networkName).run.run (.attach .empty .none) =
        (.ok (Sample.status 6), sampleMixedIndex) := by rfl
  exact .load (fun _ _ _ _ => trivial) hload .empty

/-- What the account unlocks comes in two pages, merged from the scans of three kinds in the order
of slots, and the account itself is found by its identity. -/
theorem run_query_sampleMixed :
    let filter : Filter := .combined { unlockableBy := some (.account sampleController) }
    let next : SortKey := ⟨6, sampleMixedId 6 0⟩
    Store.Reachable Set.univ sampleMixedIndex.store ∧
      (query filter ⟨2, none⟩).run.run sampleMixedIndex =
        (.ok ⟨[sampleMixedId 4 0, sampleMixedId 5 0], 6, 2, some next.cursor⟩,
          sampleMixedIndex) ∧
      (query filter ⟨2, some next.cursor⟩).run.run sampleMixedIndex =
        (.ok ⟨[next.outputId], 6, 2, none⟩, sampleMixedIndex) ∧
      (findByIdentity .account sampleController.toList).run.run sampleMixedIndex =
        (.ok ⟨[sampleMixedId 3 0], 6, 0, none⟩, sampleMixedIndex) := by
  intro filter next
  obtain ⟨hquery, hfind⟩ := run_query_eq_fullScan sampleMixedIndex reachable_sampleMixedIndex
  have hbegins : (⟨2, some next.cursor⟩ : Page).BeginsAt (some next) :=
    ⟨by decide, next, SortKey.ofCursor_cursor next, rfl⟩
  have hfault : sampleMixedIndex.fault ≠ .lookups := by decide
  have hall : sampleMixedIndex.store.fullScan
      (filter.sources.map fun source => (source.kind, source.accepts)) none =
        (sampleMixedRows.drop 1).eraseIdx 2 :=
    Store.fullScan_eq_of_perm (by decide +kernel) (by decide +kernel)
  have hrest : sampleMixedIndex.store.fullScan
      (filter.sources.map fun source => (source.kind, source.accepts)) (some next) =
        sampleMixedRows.drop 4 :=
    Store.fullScan_eq_of_perm (by decide +kernel) (by decide +kernel)
  have hidentity : sampleMixedIndex.store.fullScan
      [(.account, hasIdentity sampleController.toList)] none = sampleMixedRows.take 1 :=
    Store.fullScan_eq_of_perm (by decide +kernel) (by decide +kernel)
  refine ⟨reachable_sampleMixedIndex, ?_, ?_, ?_⟩
  · rw [hquery filter ⟨2, none⟩ none rfl, if_neg hfault, hall]
    refine congrArg (fun answer => (Except.ok answer, sampleMixedIndex)) ?_
    decide +kernel
  · rw [hquery filter ⟨2, some next.cursor⟩ (some next) hbegins, if_neg hfault, hrest]
    refine congrArg (fun answer => (Except.ok answer, sampleMixedIndex)) ?_
    decide +kernel
  · rw [hfind, if_neg hfault, hidentity]
    refine congrArg (fun answer => (Except.ok answer, sampleMixedIndex)) ?_
    decide +kernel

end Index

end OutputIndex
