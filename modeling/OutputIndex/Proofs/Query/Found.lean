import Mathlib.Data.List.Nodup
import OutputIndex.Proofs.Index.References
import OutputIndex.Proofs.Query.Answer

/-!
# What a filter finds

A filter is made of scans of different kinds, and each scan accepts live records of its own kind
only.  So the rows of a store that a filter admits (`Filter.matching`) are the rows that its scans
find, and a query lists them in query order (`Filter.run_query`, `Filter.mem_found_iff`).  As long
as no output is stored under two kinds (`Store.Unmixed`), their places increase strictly
(`Filter.sorted_found`): the scans of different kinds never find the same place.

Any answer, to a filter or to a look-up by identity, lists live rows only
(`Index.exists_live_of_mem_query`, `Index.exists_live_of_mem_findByIdentity`).
-/

namespace OutputIndex

open TableKey (before)

/-! ## The scans of a filter -/

/-- A scan accepts live records of its own kind only. -/
def ScanSource.Proper (source : ScanSource) : Prop :=
  ∀ record, source.accepts record = true → record.kind = source.kind ∧ record.about.isLive = true

/-- An option for a kind gives a scan of that kind at most. -/
lemma map_kind_toList_sublist {α : Type} (part : Option α) (source : α → ScanSource)
    {kind : OutputKind} (h : ∀ filter, (source filter).kind = kind) :
    ((part.toList.map source).map (·.kind)).Sublist [kind] := by
  cases part with
  | none => exact List.nil_sublist _
  | some filter => simp [h filter]

namespace Filter

variable {filter : Filter} {store : Store} {start : Option SortKey} {record : OutputRecord}

lemma proper_sources (filter : Filter) : ∀ source ∈ filter.sources, source.Proper := by
  -- a scan refuses records of other kinds, and the first thing it asks of its own is to be live
  refine filter.forall_sources ?_ ?_ ?_ ?_ ?_ ?_ <;> intro part record haccepts <;> cases record <;>
    simp only [BasicFilter.source, BasicFilter.admits, AccountFilter.source, AccountFilter.admits,
      AnchorFilter.source, AnchorFilter.admits, NftFilter.source, NftFilter.admits,
      FoundryFilter.source, FoundryFilter.admits, DelegationFilter.source,
      DelegationFilter.admits, Bool.and_eq_true, and_assoc, Bool.false_eq_true] at haccepts <;>
    exact ⟨rfl, haccepts.1⟩

/-- No two scans of a filter are of the same kind. -/
lemma nodup_map_kind (filter : Filter) : (filter.sources.map (·.kind)).Nodup := by
  cases filter with
  | combined filter =>
    have hsublist : ((Filter.combined filter).sources.map (·.kind)).Sublist
        [.basic, .account, .anchor, .foundry, .nft, .delegation] := by
      simp only [sources, CombinedFilter.sources, List.map_cons, List.map_append]
      have haccount := map_kind_toList_sublist filter.account AccountFilter.source fun _ => rfl
      have hanchor := map_kind_toList_sublist filter.anchor AnchorFilter.source fun _ => rfl
      have hfoundry := map_kind_toList_sublist filter.foundry FoundryFilter.source fun _ => rfl
      have hnft := map_kind_toList_sublist filter.nft NftFilter.source fun _ => rfl
      have hdelegation :=
        map_kind_toList_sublist filter.delegation DelegationFilter.source fun _ => rfl
      have happend := haccount.append hanchor |>.append hfoundry |>.append hnft
      exact (happend.append hdelegation).cons_cons _
    exact hsublist.nodup (by decide)
  | _ => exact List.pairwise_singleton _ _

/-! ## Matching rows -/

/-- Whether a filter admits a record. -/
def admits (filter : Filter) (record : OutputRecord) : Bool :=
  filter.sources.any fun source => source.accepts record

lemma isLive_of_admits (h : filter.admits record = true) : record.about.isLive = true := by
  obtain ⟨source, hsource, haccepts⟩ := List.any_eq_true.1 h
  exact (filter.proper_sources source hsource record haccepts).2

/-- The rows of a store that a filter admits. -/
def matching (filter : Filter) (store : Store) : Set OutputRecord :=
  {record ∈ store.rowSet | filter.admits record = true}

/-- The rows that a filter admits, from a place on, in query order. -/
def found (filter : Filter) (store : Store) (start : Option SortKey) : List OutputRecord :=
  store.fullScan (filter.sources.map fun source => (source.kind, source.finds)) start

end Filter

namespace Store

variable {store : Store} {sources : List ScanSource} {start : Option SortKey}
  {record : OutputRecord}

lemma mem_fullScan_iff :
    record ∈ store.fullScan (sources.map fun source => (source.kind, source.finds)) start ↔
      (∃ source ∈ sources, record ∈ store.rowsOf source.kind ∧ source.finds record = true) ∧
        (start.all fun first => SortKey.le first record.sortKey) = true := by
  simp only [fullScan, List.mem_mergeSort, List.mem_filter, List.mem_flatMap, List.mem_map]
  refine and_congr_left fun _ => ?_
  constructor
  · rintro ⟨_, ⟨source, hsource, rfl⟩, hrow, hfinds⟩
    exact ⟨source, hsource, hrow, hfinds⟩
  · rintro ⟨source, hsource, hrow, hfinds⟩
    exact ⟨_, ⟨source, hsource, rfl⟩, hrow, hfinds⟩

/-- No output identifier is stored under two kinds. -/
def Unmixed (store : Store) : Prop :=
  ∀ id kind kind', (store.row? kind id).isSome = true → (store.row? kind' id).isSome = true →
    kind = kind'

lemma Unmixed.eq_of_outputId_eq (h : store.Unmixed) (hkeyed : store.Keyed) {r s : OutputRecord}
    (hr : r ∈ store.rowSet) (hs : s ∈ store.rowSet) (hid : r.outputId = s.outputId) : r = s := by
  have hkind : r.kind = s.kind := by
    refine h r.outputId r.kind s.kind ?_ ?_
    · simp [hkeyed.mem_rowSet_iff.1 hr]
    · simp [hid, hkeyed.mem_rowSet_iff.1 hs]
  exact hkeyed.eq_of_mem_rowSet hr hs hkind hid

/-- Where every identifier stands for one output, no output is stored under two kinds. -/
lemma Reachable.unmixed {known : Set LedgerOutput} (h : Reachable known store)
    (hsame : SameOutputs known) : store.Unmixed := by
  have hlinked := h.linked hsame
  intro id kind kind' hrow hrow'
  obtain ⟨output, houtput, rfl, rfl⟩ := hlinked.shelved kind id hrow
  obtain ⟨other, hother, rfl, hid⟩ := hlinked.shelved kind' _ hrow'
  exact hsame.kind_eq houtput hother hid.symm

/-- Scans of different kinds find different places. -/
lemma Unmixed.nodup_flatMap_foundPlaces (h : store.Unmixed) (hkeyed : store.Keyed)
    (hkinds : (sources.map (·.kind)).Nodup) (start : Option SortKey) :
    (sources.flatMap (store.foundPlaces start)).Nodup := by
  refine List.nodup_flatMap.2 ⟨fun source _ => hkeyed.nodup_foundPlaces start source, ?_⟩
  refine (List.pairwise_map.1 hkinds).imp ?_
  intro source other hne place hplace hplace'
  obtain ⟨⟨r, hr, -, rfl⟩, -⟩ := mem_foundPlaces_iff.1 hplace
  obtain ⟨⟨s, hs, -, hsame⟩, -⟩ := mem_foundPlaces_iff.1 hplace'
  rw [hkeyed.mem_rowsOf_iff] at hr hs
  have hid : s.outputId = r.outputId := congrArg SortKey.outputId hsame
  have heq : s = r := h.eq_of_outputId_eq hkeyed hs.1 hr.1 hid
  exact hne (by rw [← hr.2, ← hs.2, heq])

end Store

lemma SortKey.InOrder.pairwise_before {places : List SortKey} (h : SortKey.InOrder places)
    (hnodup : places.Nodup) : places.Pairwise fun a b => before a b = true := by
  refine (h.and hnodup).imp ?_
  rintro a b ⟨hle, hne⟩
  rcases TableKey.before_or_eq (SortKey.le_iff.1 hle) with hlt | heq
  · exact hlt
  · exact absurd heq hne

namespace Filter

variable {store : Store} {start : Option SortKey} {index : Index} {page : Page}

lemma mem_found_iff (hkeyed : store.Keyed) (filter : Filter) (start : Option SortKey)
    (record : OutputRecord) :
    record ∈ filter.found store start ↔
      record ∈ filter.matching store ∧
        (start.all fun first => SortKey.le first record.sortKey) = true := by
  rw [found, Store.mem_fullScan_iff]
  refine and_congr_left fun _ => ?_
  constructor
  · rintro ⟨source, hsource, hrow, hfinds⟩
    rw [(covers_of_mem_sources hsource).finds_eq] at hfinds
    exact ⟨(hkeyed.mem_rowsOf_iff.1 hrow).1, List.any_eq_true.2 ⟨source, hsource, hfinds⟩⟩
  · rintro ⟨hrow, hadmits⟩
    obtain ⟨source, hsource, haccepts⟩ := List.any_eq_true.1 hadmits
    have hkind := (filter.proper_sources source hsource record haccepts).1
    refine ⟨source, hsource, hkeyed.mem_rowsOf_iff.2 ⟨hrow, hkind⟩, ?_⟩
    rw [(covers_of_mem_sources hsource).finds_eq]
    exact haccepts

/-- The places of what a filter finds increase strictly. -/
lemma sorted_found (hkeyed : store.Keyed) (hunmixed : store.Unmixed) (filter : Filter)
    (start : Option SortKey) :
    ((filter.found store start).map (·.sortKey)).Pairwise fun a b => before a b = true := by
  have hnodup := hunmixed.nodup_flatMap_foundPlaces hkeyed filter.nodup_map_kind start
  rw [found, Store.map_sortKey_fullScan]
  refine SortKey.InOrder.pairwise_before ?_ ((List.mergeSort_perm _ _).nodup_iff.2 hnodup)
  exact List.pairwise_mergeSort SortKey.le_trans SortKey.le_total _

/-- A query gives the page of what the filter finds. -/
lemma run_query (filter : Filter) (hexact : index.store.Exact) (hfault : index.fault ≠ .lookups)
    (hstart : page.BeginsAt start) :
    (Index.query filter page).run.run index =
      (.ok (page.answer (filter.found index.store start)
        (index.store.status.map (·.committedSlot))), index) := by
  have hquery := Index.run_querySources hexact hstart filter.sources
  rw [if_neg hfault] at hquery
  exact hquery

/-- A query that is not cut into pages returns every row that the filter admits. -/
lemma exists_run_query_of_admits {filter : Filter} {kind : OutputKind} {id : OutputId}
    {record : OutputRecord} (hexact : index.store.Exact) (hfault : index.fault ≠ .lookups)
    (hrow : index.store.row? kind id = some record) (hadmits : filter.admits record = true) :
    ∃ answer, (Index.query filter ⟨0, none⟩).run.run index = (.ok answer, index) ∧
      id ∈ answer.outputIds := by
  have hfound : record ∈ filter.found index.store none :=
    (mem_found_iff hexact.keyed _ _ _).2 ⟨⟨Store.mem_allRows_iff.2 ⟨_, _, hrow⟩, hadmits⟩, rfl⟩
  refine ⟨_, run_query filter hexact hfault (rfl : (⟨0, none⟩ : Page).BeginsAt none), ?_⟩
  exact List.mem_map.2 ⟨record, hfound, (hexact.keyed _ _ _ hrow).2⟩

end Filter

/-! ## Only live rows are listed -/

namespace Index

variable {index next : Index} {page : Page} {sources : List ScanSource} {answer : QueryResult}
  {id : OutputId}

lemma beginsAt_of_pageStart_eq_ok {start : Option SortKey} (h : pageStart page = .ok start) :
    page.BeginsAt start := by
  unfold pageStart at h
  unfold Page.BeginsAt
  cases hcursor : page.cursor with
  | none =>
    rw [hcursor] at h
    exact (Except.ok.inj h).symm
  | some cursor =>
    simp only [hcursor] at h
    split at h
    · cases h
    · rename_i hsize
      split at h
      · rename_i first hfirst
        exact ⟨hsize, first, hfirst, (Except.ok.inj h).symm⟩
      · cases h

/-- What a query on some sources lists are rows that one of the sources finds. -/
lemma exists_of_mem_querySources (hexact : index.store.Exact)
    (h : (querySources sources page).run.run index = (.ok answer, next))
    (hid : id ∈ answer.outputIds) :
    ∃ source ∈ sources, ∃ record ∈ index.store.rowSet, record.kind = source.kind ∧
      source.finds record = true ∧ record.outputId = id := by
  -- a cursor that cannot be read would have been an error
  obtain ⟨start, hstart⟩ : ∃ start, pageStart page = .ok start := by
    cases hstart : pageStart page with
    | ok start => exact ⟨start, rfl⟩
    | error cause =>
      have hlift : (liftM (pageStart page) : IndexM (Option SortKey)).run.run index =
          (.error cause, index) := by
        rw [hstart]
        rfl
      rw [querySources, run_bind_of_error hlift] at h
      cases h
  have hanswer := run_querySources hexact (beginsAt_of_pageStart_eq_ok hstart) sources
  rw [h] at hanswer
  split at hanswer
  · cases hanswer
  · obtain rfl : answer = _ := Except.ok.inj (Prod.mk.inj hanswer).1
    obtain ⟨record, hrecord, rfl⟩ := List.mem_map.1 hid
    have hmem : record ∈ index.store.fullScan
        (sources.map fun source => (source.kind, source.finds)) start := by
      split at hrecord
      · exact hrecord
      · exact List.mem_of_mem_take hrecord
    obtain ⟨⟨source, hsource, hrow, hfinds⟩, -⟩ := Store.mem_fullScan_iff.1 hmem
    obtain ⟨hrow, hkind⟩ := hexact.keyed.mem_rowsOf_iff.1 hrow
    exact ⟨source, hsource, record, hrow, hkind, hfinds, rfl⟩

/-- What a query lists are live rows. -/
lemma exists_live_of_mem_query {filter : Filter} (hexact : index.store.Exact)
    (h : (query filter page).run.run index = (.ok answer, next)) (hid : id ∈ answer.outputIds) :
    ∃ record ∈ index.store.rowSet, record.about.isLive = true ∧ record.outputId = id := by
  obtain ⟨source, hsource, record, hrow, -, hfinds, hrecord⟩ :=
    exists_of_mem_querySources hexact h hid
  rw [(Filter.covers_of_mem_sources hsource).finds_eq] at hfinds
  exact ⟨record, hrow, (filter.proper_sources source hsource record hfinds).2, hrecord⟩

/-- What a look-up by identity lists is a live row. -/
lemma exists_live_of_mem_findByIdentity {kind : OutputKind} {key : Bytes}
    (hexact : index.store.Exact)
    (h : (findByIdentity kind key).run.run index = (.ok answer, next))
    (hid : id ∈ answer.outputIds) :
    ∃ record ∈ index.store.rowSet, record.about.isLive = true ∧ record.outputId = id := by
  rw [findByIdentity] at h
  obtain ⟨whole, middle, hwhole, h⟩ := run_bind_eq_ok_iff.1 h
  obtain rfl : { whole with outputIds := whole.outputIds.take 1 } = answer :=
    Except.ok.inj (Prod.mk.inj h).1
  obtain ⟨source, hsource, record, hrow, -, hfinds, hrecord⟩ :=
    exists_of_mem_querySources hexact hwhole (List.mem_of_mem_take hid)
  obtain rfl := List.mem_singleton.1 hsource
  rw [finds_identitySource, hasIdentity, Bool.and_eq_true] at hfinds
  exact ⟨record, hrow, hfinds.1, hrecord⟩

end Index

end OutputIndex
