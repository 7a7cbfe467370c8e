import Mathlib.Data.List.Pairwise
import Mathlib.Data.List.Perm.Basic
import OutputIndex.Proofs.Query.Driver
import OutputIndex.Proofs.Query.Order
import OutputIndex.Proofs.Store.Exact

/-!
# Scans find what is there

`Store.fullScan` looks at every row of some kinds and sorts those that satisfy a condition.  A scan
looks at the candidates that a driver finds, cuts what each source gives and leaves it to the caller
to merge the rest.  In an exact store both come to the same (`Store.Exact.exists_scan`), where the
condition of a source is that its driver reaches the record and that it accepts the record
(`ScanSource.finds`).
-/

namespace OutputIndex

open TableKey (before)

/-- Whether a record is reached by the driver of a source and accepted by the source. -/
def ScanSource.finds (source : ScanSource) (record : OutputRecord) : Bool :=
  source.driver.reaches record && source.accepts record

lemma ScanSource.Covers.finds_eq {source : ScanSource} (h : source.Covers) :
    source.finds = source.accepts := by
  funext record
  rw [finds, Bool.and_eq_right_iff_imp]
  exact h record

namespace Store

variable {store : Store} {source : ScanSource} {sources : List ScanSource}
  {start : Option SortKey} {place : SortKey} {key : Bytes} {table : KeySet LookupKey}

/-! ## Full scans -/

/-- The first elements up to a limit, if there is one. -/
def upTo {α : Type} (limit : Option Nat) (list : List α) : List α :=
  match limit with
  | none => list
  | some count => list.take count

/-- The rows of some kinds that satisfy a condition for each kind, from a place on, in query order.
Every row of these kinds is looked at. -/
def fullScan (store : Store) (conditions : List (OutputKind × (OutputRecord → Bool)))
    (start : Option SortKey) : List OutputRecord :=
  let rows := conditions.flatMap fun condition => (store.rowsOf condition.1).filter condition.2
  (rows.filter fun record => start.all fun first => SortKey.le first record.sortKey).mergeSort
    fun a b => SortKey.le a.sortKey b.sortKey

/-- Records in the order of their places are the sorted form of the same records in any order. -/
lemma mergeSort_eq_of_perm_of_pairwise {rows sorted : List OutputRecord}
    (hperm : rows.Perm sorted)
    (hsorted : sorted.Pairwise fun a b => before a.sortKey b.sortKey = true) :
    (rows.mergeSort fun a b => SortKey.le a.sortKey b.sortKey) = sorted := by
  have hsame := (List.mergeSort_perm rows fun a b => SortKey.le a.sortKey b.sortKey).trans hperm
  have hmerged := List.pairwise_mergeSort
    (fun a b c : OutputRecord => SortKey.le_trans a.sortKey b.sortKey c.sortKey)
    (fun a b => SortKey.le_total a.sortKey b.sortKey) rows
  have hdistinct : sorted.Pairwise fun a b => a.sortKey ≠ b.sortKey := by
    refine hsorted.imp fun {a b} hbefore heq => ?_
    rw [heq, TableKey.before_irrefl] at hbefore
    cases hbefore
  have : Std.Symm fun a b : OutputRecord => a.sortKey ≠ b.sortKey := ⟨fun _ _ => Ne.symm⟩
  refine hsame.eq_of_pairwise (fun a b ha hb hab hba => ?_) hmerged
    (hsorted.imp SortKey.le_of_before)
  by_contra hne
  exact hdistinct.forall (hsame.mem_iff.1 ha) hb hne (SortKey.le_antisymm hab hba)

lemma fullScan_eq_of_perm {conditions : List (OutputKind × (OutputRecord → Bool))}
    {start : Option SortKey} {rows : List OutputRecord}
    (hperm : ((conditions.flatMap fun condition =>
      (store.rowsOf condition.1).filter condition.2).filter fun record =>
        start.all fun first => SortKey.le first record.sortKey).Perm rows)
    (hrows : rows.Pairwise fun a b => before a.sortKey b.sortKey = true) :
    store.fullScan conditions start = rows := mergeSort_eq_of_perm_of_pairwise hperm hrows

lemma placesFrom_eq_filter (start : Option SortKey) (places : List SortKey) :
    placesFrom start places =
      places.filter fun place => start.all fun first => SortKey.le first place := by
  cases start with
  | none => exact (List.filter_true places).symm
  | some first => rfl

/-- The places of the rows that a source finds, from a place on. -/
def foundPlaces (store : Store) (start : Option SortKey) (source : ScanSource) : List SortKey :=
  placesFrom start (((store.rowsOf source.kind).filter source.finds).map (·.sortKey))

lemma mem_foundPlaces_iff :
    place ∈ store.foundPlaces start source ↔
      (∃ record ∈ store.rowsOf source.kind, source.finds record = true ∧
        record.sortKey = place) ∧ (start.all fun first => SortKey.le first place) = true := by
  rw [foundPlaces, placesFrom_eq_filter, List.mem_filter, List.mem_map]
  simp only [List.mem_filter, and_assoc]

/-- What a full scan finds lies at the places that the sources find, sorted together. -/
lemma map_sortKey_fullScan (store : Store) (sources : List ScanSource) (start : Option SortKey) :
    (store.fullScan (sources.map fun source => (source.kind, source.finds)) start).map
        (·.sortKey) =
      (sources.flatMap (store.foundPlaces start)).mergeSort SortKey.le := by
  rw [fullScan, List.map_mergeSort (f := OutputRecord.sortKey) (s := SortKey.le) fun _ _ _ _ => rfl]
  congr 1
  induction sources with
  | nil => rfl
  | cons source rest ih =>
    simp only [List.map_cons, List.flatMap_cons, List.filter_append, List.map_append] at ih ⊢
    rw [ih, foundPlaces, placesFrom_eq_filter, List.filter_map]
    rfl

/-! ## The rows of a kind -/

/-- No two rows of a kind have the same place. -/
lemma Keyed.nodup_foundPlaces (h : store.Keyed) (start : Option SortKey) (source : ScanSource) :
    (store.foundPlaces start source).Nodup := by
  have hplaces : ((store.rowsOf source.kind).map (·.sortKey)).Nodup := by
    refine List.pairwise_map.2 ((h.sorted_rowsOf source.kind).imp ?_)
    intro r s hbefore heq
    have hid : r.outputId = s.outputId := congrArg SortKey.outputId heq
    rw [hid, TableKey.before_irrefl] at hbefore
    cases hbefore
  rw [foundPlaces, placesFrom_eq_filter]
  exact (hplaces.sublist (List.filter_sublist.map _)).filter _

/-! ## Candidates -/

lemma mem_placesOf_iff : place ∈ placesOf key table ↔ (key, place) ∈ table.keys := by
  simp only [placesOf, List.mem_map, List.mem_filter, beq_iff_eq]
  constructor
  · rintro ⟨⟨k, p⟩, ⟨hmem, rfl⟩, rfl⟩
    exact hmem
  · exact fun hmem => ⟨(key, place), ⟨hmem, rfl⟩, rfl⟩

lemma sorted_placesOf (key : Bytes) (table : KeySet LookupKey) :
    (placesOf key table).Pairwise fun a b => before a b = true := by
  refine List.pairwise_map.2 ((table.sorted_keys.filter _).imp_of_mem ?_)
  intro a b ha hb hbefore
  have hkey : a.1 = b.1 := by
    rw [beq_iff_eq.1 (List.mem_filter.1 ha).2, beq_iff_eq.1 (List.mem_filter.1 hb).2]
  rcases TableKey.pairBefore_iff.1 hbefore with hlt | ⟨-, hplace⟩
  · rw [hkey, TableKey.before_irrefl] at hlt
    cases hlt
  · exact hplace

/-- In a table that holds the places of the rows of a kind by some keys, those under one key are the
places of the rows that have it. -/
lemma Lists.exists_placesOf {kind : OutputKind} {entries : Option (KeySet LookupKey)}
    {Has : OutputRecord → Bytes → Prop} (hkeyed : store.Keyed)
    (h : Lists entries fun place => ∃ record ∈ store.rowSet,
      record.kind = kind ∧ ∃ key, Has record key ∧ place = (key, record.sortKey)) (key : Bytes) :
    ∃ set, entries = some set ∧ ∀ place, place ∈ placesOf key set ↔
      ∃ record ∈ store.rowsOf kind, Has record key ∧ record.sortKey = place := by
  obtain ⟨set, hset, hkeys⟩ := h
  refine ⟨set, hset, fun place => ?_⟩
  rw [mem_placesOf_iff, hkeys]
  constructor
  · rintro ⟨record, hrecord, hkind, _, hkey, heq⟩
    cases heq
    exact ⟨record, hkeyed.mem_rowsOf_iff.2 ⟨hrecord, hkind⟩, hkey, rfl⟩
  · rintro ⟨record, hrecord, hkey, rfl⟩
    obtain ⟨hmem, hkind⟩ := hkeyed.mem_rowsOf_iff.1 hrecord
    exact ⟨record, hmem, hkind, key, hkey, rfl⟩

/-- The candidates of a source are the places of the rows that its driver reaches, in order. -/
lemma Exact.exists_candidates (h : store.Exact) (source : ScanSource) :
    ∃ places, store.candidates source = .ok places ∧
      (places.Pairwise fun a b => before a b = true) ∧
      ∀ place, place ∈ places ↔ ∃ record ∈ store.rowsOf source.kind,
        source.driver.reaches record = true ∧ record.sortKey = place := by
  obtain ⟨kind, driver, accepts⟩ := source
  cases driver with
  | all =>
    obtain ⟨set, hset, hkeys⟩ := h.finds.bySlot kind
    refine ⟨set.keys, by rw [candidates, hset]; rfl, set.sorted_keys, fun place => ?_⟩
    rw [hkeys]
    constructor
    · rintro ⟨record, hrecord, hkind, rfl⟩
      exact ⟨record, h.keyed.mem_rowsOf_iff.2 ⟨hrecord, hkind⟩, rfl, rfl⟩
    · rintro ⟨record, hrecord, -, rfl⟩
      obtain ⟨hmem, hkind⟩ := h.keyed.mem_rowsOf_iff.1 hrecord
      exact ⟨record, hmem, hkind, rfl⟩
  | address key =>
    obtain ⟨set, hset, hplaces⟩ := (h.finds.byAddress kind).exists_placesOf h.keyed key
    refine ⟨placesOf key set, by rw [candidates, hset]; rfl, sorted_placesOf key set, ?_⟩
    intro place
    simp only [hplaces, ScanDriver.reaches, List.contains_iff_mem]
  | identity key =>
    obtain ⟨set, hset, hplaces⟩ := (h.finds.byIdentity kind).exists_placesOf h.keyed key
    refine ⟨placesOf key set, by rw [candidates, hset]; rfl, sorted_placesOf key set, ?_⟩
    intro place
    simp only [hplaces, ScanDriver.reaches, beq_iff_eq]

/-! ## Scans -/

lemma Keyed.admits_sortKey (h : store.Keyed) {record : OutputRecord}
    (hrecord : record ∈ store.rowsOf source.kind) :
    store.admits source record.sortKey = source.accepts record := by
  obtain ⟨id, hrow⟩ := Store.mem_rowsOf_iff.1 hrecord
  obtain ⟨-, rfl⟩ := h source.kind id record hrow
  have hplace : store.row? source.kind record.sortKey.outputId = some record := hrow
  rw [admits, hplace, Option.any_some]

/-- A source gives the places of the rows that it finds, in query order and up to the limit. -/
lemma Exact.scanSource_eq (h : store.Exact) (start : Option SortKey) (limit : Option Nat)
    (source : ScanSource) :
    store.scanSource start limit source =
      .ok (upTo limit ((store.foundPlaces start source).mergeSort SortKey.le)) := by
  obtain ⟨places, hplaces, hsorted, hmem⟩ := h.exists_candidates source
  have hrows : (placesFrom start places).filter (store.admits source) =
      (store.foundPlaces start source).mergeSort SortKey.le := by
    rw [placesFrom_eq_filter]
    have hsorted' := (hsorted.filter fun place =>
      start.all fun first => SortKey.le first place).filter (store.admits source)
    refine SortKey.InOrder.eq_mergeSort (hsorted'.imp SortKey.le_of_before) ?_
    -- neither list has a place twice, so it is enough that they have the same places
    refine (List.perm_ext_iff_of_nodup ?_ (h.keyed.nodup_foundPlaces start source)).2 ?_
    · refine hsorted'.imp ?_
      intro a b hbefore heq
      rw [heq, TableKey.before_irrefl] at hbefore
      cases hbefore
    · intro place
      rw [List.mem_filter, List.mem_filter, hmem, mem_foundPlaces_iff]
      constructor
      · rintro ⟨⟨⟨record, hrecord, hreaches, rfl⟩, hfrom⟩, hadmits⟩
        rw [h.keyed.admits_sortKey hrecord] at hadmits
        have hfinds : source.finds record = true := by
          rw [ScanSource.finds, hreaches, hadmits, Bool.true_and]
        exact ⟨⟨record, hrecord, hfinds, rfl⟩, hfrom⟩
      · rintro ⟨⟨record, hrecord, hfinds, rfl⟩, hfrom⟩
        rw [ScanSource.finds, Bool.and_eq_true] at hfinds
        have hadmits : store.admits source record.sortKey = true := by
          rw [h.keyed.admits_sortKey hrecord]
          exact hfinds.2
        exact ⟨⟨⟨record, hrecord, hfinds.1, rfl⟩, hfrom⟩, hadmits⟩
  rw [scanSource, hplaces, ← hrows]
  split
  · rename_i hlimit
    rw [hlimit]
    rfl
  · cases limit <;> rfl

lemma upTo_mergeAll (limit : Option Nat) (rows : List (List SortKey)) :
    upTo limit (SortKey.mergeAll (rows.map (upTo limit))) =
      upTo limit (SortKey.mergeAll rows) := by
  cases limit with
  | none => exact congrArg SortKey.mergeAll (List.map_id rows)
  | some count => exact SortKey.take_mergeAll count rows

/-- **A scan of an exact store finds what a full scan finds**, up to the limit, once the rows of its
sources are merged. -/
theorem Exact.exists_scan (h : store.Exact) (sources : List ScanSource)
    (start : Option SortKey) (limit : Option Nat) :
    ∃ rows, store.scan sources start limit =
        .ok ⟨rows, store.status.map (·.committedSlot)⟩ ∧
      upTo limit (SortKey.mergeAll rows) =
        upTo limit ((store.fullScan (sources.map fun source => (source.kind, source.finds))
          start).map (·.sortKey)) := by
  let found := fun source => (store.foundPlaces start source).mergeSort SortKey.le
  have hsource : store.scanSource start limit = fun source => pure (upTo limit (found source)) := by
    funext source
    exact h.scanSource_eq start limit source
  have hsorted : ∀ row ∈ sources.map found, SortKey.InOrder row := by
    intro row hrow
    obtain ⟨source, -, rfl⟩ := List.mem_map.1 hrow
    exact List.pairwise_mergeSort SortKey.le_trans SortKey.le_total _
  have hperm : (sources.map found).flatten.Perm (sources.flatMap (store.foundPlaces start)) := by
    rw [← List.flatMap_def]
    exact List.Perm.flatMap_left _ fun source _ => List.mergeSort_perm _ _
  refine ⟨(sources.map found).map (upTo limit), ?_, ?_⟩
  · rw [scan, hsource, List.mapM_pure, List.map_map]
    rfl
  · -- cutting each list before the merge changes nothing up to the limit
    rw [upTo_mergeAll, SortKey.mergeAll_eq_mergeSort hsorted, map_sortKey_fullScan,
      SortKey.mergeSort_eq_of_perm hperm]

end Store

end OutputIndex
