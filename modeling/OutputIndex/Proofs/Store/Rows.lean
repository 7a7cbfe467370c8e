import Mathlib.Data.List.Nodup
import OutputIndex.Proofs.Table
import OutputIndex.Store

/-!
# Rows of a store

`Store.row?` is the view through which the rows of a store are seen.  This file says what each
operation on a store does to that view, and that the tables beside the rows and the multi addresses
are out of its sight.

A store is *keyed* when every row lies in the table of its kind under the identifier of its output
(`Store.Keyed`).  The rows of a keyed store are a set of records (`Store.rowSet`), in which no two
records have the same kind and the same identifier.
-/

namespace OutputIndex

/-- The table that a record belongs in, and its key there. -/
def OutputRecord.place (record : OutputRecord) : OutputKind × OutputId :=
  (record.kind, record.outputId)

namespace Store

variable {store : Store} {record : OutputRecord} {kind : OutputKind} {id : OutputId}

/-! ## Looking up rows -/

lemma tables_setTables (store : Store) (kind k : OutputKind) (tables : KindTables) :
    (store.setTables kind tables).tables k = if k = kind then tables else store.tables k :=
  PerKind.get_set store.kinds kind k tables

lemma row?_putRow (store : Store) (record : OutputRecord) (kind : OutputKind) (id : OutputId) :
    (store.putRow record).row? kind id =
      if kind = record.kind ∧ id = record.outputId then some record else store.row? kind id := by
  simp only [row?, putRow, tables_setTables]
  by_cases hkind : kind = record.kind
  · subst hkind
    simp [Table.get?_insert]
  · simp [hkind]

lemma row?_eraseRow (store : Store) (kind k : OutputKind) (id i : OutputId) :
    (store.eraseRow kind id).row? k i =
      if k = kind ∧ i = id then none else store.row? k i := by
  simp only [row?, eraseRow, tables_setTables]
  by_cases hkind : k = kind
  · subst hkind
    simp [Table.get?_erase]
  · simp [hkind]

lemma row?_setTables_of_rows_eq (tables : KindTables)
    (h : tables.rows = (store.tables kind).rows) (k : OutputKind) (i : OutputId) :
    (store.setTables kind tables).row? k i = store.row? k i := by
  simp only [row?, tables_setTables]
  by_cases hkind : k = kind
  · rw [if_pos hkind, h, hkind]
  · rw [if_neg hkind]

@[simp] lemma row?_index (store : Store) (record : OutputRecord) (kind : OutputKind)
    (id : OutputId) : (store.index record).row? kind id = store.row? kind id :=
  row?_setTables_of_rows_eq ((store.tables record.kind).index record) rfl kind id

@[simp] lemma row?_unindex (store : Store) (record : OutputRecord) (kind : OutputKind)
    (id : OutputId) : (store.unindex record).row? kind id = store.row? kind id :=
  row?_setTables_of_rows_eq ((store.tables record.kind).unindex record) rfl kind id

@[simp] lemma row?_dropIndexes (store : Store) (kind : OutputKind) (id : OutputId) :
    store.dropIndexes.row? kind id = store.row? kind id := by
  simp [row?, dropIndexes, tables, KindTables.dropIndexes]

/-- Where there is no row none is taken out. -/
lemma row?_eq_ite_of_none (hnone : store.row? kind id = none) (k : OutputKind) (i : OutputId) :
    store.row? k i = if k = kind ∧ i = id then none else store.row? k i := by
  by_cases hkey : k = kind ∧ i = id
  · rw [if_pos hkey, hkey.1, hkey.2, hnone]
  · rw [if_neg hkey]

lemma tables_empty (kind : OutputKind) : empty.tables kind = .empty :=
  PerKind.get_replicate _ kind

lemma row?_empty (kind : OutputKind) (id : OutputId) : empty.row? kind id = none := by
  rw [row?, tables_empty]
  exact Table.get?_empty id

/-! ## Keyed stores -/

/-- Every row lies in the table of its kind under the identifier of its output. -/
def Keyed (store : Store) : Prop :=
  ∀ kind id record, store.row? kind id = some record → record.kind = kind ∧ record.outputId = id

lemma keyed_empty : empty.Keyed := by
  intro kind id record h
  rw [row?_empty] at h
  exact absurd h (by simp)

lemma Keyed.of_row?_eq {other : Store} (h : store.Keyed)
    (heq : ∀ kind id, other.row? kind id = store.row? kind id) : other.Keyed := by
  intro kind id record hrow
  rw [heq] at hrow
  exact h kind id record hrow

/-- A record may be put where it belongs. -/
lemma Keyed.of_put {other : Store} (h : store.Keyed)
    (hrows : ∀ kind id, other.row? kind id =
      if kind = record.kind ∧ id = record.outputId then some record else store.row? kind id) :
    other.Keyed := by
  intro kind id row hrow
  rw [hrows] at hrow
  split at hrow
  · rename_i hkey
    cases hrow
    exact ⟨hkey.1.symm, hkey.2.symm⟩
  · exact h kind id row hrow

lemma Keyed.of_erase {other : Store} (h : store.Keyed)
    (hrows : ∀ k i, other.row? k i = if k = kind ∧ i = id then none else store.row? k i) :
    other.Keyed := by
  intro k i row hrow
  rw [hrows] at hrow
  split at hrow
  · cases hrow
  · exact h k i row hrow

lemma Keyed.putRow (h : store.Keyed) (record : OutputRecord) : (store.putRow record).Keyed :=
  h.of_put (row?_putRow store record)

lemma Keyed.eraseRow (h : store.Keyed) (kind : OutputKind) (id : OutputId) :
    (store.eraseRow kind id).Keyed :=
  h.of_erase fun k i => row?_eraseRow store kind k id i

/-! ## The set of rows -/

lemma mem_rowsOf_iff : record ∈ store.rowsOf kind ↔ ∃ id, store.row? kind id = some record :=
  Table.mem_values_iff

lemma mem_allRows_iff :
    record ∈ store.allRows ↔ ∃ kind id, store.row? kind id = some record := by
  simp only [allRows, List.mem_flatMap, mem_rowsOf_iff]
  constructor
  · rintro ⟨kind, -, id, h⟩
    exact ⟨kind, id, h⟩
  · rintro ⟨kind, id, h⟩
    exact ⟨kind, by cases kind <;> simp [OutputKind.all], id, h⟩

/-- The rows of a store. -/
def rowSet (store : Store) : Set OutputRecord := {record | record ∈ store.allRows}

lemma mem_rowSet_iff : record ∈ store.rowSet ↔ record ∈ store.allRows := Iff.rfl

lemma Keyed.mem_rowSet_iff (h : store.Keyed) :
    record ∈ store.rowSet ↔ store.row? record.kind record.outputId = some record := by
  rw [Store.mem_rowSet_iff, mem_allRows_iff]
  constructor
  · rintro ⟨kind, id, hrow⟩
    obtain ⟨rfl, rfl⟩ := h kind id record hrow
    exact hrow
  · intro hrow
    exact ⟨record.kind, record.outputId, hrow⟩

lemma Keyed.mem_rowsOf_iff (h : store.Keyed) :
    record ∈ store.rowsOf kind ↔ record ∈ store.rowSet ∧ record.kind = kind := by
  rw [Store.mem_rowsOf_iff, h.mem_rowSet_iff]
  constructor
  · rintro ⟨id, hrow⟩
    obtain ⟨rfl, rfl⟩ := h kind id record hrow
    exact ⟨hrow, rfl⟩
  · rintro ⟨hrow, rfl⟩
    exact ⟨record.outputId, hrow⟩

/-- The rows of a kind come in the order of their identifiers. -/
lemma Keyed.sorted_rowsOf (h : store.Keyed) (kind : OutputKind) :
    (store.rowsOf kind).Pairwise fun r s => TableKey.before r.outputId s.outputId = true := by
  refine List.pairwise_map.2 ((store.tables kind).rows.sorted.imp_of_mem ?_)
  intro a b ha hb hbefore
  have hid : ∀ entry ∈ (store.tables kind).rows.entries, entry.2.outputId = entry.1 := by
    intro entry hentry
    exact (h kind entry.1 entry.2 (Table.get?_eq_some_iff_mem _ |>.2 hentry)).2
  rw [hid a ha, hid b hb]
  exact hbefore

/-- No two rows lie at the same place. -/
lemma Keyed.nodup_map_place (h : store.Keyed) : (store.allRows.map (·.place)).Nodup := by
  rw [allRows, List.map_flatMap, List.nodup_flatMap]
  constructor
  · intro kind _
    refine List.pairwise_map.2 ((h.sorted_rowsOf kind).imp ?_)
    intro r s hbefore heq
    have hid : r.outputId = s.outputId := congrArg Prod.snd heq
    rw [hid, TableKey.before_irrefl] at hbefore
    cases hbefore
  · -- rows of two kinds lie in different tables
    have hkinds : OutputKind.all.Nodup := by decide
    refine hkinds.imp ?_
    intro k k' hne place hplace hplace'
    obtain ⟨r, hr, rfl⟩ := List.mem_map.1 hplace
    obtain ⟨s, hs, heq⟩ := List.mem_map.1 hplace'
    have hkind : s.kind = r.kind := congrArg Prod.fst heq
    rw [(h.mem_rowsOf_iff.1 hr).2, (h.mem_rowsOf_iff.1 hs).2] at hkind
    exact hne hkind.symm

/-- The kind and the identifier of its output determine a row. -/
lemma Keyed.eq_of_mem_rowSet (h : store.Keyed) {r s : OutputRecord} (hr : r ∈ store.rowSet)
    (hs : s ∈ store.rowSet) (hkind : r.kind = s.kind) (hid : r.outputId = s.outputId) : r = s := by
  rw [h.mem_rowSet_iff] at hr hs
  rw [hkind, hid, hs] at hr
  exact (Option.some.inj hr).symm

/-- The rows other than one are those with another kind or identifier. -/
lemma Keyed.rowSet_diff_singleton (h : store.Keyed) (hrecord : record ∈ store.rowSet) :
    {r ∈ store.rowSet | ¬(r.kind = record.kind ∧ r.outputId = record.outputId)} =
      store.rowSet \ {record} := by
  ext r
  rw [Set.mem_sep_iff, Set.mem_sdiff, Set.mem_singleton_iff]
  refine and_congr_right fun hr => not_congr ?_
  constructor
  · rintro ⟨hkind, hid⟩
    exact h.eq_of_mem_rowSet hr hrecord hkind hid
  · rintro rfl
    exact ⟨rfl, rfl⟩

lemma Keyed.rowSet_putRow (h : store.Keyed) (record : OutputRecord) :
    (store.putRow record).rowSet =
      insert record
        {r ∈ store.rowSet | ¬(r.kind = record.kind ∧ r.outputId = record.outputId)} := by
  ext r
  rw [(h.putRow record).mem_rowSet_iff, row?_putRow, Set.mem_insert_iff, Set.mem_sep_iff,
    h.mem_rowSet_iff]
  -- at the place of the record there is nothing but the record
  by_cases hkey : r.kind = record.kind ∧ r.outputId = record.outputId
  · simp [hkey, eq_comm]
  · have hne : r ≠ record := by
      rintro rfl
      exact hkey ⟨rfl, rfl⟩
    simp [hkey, hne]

lemma Keyed.rowSet_eraseRow (h : store.Keyed) (kind : OutputKind) (id : OutputId) :
    (store.eraseRow kind id).rowSet =
      {r ∈ store.rowSet | ¬(r.kind = kind ∧ r.outputId = id)} := by
  ext r
  rw [(h.eraseRow kind id).mem_rowSet_iff, row?_eraseRow, Set.mem_sep_iff, h.mem_rowSet_iff]
  by_cases hkey : r.kind = kind ∧ r.outputId = id <;> simp [hkey]

lemma rowSet_eq_of_row?_eq {other : Store}
    (h : ∀ kind id, other.row? kind id = store.row? kind id) : other.rowSet = store.rowSet := by
  ext r
  simp only [mem_rowSet_iff, mem_allRows_iff, h]

end Store

end OutputIndex
