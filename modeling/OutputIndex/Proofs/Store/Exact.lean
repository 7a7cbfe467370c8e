import OutputIndex.Proofs.Store.Rows

/-!
# The tables beside the rows

Five tables say where rows are found: for each kind by slot, by address and by identity, and for all
kinds together the tentative and the spent rows.  `Store.Finds store records` says that these tables
hold exactly the places of some records, whatever the rows of the store are.  A store is *exact*
(`Store.Exact`) when it is keyed and its tables find exactly its rows.

Speaking of arbitrary records lets the steps of a write be followed one by one: `Store.Finds.index`
and `Store.Finds.unindex` add and remove one record, while the rows may lag behind.  The tables are
determined by the records they find (`Store.Finds.besides_eq`), so building them anew leaves an
exact store as it is (`Store.Exact.buildIndexes_eq`).
-/

namespace OutputIndex

namespace Store

/-! ## Tables that hold what they should -/

section Lists

variable {κ : Type} [TableKey κ]

/-- A table is there and holds exactly the keys that satisfy a condition. -/
def Lists (table : Option (KeySet κ)) (holds : κ → Prop) : Prop :=
  ∃ set, table = some set ∧ ∀ key, key ∈ set.keys ↔ holds key

variable {table other : Option (KeySet κ)} {holds : κ → Prop} {records : Set OutputRecord}
  {record : OutputRecord} {At : OutputRecord → κ → Prop} {places : List κ}

lemma Lists.congr {holds' : κ → Prop} (h : Lists table holds)
    (heq : ∀ key, holds key ↔ holds' key) : Lists table holds' := by
  obtain ⟨set, hset, hkeys⟩ := h
  exact ⟨set, hset, fun key => (hkeys key).trans (heq key)⟩

lemma Lists.unique (h : Lists table holds) (h' : Lists other holds) : table = other := by
  obtain ⟨set, rfl, hkeys⟩ := h
  obtain ⟨set', rfl, hkeys'⟩ := h'
  rw [KeySet.ext_keys fun key => (hkeys key).trans (hkeys' key).symm]

lemma Lists.eq_empty (h : Lists table holds) (hnot : ∀ key, ¬holds key) : table = some .empty :=
  h.unique ⟨Table.empty, rfl, fun key => by simp [hnot key]⟩

lemma Lists.empty :
    Lists (some (Table.empty : KeySet κ)) fun key => ∃ r ∈ (∅ : Set OutputRecord), At r key :=
  ⟨Table.empty, rfl, fun key => by simp⟩

/-- Adding the places of a record makes a table hold those of one record more. -/
lemma Lists.add [DecidableEq κ] (h : Lists table fun key => ∃ r ∈ records, At r key)
    (hplaces : ∀ key, key ∈ places ↔ At record key) :
    Lists (some (KeySet.addAll (table.getD .empty) places))
      fun key => ∃ r ∈ insert record records, At r key := by
  obtain ⟨set, rfl, hkeys⟩ := h
  refine ⟨_, rfl, fun key => ?_⟩
  rw [Option.getD_some, KeySet.mem_addAll, hkeys, hplaces]
  simp

/-- Removing the places of a record that no other record shares makes a table hold those of one
record less. -/
lemma Lists.erase [DecidableEq κ] (h : Lists table fun key => ∃ r ∈ records, At r key)
    (hplaces : ∀ key, key ∈ places ↔ At record key)
    (hapart : ∀ r ∈ records, ∀ key, At r key → At record key → r = record) :
    Lists (some (KeySet.eraseAll (table.getD .empty) places))
      fun key => ∃ r ∈ records \ {record}, At r key := by
  obtain ⟨set, rfl, hkeys⟩ := h
  refine ⟨_, rfl, fun key => ?_⟩
  rw [Option.getD_some, KeySet.mem_eraseAll, hkeys, hplaces]
  constructor
  · rintro ⟨hnot, r, hr, hat⟩
    refine ⟨r, ⟨hr, ?_⟩, hat⟩
    rintro rfl
    exact hnot hat
  · rintro ⟨r, ⟨hr, hne⟩, hat⟩
    exact ⟨fun hat' => hne (hapart r hr key hat hat'), r, hr, hat⟩

lemma Lists.insert_of_forall_not (h : Lists table fun key => ∃ r ∈ records, At r key)
    (hnot : ∀ key, ¬At record key) :
    Lists table fun key => ∃ r ∈ insert record records, At r key := by
  refine h.congr fun key => ?_
  simp [hnot key]

lemma Lists.diff_of_forall_not (h : Lists table fun key => ∃ r ∈ records, At r key)
    (hnot : ∀ key, ¬At record key) :
    Lists table fun key => ∃ r ∈ records \ {record}, At r key := by
  refine h.congr fun key => ⟨?_, fun ⟨r, hr, hat⟩ => ⟨r, hr.1, hat⟩⟩
  rintro ⟨r, hr, hat⟩
  refine ⟨r, ⟨hr, ?_⟩, hat⟩
  rintro rfl
  exact hnot key hat

end Lists

/-! ## Where a record is found -/

variable {store other : Store} {records : Set OutputRecord} {record : OutputRecord}
  {kind : OutputKind}

/-- The place of a record of some kind in query order. -/
def FoundBySlot (kind : OutputKind) (record : OutputRecord) (place : SortKey) : Prop :=
  record.kind = kind ∧ place = record.sortKey

/-- The places of a record of some kind by its addresses. -/
def FoundByAddress (kind : OutputKind) (record : OutputRecord) (place : LookupKey) : Prop :=
  record.kind = kind ∧ ∃ key ∈ record.addressKeys, place = (key, record.sortKey)

/-- The place of a record of some kind by its identity. -/
def FoundByIdentity (kind : OutputKind) (record : OutputRecord) (place : LookupKey) : Prop :=
  record.kind = kind ∧ ∃ key, record.identityKey? = some key ∧ place = (key, record.sortKey)

/-- The place of a tentative record. -/
def FoundBooked (record : OutputRecord) (place : TrackedKey) : Prop :=
  record.about.committed = false ∧
    place = (record.about.createdAtSlot, record.kind, record.outputId)

/-- The place of a spent record. -/
def FoundSpent (record : OutputRecord) (place : TrackedKey) : Prop :=
  record.about.deletedAtSlot ≠ 0 ∧
    place = (record.about.deletedAtSlot, record.kind, record.outputId)

/-- The tables beside the rows are all there and hold exactly the places of some records. -/
structure Finds (store : Store) (records : Set OutputRecord) : Prop where
  bySlot : ∀ kind, Lists (store.tables kind).bySlot
    fun place => ∃ record ∈ records, FoundBySlot kind record place
  byAddress : ∀ kind, Lists (store.tables kind).byAddress
    fun place => ∃ record ∈ records, FoundByAddress kind record place
  byIdentity : ∀ kind, Lists (store.tables kind).byIdentity
    fun place => ∃ record ∈ records, FoundByIdentity kind record place
  uncommitted : Lists store.uncommitted fun place => ∃ record ∈ records, FoundBooked record place
  spent : Lists store.spent fun place => ∃ record ∈ records, FoundSpent record place

/-- The store is keyed, and its tables find exactly its rows. -/
structure Exact (store : Store) : Prop where
  keyed : store.Keyed
  finds : store.Finds store.rowSet

/-- The tables beside the rows. -/
def besides (store : Store) : (OutputKind → Option (KeySet SortKey) × Option (KeySet LookupKey) ×
    Option (KeySet LookupKey)) × Option (KeySet TrackedKey) × Option (KeySet TrackedKey) :=
  (fun kind => ((store.tables kind).bySlot, (store.tables kind).byAddress,
    (store.tables kind).byIdentity), store.uncommitted, store.spent)

/-- The tables beside the rows are determined by the records that they find. -/
lemma Finds.besides_eq (h : store.Finds records) (h' : other.Finds records) :
    store.besides = other.besides := by
  simp only [besides, Prod.mk.injEq]
  refine ⟨funext fun kind => ?_, h.uncommitted.unique h'.uncommitted, h.spent.unique h'.spent⟩
  rw [(h.bySlot kind).unique (h'.bySlot kind), (h.byAddress kind).unique (h'.byAddress kind),
    (h.byIdentity kind).unique (h'.byIdentity kind)]

lemma Finds.of_besides_eq (h : store.Finds records) (heq : other.besides = store.besides) :
    other.Finds records := by
  simp only [besides, Prod.mk.injEq] at heq
  obtain ⟨htables, huncommitted, hspent⟩ := heq
  have hkind := fun kind => congrFun htables kind
  simp only [Prod.mk.injEq] at hkind
  exact {
    bySlot := fun kind => by rw [(hkind kind).1]; exact h.bySlot kind
    byAddress := fun kind => by rw [(hkind kind).2.1]; exact h.byAddress kind
    byIdentity := fun kind => by rw [(hkind kind).2.2]; exact h.byIdentity kind
    uncommitted := by rw [huncommitted]; exact h.uncommitted
    spent := by rw [hspent]; exact h.spent }

/-! ## One record more, one record less -/

lemma tables_index (store : Store) (record : OutputRecord) (kind : OutputKind) :
    (store.index record).tables kind =
      if kind = record.kind then (store.tables record.kind).index record else store.tables kind :=
  tables_setTables store record.kind kind _

lemma tables_unindex (store : Store) (record : OutputRecord) (kind : OutputKind) :
    (store.unindex record).tables kind =
      if kind = record.kind then (store.tables record.kind).unindex record else store.tables kind :=
  tables_setTables store record.kind kind _

lemma mem_slotPlaces (record : OutputRecord) (place : SortKey) :
    place ∈ [record.sortKey] ↔ FoundBySlot record.kind record place := by
  simp [FoundBySlot]

lemma mem_addressPlaces (record : OutputRecord) (place : LookupKey) :
    place ∈ KindTables.addressPlaces record ↔ FoundByAddress record.kind record place := by
  simp [FoundByAddress, KindTables.addressPlaces, eq_comm]

lemma mem_identityPlaces (record : OutputRecord) (place : LookupKey) :
    place ∈ KindTables.identityPlaces record ↔ FoundByIdentity record.kind record place := by
  simp [FoundByIdentity, KindTables.identityPlaces, eq_comm]

lemma not_foundByIdentity (hnone : record.identityKey? = none) (place : LookupKey) :
    ¬FoundByIdentity kind record place := by
  rintro ⟨-, key, hkey, -⟩
  rw [hnone] at hkey
  exact absurd hkey (by simp)

lemma mem_bookedPlaces (h : record.about.committed = false) (place : TrackedKey) :
    place ∈ [bookedPlace record] ↔ FoundBooked record place := by
  simp [FoundBooked, bookedPlace, h]

lemma mem_spentPlaces (h : record.about.isLive = false) (place : TrackedKey) :
    place ∈ [spentPlace record] ↔ FoundSpent record place := by
  have hne : record.about.deletedAtSlot ≠ 0 := by simpa [RecordMeta.isLive] using h
  simp [FoundSpent, spentPlace, hne]

lemma not_foundBooked (h : record.about.committed = true) (place : TrackedKey) :
    ¬FoundBooked record place := by
  rintro ⟨hfalse, -⟩
  rw [h] at hfalse
  exact absurd hfalse (by simp)

lemma not_foundSpent (h : record.about.isLive = true) (place : TrackedKey) :
    ¬FoundSpent record place := by
  rintro ⟨hne, -⟩
  exact hne (by simpa [RecordMeta.isLive] using h)

section Views

variable {κ : Type} [TableKey κ] {At : OutputKind → OutputRecord → κ → Prop}

/-- A table of each kind holds the places of a record more after indexing it, if that of its own
kind does and records are only found by their own kind. -/
lemma lists_index (view : KindTables → Option (KeySet κ))
    (hkind : ∀ kind r key, At kind r key → r.kind = kind)
    (h : ∀ kind, Lists (view (store.tables kind)) fun key => ∃ r ∈ records, At kind r key)
    (hrecord : Lists (view ((store.tables record.kind).index record))
      fun key => ∃ r ∈ insert record records, At record.kind r key) (kind : OutputKind) :
    Lists (view ((store.index record).tables kind))
      fun key => ∃ r ∈ insert record records, At kind r key := by
  rw [tables_index]
  by_cases hown : kind = record.kind
  · subst hown
    rw [if_pos rfl]
    exact hrecord
  · rw [if_neg hown]
    exact (h kind).insert_of_forall_not fun key hat => hown (hkind kind record key hat).symm

/-- A table of each kind holds the places of a record less after unindexing it, if that of its own
kind does and records are only found by their own kind. -/
lemma lists_unindex (view : KindTables → Option (KeySet κ))
    (hkind : ∀ kind r key, At kind r key → r.kind = kind)
    (h : ∀ kind, Lists (view (store.tables kind)) fun key => ∃ r ∈ records, At kind r key)
    (hrecord : Lists (view ((store.tables record.kind).unindex record))
      fun key => ∃ r ∈ records \ {record}, At record.kind r key) (kind : OutputKind) :
    Lists (view ((store.unindex record).tables kind))
      fun key => ∃ r ∈ records \ {record}, At kind r key := by
  rw [tables_unindex]
  by_cases hown : kind = record.kind
  · subst hown
    rw [if_pos rfl]
    exact hrecord
  · rw [if_neg hown]
    exact (h kind).diff_of_forall_not fun key hat => hown (hkind kind record key hat).symm

end Views

lemma FoundByAddress.outputId_eq {place : LookupKey} (h : FoundByAddress kind record place) :
    place.2.outputId = record.outputId := by
  obtain ⟨-, key, -, rfl⟩ := h
  rfl

lemma FoundByIdentity.outputId_eq {place : LookupKey} (h : FoundByIdentity kind record place) :
    place.2.outputId = record.outputId := by
  obtain ⟨-, key, -, rfl⟩ := h
  rfl

/-- After indexing a record the tables find it as well. -/
lemma Finds.index (h : store.Finds records) (record : OutputRecord) :
    (store.index record).Finds (insert record records) where
  bySlot := by
    refine lists_index (·.bySlot) (fun _ _ _ hat => hat.1) h.bySlot ?_
    exact (h.bySlot _).add (mem_slotPlaces record)
  byAddress := by
    refine lists_index (·.byAddress) (fun _ _ _ hat => hat.1) h.byAddress ?_
    exact (h.byAddress _).add (mem_addressPlaces record)
  byIdentity := by
    refine lists_index (·.byIdentity) (fun _ _ _ hat => hat.1) h.byIdentity ?_
    simp only [KindTables.index]
    split
    · rename_i hnone
      exact (h.byIdentity _).insert_of_forall_not (not_foundByIdentity hnone)
    · exact (h.byIdentity _).add (mem_identityPlaces record)
  uncommitted := by
    simp only [Store.index, track]
    split
    · rename_i hcommitted
      exact h.uncommitted.insert_of_forall_not (not_foundBooked hcommitted)
    · rename_i hcommitted
      exact h.uncommitted.add (mem_bookedPlaces (by simpa using hcommitted))
  spent := by
    simp only [Store.index, track]
    split
    · rename_i hlive
      exact h.spent.insert_of_forall_not (not_foundSpent hlive)
    · rename_i hlive
      exact h.spent.add (mem_spentPlaces (by simpa using hlive))

/-- After a record is unindexed the tables find all but it, if no other record shares its kind and
the identifier of its output. -/
lemma Finds.unindex (h : store.Finds records)
    (hapart : ∀ r ∈ records, r.kind = record.kind → r.outputId = record.outputId → r = record) :
    (store.unindex record).Finds (records \ {record}) where
  -- a place names the kind and the identifier, so that no two records are found at one place
  bySlot := by
    refine lists_unindex (·.bySlot) (fun _ _ _ hat => hat.1) h.bySlot ?_
    refine (h.bySlot _).erase (mem_slotPlaces record) ?_
    rintro r hr place ⟨hkind, rfl⟩ ⟨-, hplace⟩
    exact hapart r hr hkind (congrArg SortKey.outputId hplace)
  byAddress := by
    refine lists_unindex (·.byAddress) (fun _ _ _ hat => hat.1) h.byAddress ?_
    refine (h.byAddress _).erase (mem_addressPlaces record) ?_
    intro r hr place hat hat'
    exact hapart r hr hat.1 (hat.outputId_eq.symm.trans hat'.outputId_eq)
  byIdentity := by
    refine lists_unindex (·.byIdentity) (fun _ _ _ hat => hat.1) h.byIdentity ?_
    simp only [KindTables.unindex]
    split
    · rename_i hnone
      exact (h.byIdentity _).diff_of_forall_not (not_foundByIdentity hnone)
    · refine (h.byIdentity _).erase (mem_identityPlaces record) ?_
      intro r hr place hat hat'
      exact hapart r hr hat.1 (hat.outputId_eq.symm.trans hat'.outputId_eq)
  uncommitted := by
    simp only [Store.unindex, untrack]
    split
    · rename_i hcommitted
      exact h.uncommitted.diff_of_forall_not (not_foundBooked hcommitted)
    · rename_i hcommitted
      have hplaces : ∀ place, place ∈ [bookedPlace record] ↔ FoundBooked record place :=
        mem_bookedPlaces (by simpa using hcommitted)
      refine h.uncommitted.erase hplaces ?_
      rintro r hr place ⟨-, rfl⟩ ⟨-, hplace⟩
      simp only [Prod.mk.injEq] at hplace
      exact hapart r hr hplace.2.1 hplace.2.2
  spent := by
    simp only [Store.unindex, untrack]
    split
    · rename_i hlive
      exact h.spent.diff_of_forall_not (not_foundSpent hlive)
    · rename_i hlive
      have hplaces : ∀ place, place ∈ [spentPlace record] ↔ FoundSpent record place :=
        mem_spentPlaces (by simpa using hlive)
      refine h.spent.erase hplaces ?_
      rintro r hr place ⟨-, rfl⟩ ⟨-, hplace⟩
      simp only [Prod.mk.injEq] at hplace
      exact hapart r hr hplace.2.1 hplace.2.2

/-! ## Exact stores -/

lemma besides_setTables (store : Store) {tables : KindTables}
    (hslot : tables.bySlot = (store.tables kind).bySlot)
    (haddress : tables.byAddress = (store.tables kind).byAddress)
    (hidentity : tables.byIdentity = (store.tables kind).byIdentity) :
    (store.setTables kind tables).besides = store.besides := by
  simp only [besides, Prod.mk.injEq]
  refine ⟨funext fun k => ?_, rfl, rfl⟩
  rw [tables_setTables]
  by_cases hown : k = kind
  · subst hown
    rw [if_pos rfl, hslot, haddress, hidentity]
  · rw [if_neg hown]

lemma besides_putRow (store : Store) (record : OutputRecord) :
    (store.putRow record).besides = store.besides :=
  besides_setTables store rfl rfl rfl

lemma besides_eraseRow (store : Store) (kind : OutputKind) (id : OutputId) :
    (store.eraseRow kind id).besides = store.besides :=
  besides_setTables store rfl rfl rfl

lemma finds_empty : empty.Finds ∅ where
  bySlot kind := by rw [tables_empty]; exact Lists.empty
  byAddress kind := by rw [tables_empty]; exact Lists.empty
  byIdentity kind := by rw [tables_empty]; exact Lists.empty
  uncommitted := Lists.empty
  spent := Lists.empty

lemma exact_empty : empty.Exact where
  keyed := keyed_empty
  finds := by
    have hnone : empty.rowSet = ∅ := by
      ext record
      simp [mem_rowSet_iff, mem_allRows_iff, row?_empty]
    rw [hnone]
    exact finds_empty

lemma Exact.of_row?_eq (h : store.Exact)
    (hrows : ∀ kind id, other.row? kind id = store.row? kind id)
    (hbesides : other.besides = store.besides) : other.Exact where
  keyed := h.keyed.of_row?_eq hrows
  finds := by
    rw [rowSet_eq_of_row?_eq hrows]
    exact h.finds.of_besides_eq hbesides

/-- Putting a row where there is none keeps a store exact, if the row is indexed. -/
lemma Exact.put_of_none (h : store.Exact)
    (hnone : store.row? record.kind record.outputId = none) :
    ((store.putRow record).index record).Exact where
  keyed := (h.keyed.putRow record).of_row?_eq (row?_index _ record)
  finds := by
    have hrows : {r ∈ store.rowSet | ¬(r.kind = record.kind ∧ r.outputId = record.outputId)} =
        store.rowSet := by
      refine Set.sep_eq_self_iff_mem_true.2 fun r hr hkey => ?_
      rw [h.keyed.mem_rowSet_iff, hkey.1, hkey.2, hnone] at hr
      exact absurd hr (by simp)
    rw [rowSet_eq_of_row?_eq (row?_index _ record), h.keyed.rowSet_putRow, hrows]
    exact (h.finds.of_besides_eq (besides_putRow store record)).index record

/-- Putting a row in the place of another keeps a store exact, if the one is unindexed before and
the other is indexed after. -/
lemma Exact.put_of_some {previous : OutputRecord} (h : store.Exact)
    (hsome : store.row? record.kind record.outputId = some previous) :
    (((store.unindex previous).putRow record).index record).Exact := by
  obtain ⟨hkind, hid⟩ := h.keyed _ _ _ hsome
  have hkeyed := h.keyed.of_row?_eq (row?_unindex store previous)
  have hprevious : previous ∈ store.rowSet := by
    rw [h.keyed.mem_rowSet_iff, hkind, hid]
    exact hsome
  have hfinds : (store.unindex previous).Finds (store.rowSet \ {previous}) :=
    h.finds.unindex fun r hr => h.keyed.eq_of_mem_rowSet hr hprevious
  refine ⟨(hkeyed.putRow record).of_row?_eq (row?_index _ record), ?_⟩
  rw [rowSet_eq_of_row?_eq (row?_index _ record), hkeyed.rowSet_putRow,
    rowSet_eq_of_row?_eq (row?_unindex store previous), ← hkind, ← hid,
    h.keyed.rowSet_diff_singleton hprevious]
  exact (hfinds.of_besides_eq (besides_putRow _ record)).index record

/-- Taking out a row keeps a store exact, if the row is unindexed. -/
lemma Exact.erase {id : OutputId} (h : store.Exact) (hsome : store.row? kind id = some record) :
    ((store.eraseRow kind id).unindex record).Exact := by
  obtain ⟨rfl, rfl⟩ := h.keyed _ _ _ hsome
  have hkeyed := h.keyed.eraseRow record.kind record.outputId
  have hrecord : record ∈ store.rowSet := h.keyed.mem_rowSet_iff.2 hsome
  refine ⟨hkeyed.of_row?_eq (row?_unindex _ record), ?_⟩
  rw [rowSet_eq_of_row?_eq (row?_unindex _ record), h.keyed.rowSet_eraseRow,
    h.keyed.rowSet_diff_singleton hrecord]
  exact (h.finds.of_besides_eq (besides_eraseRow store _ _)).unindex
    fun r hr => h.keyed.eq_of_mem_rowSet hr hrecord

/-! ## Building the tables anew -/

/-- The store with empty tables beside the rows, from which they are built. -/
def cleared (store : Store) : Store :=
  { store with
    kinds := store.kinds.map (·.clearIndexes)
    uncommitted := some .empty
    spent := some .empty }

lemma tables_cleared (store : Store) (kind : OutputKind) :
    store.cleared.tables kind = (store.tables kind).clearIndexes :=
  PerKind.get_map _ store.kinds kind

lemma row?_cleared (store : Store) (kind : OutputKind) (id : OutputId) :
    store.cleared.row? kind id = store.row? kind id := by
  rw [row?, tables_cleared]
  rfl

lemma finds_cleared (store : Store) : store.cleared.Finds ∅ where
  bySlot kind := by rw [tables_cleared]; exact Lists.empty
  byAddress kind := by rw [tables_cleared]; exact Lists.empty
  byIdentity kind := by rw [tables_cleared]; exact Lists.empty
  uncommitted := Lists.empty
  spent := Lists.empty

lemma row?_foldl_index (rows : List OutputRecord) (store : Store) (kind : OutputKind)
    (id : OutputId) : (rows.foldl Store.index store).row? kind id = store.row? kind id := by
  induction rows generalizing store with
  | nil => rfl
  | cons record rest ih => rw [List.foldl_cons, ih, row?_index]

lemma Finds.foldl_index (h : store.Finds records) (rows : List OutputRecord) :
    (rows.foldl Store.index store).Finds ({record | record ∈ rows} ∪ records) := by
  induction rows generalizing store records with
  | nil => simpa using h
  | cons record rest ih =>
    have hrest := ih (h.index record)
    rw [List.foldl_cons]
    convert hrest using 1
    ext r
    simp only [Set.mem_union, Set.mem_ofPred_eq, List.mem_cons, Set.mem_insert_iff]
    rw [or_left_comm, or_assoc]

lemma row?_buildIndexes (store : Store) (kind : OutputKind) (id : OutputId) :
    store.buildIndexes.row? kind id = store.row? kind id :=
  (row?_foldl_index _ store.cleared kind id).trans (row?_cleared store kind id)

/-- Building the tables makes any keyed store exact. -/
lemma Keyed.exact_buildIndexes (h : store.Keyed) : store.buildIndexes.Exact where
  keyed := h.of_row?_eq (row?_buildIndexes store)
  finds := by
    have hfinds := store.finds_cleared.foldl_index store.allRows
    rw [Set.union_empty] at hfinds
    rw [rowSet_eq_of_row?_eq (row?_buildIndexes store)]
    exact hfinds

/-- The definitions of multi addresses and the outputs that refer to them. -/
def links (store : Store) :
    Table AddressKey Bytes × KeySet (AddressKey × OutputId) × KeySet (OutputId × AddressKey) :=
  (store.definitions, store.references, store.referencesByOutput)

/-- Rows, tables beside them, multi addresses and status make up a store. -/
lemma ext_views (hrows : ∀ kind id, store.row? kind id = other.row? kind id)
    (hbesides : store.besides = other.besides) (hlinks : store.links = other.links)
    (hstatus : store.status = other.status) : store = other := by
  obtain ⟨kinds, uncommitted, spent, definitions, references, byOutput, status⟩ := store
  obtain ⟨kinds', uncommitted', spent', definitions', references', byOutput', status'⟩ := other
  simp only [besides, links, tables, Prod.mk.injEq] at hbesides hlinks hstatus
  obtain ⟨htables, rfl, rfl⟩ := hbesides
  obtain ⟨rfl, rfl, rfl⟩ := hlinks
  subst hstatus
  congr 1
  refine PerKind.ext_get fun kind => ?_
  have hkind := congrFun htables kind
  have hrow : (kinds.get kind).rows = (kinds'.get kind).rows := Table.ext_get? (hrows kind)
  cases h : kinds.get kind
  cases h' : kinds'.get kind
  rw [h, h'] at hrow hkind
  simp only [Prod.mk.injEq] at hkind
  obtain ⟨rfl, rfl, rfl⟩ := hkind
  rw [KindTables.mk.injEq]
  exact ⟨hrow, rfl, rfl, rfl⟩

/-- The tables beside the rows of an exact store follow from the rows. -/
lemma Exact.eq_of_row?_eq (h : store.Exact) (h' : other.Exact)
    (hrows : ∀ kind id, store.row? kind id = other.row? kind id)
    (hlinks : store.links = other.links) (hstatus : store.status = other.status) :
    store = other := by
  have hfinds : store.Finds other.rowSet := rowSet_eq_of_row?_eq hrows ▸ h.finds
  exact ext_views hrows (hfinds.besides_eq h'.finds) hlinks hstatus

lemma links_foldl_index (rows : List OutputRecord) (store : Store) :
    (rows.foldl Store.index store).links = store.links := by
  induction rows generalizing store with
  | nil => rfl
  | cons record rest ih => exact ih (store.index record)

lemma status_foldl_index (rows : List OutputRecord) (store : Store) :
    (rows.foldl Store.index store).status = store.status := by
  induction rows generalizing store with
  | nil => rfl
  | cons record rest ih => exact ih (store.index record)

/-- Building the tables of an exact store anew changes nothing. -/
lemma Exact.buildIndexes_eq (h : store.Exact) : store.buildIndexes = store := by
  have hlinks := links_foldl_index store.allRows store.cleared
  have hstatus := status_foldl_index store.allRows store.cleared
  exact h.keyed.exact_buildIndexes.eq_of_row?_eq h (row?_buildIndexes store) hlinks hstatus

end Store

end OutputIndex
