import OutputIndex.Proofs.Store.References
import OutputIndex.Store.Writer

/-!
# Calls of a writer

This file says what the calls of a writer return (`WriteM.run_writeOutput` and its like) and that
all of them keep a writer sound (`Writer.Sound`): its store is keyed, and while it keeps the tables
beside the rows up to date, its store is exact.  A writer that does keep them is ready
(`Writer.Ready`).
-/

namespace OutputIndex

/-! ## What calls return -/

namespace WriteM

variable {α β : Type} {writer : Writer}

lemma run_bind_eq_ok_iff {x : WriteM α} {f : α → WriteM β} {result : β × Writer} :
    (x >>= f).run writer = .ok result ↔
      ∃ a w, x.run writer = .ok (a, w) ∧ (f a).run w = .ok result := by
  rw [StateT.run_bind]
  cases h : x.run writer with
  | error cause => simp [bind, Except.bind]
  | ok pair =>
    obtain ⟨a, w⟩ := pair
    simp [bind, Except.bind]

lemma run_bind_of_ok {x : WriteM α} {f : α → WriteM β} {a : α} {next : Writer}
    (h : x.run writer = .ok (a, next)) : (x >>= f).run writer = (f a).run next := by
  rw [StateT.run_bind, h]
  rfl

lemma run_bind_of_error {x : WriteM α} {f : α → WriteM β} {cause : IndexError}
    (h : x.run writer = .error cause) : (x >>= f).run writer = .error cause := by
  rw [StateT.run_bind, h]
  rfl

lemma run_check (call : WriterCall) (writer : Writer) :
    (check call).run writer =
      if writer.fault = .writer call then .error (.storage (.injected writer.fault))
      else .ok ((), writer) := by
  simp only [check]
  by_cases h : writer.fault = .writer call
  · simp [h]
    rfl
  · simp [h]
    rfl

lemma run_writeStatus (status : Status) (writer : Writer) :
    (writeStatus status).run writer =
      if writer.fault = .writer .writeStatus then .error (.storage (.injected writer.fault))
      else .ok ((), { writer with store := { writer.store with status := some status } }) := by
  simp only [writeStatus, StateT.run_bind, run_check]
  split <;> rfl

lemma run_writeOutput (record : OutputRecord) (writer : Writer) :
    (writeOutput record).run writer =
      if writer.fault = .writer .writeOutput then .error (.storage (.injected writer.fault))
      else .ok ((), writer.putRecord record) := by
  simp only [writeOutput, StateT.run_bind, run_check]
  split <;> rfl

lemma run_removeOutput (kind : OutputKind) (id : OutputId) (writer : Writer) :
    (removeOutput kind id).run writer =
      if writer.fault = .writer .removeOutput then .error (.storage (.injected writer.fault))
      else .ok (writer.takeRecord kind id) := by
  simp only [removeOutput, StateT.run_bind, run_check]
  split <;> rfl

lemma run_discard (x : WriteM α) (writer : Writer) :
    (discard x : WriteM Unit).run writer = (x.run writer).map fun result => ((), result.2) :=
  rfl

lemma run_purgeOrphans (writer : Writer) :
    purgeOrphans.run writer =
      .ok (writer.store.purgeOrphans.1, { writer with store := writer.store.purgeOrphans.2 }) :=
  rfl

lemma run_commit (writer : Writer) :
    commit.run writer =
      if writer.fault = .writer .commit then .error (.storage (.injected writer.fault))
      else .ok (writer.store, writer) := by
  simp only [commit, StateT.run_bind, run_check]
  split <;> rfl

end WriteM

/-! ## Sound writers -/

namespace Writer

variable {writer : Writer}

/-- The store is keyed, and exact as long as the tables beside the rows are kept up to date. -/
structure Sound (writer : Writer) : Prop where
  keyed : writer.store.Keyed
  exact : writer.indexed = true → writer.store.Exact

lemma sound_start {store : Store} (h : store.Exact) (fault : Fault) : (start store fault).Sound :=
  ⟨h.keyed, fun _ => h⟩

lemma sound_startImport {store : Store} (h : store.Keyed) (fault : Fault) :
    (startImport store fault).Sound where
  keyed := h.of_row?_eq (store.row?_dropIndexes)
  exact hindexed := absurd hindexed (by simp [startImport])

/-! ## Writing rows -/

/-- The writers differ at most in their rows and the tables beside them. -/
structure RowsOnly (writer other : Writer) : Prop where
  indexed : other.indexed = writer.indexed
  fault : other.fault = writer.fault
  links : other.store.links = writer.store.links
  status : other.store.status = writer.store.status

namespace RowsOnly

lemma refl (writer : Writer) : RowsOnly writer writer := ⟨rfl, rfl, rfl, rfl⟩

lemma trans {other third : Writer} (h : RowsOnly writer other) (h' : RowsOnly other third) :
    RowsOnly writer third :=
  ⟨h'.indexed.trans h.indexed, h'.fault.trans h.fault, h'.links.trans h.links,
    h'.status.trans h.status⟩

end RowsOnly

lemma rowsOnly_putRecord (writer : Writer) (record : OutputRecord) :
    RowsOnly writer (writer.putRecord record) := by
  unfold putRecord
  split
  · split <;> exact ⟨rfl, rfl, rfl, rfl⟩
  · exact ⟨rfl, rfl, rfl, rfl⟩

lemma rowsOnly_takeRecord (writer : Writer) (kind : OutputKind) (id : OutputId) :
    RowsOnly writer (writer.takeRecord kind id).2 := by
  unfold takeRecord
  split
  · exact ⟨rfl, rfl, rfl, rfl⟩
  · split <;> exact ⟨rfl, rfl, rfl, rfl⟩

lemma row?_putRecord (writer : Writer) (record : OutputRecord) (kind : OutputKind)
    (id : OutputId) :
    (writer.putRecord record).store.row? kind id =
      if kind = record.kind ∧ id = record.outputId then some record
      else writer.store.row? kind id := by
  unfold putRecord
  split
  · rw [Store.row?_index, Store.row?_putRow]
    split
    · rfl
    · split
      · exact Store.row?_unindex _ _ kind id
      · rfl
  · exact Store.row?_putRow writer.store record kind id

lemma row?_takeRecord (writer : Writer) (kind k : OutputKind) (id i : OutputId) :
    (writer.takeRecord kind id).2.store.row? k i =
      if k = kind ∧ i = id then none else writer.store.row? k i := by
  unfold takeRecord
  split
  · rename_i hnone
    exact Store.row?_eq_ite_of_none hnone k i
  · split
    · rw [Store.row?_unindex, Store.row?_eraseRow]
    · exact Store.row?_eraseRow writer.store kind k id i

lemma takeRecord_fst (writer : Writer) (kind : OutputKind) (id : OutputId) :
    (writer.takeRecord kind id).1 = writer.store.row? kind id := by
  unfold takeRecord
  split
  · rename_i hnone
    exact hnone.symm
  · rename_i hsome
    exact hsome.symm

lemma keyed_putRecord (h : writer.store.Keyed) (record : OutputRecord) :
    (writer.putRecord record).store.Keyed :=
  h.of_put (row?_putRecord writer record)

lemma keyed_takeRecord (h : writer.store.Keyed) (kind : OutputKind) (id : OutputId) :
    (writer.takeRecord kind id).2.store.Keyed :=
  h.of_erase fun k i => row?_takeRecord writer kind k id i

lemma Sound.putRecord (h : writer.Sound) (record : OutputRecord) :
    (writer.putRecord record).Sound where
  keyed := keyed_putRecord h.keyed record
  exact hindexed := by
    rw [(rowsOnly_putRecord writer record).indexed] at hindexed
    simp only [Writer.putRecord, hindexed, if_true]
    split
    · rename_i hsome
      exact (h.exact hindexed).put_of_some hsome
    · rename_i hnone
      exact (h.exact hindexed).put_of_none hnone

lemma Sound.takeRecord (h : writer.Sound) (kind : OutputKind) (id : OutputId) :
    (writer.takeRecord kind id).2.Sound where
  keyed := keyed_takeRecord h.keyed kind id
  exact hindexed := by
    rw [(rowsOnly_takeRecord writer kind id).indexed] at hindexed
    simp only [Writer.takeRecord]
    split
    · exact h.exact hindexed
    · rename_i hsome
      simp only [hindexed, if_true]
      exact (h.exact hindexed).erase hsome

/-! ## Sweeps -/

/-- The writer with the table of tentative rows there, as a sweep first makes it. -/
def openUncommitted (writer : Writer) : Writer :=
  { writer with
    store := { writer.store with uncommitted := some (writer.store.uncommitted.getD .empty) } }

/-- The writer with the table of spent rows there, as a sweep first makes it. -/
def openSpent (writer : Writer) : Writer :=
  { writer with store := { writer.store with spent := some (writer.store.spent.getD .empty) } }

lemma openUncommitted_eq (h : writer.store.Exact) : writer.openUncommitted = writer := by
  obtain ⟨set, hset, -⟩ := h.finds.uncommitted
  rw [openUncommitted, hset, Option.getD_some, ← hset]

lemma openSpent_eq (h : writer.store.Exact) : writer.openSpent = writer := by
  obtain ⟨set, hset, -⟩ := h.finds.spent
  rw [openSpent, hset, Option.getD_some, ← hset]

lemma discardRow_snd (state : List OutputId × Writer) (place : OutputKind × OutputId) :
    (discardRow state place).2 = (state.2.takeRecord place.1 place.2).2 := by
  unfold discardRow
  split <;> (rename_i heq; rw [heq])

/-- What taking out a row keeps discarding keeps. -/
lemma foldl_discardRow_keeps {P : Writer → Prop}
    (hkeeps : ∀ w kind id, P w → P (w.takeRecord kind id).2)
    (places : List (OutputKind × OutputId)) (state : List OutputId × Writer)
    (h : P state.2) : P (places.foldl discardRow state).2 := by
  induction places generalizing state with
  | nil => exact h
  | cons place rest ih =>
    refine ih _ ?_
    rw [discardRow_snd]
    exact hkeeps state.2 place.1 place.2 h

/-- What putting a row keeps reviving keeps. -/
lemma foldl_reviveRow_keeps {P : Writer → Prop}
    (hkeeps : ∀ w record, P w → P (w.putRecord record))
    (places : List (OutputKind × OutputId)) (state : Nat × Writer) (h : P state.2) :
    P (places.foldl reviveRow state).2 := by
  induction places generalizing state with
  | nil => exact h
  | cons place rest ih =>
    refine ih _ ?_
    unfold reviveRow
    split
    · exact hkeeps state.2 _ h
    · exact h

lemma rowsOnly_discard (writer : Writer) (slot : Slot) :
    RowsOnly writer (writer.discard slot).2 := by
  have hopen : RowsOnly writer writer.openUncommitted := ⟨rfl, rfl, rfl, rfl⟩
  exact foldl_discardRow_keeps (fun w kind id h => h.trans (rowsOnly_takeRecord w kind id)) _
    ([], writer.openUncommitted) hopen

lemma rowsOnly_revive (writer : Writer) (slot : Slot) :
    RowsOnly writer (writer.revive slot).2 := by
  have hopen : RowsOnly writer writer.openSpent := ⟨rfl, rfl, rfl, rfl⟩
  exact foldl_reviveRow_keeps (fun w record h => h.trans (rowsOnly_putRecord w record)) _
    (0, writer.openSpent) hopen

lemma keyed_discard (h : writer.store.Keyed) (slot : Slot) :
    (writer.discard slot).2.store.Keyed :=
  foldl_discardRow_keeps (P := fun w => w.store.Keyed)
    (fun _ kind id hw => keyed_takeRecord hw kind id) _ ([], writer.openUncommitted) h

lemma keyed_revive (h : writer.store.Keyed) (slot : Slot) :
    (writer.revive slot).2.store.Keyed :=
  foldl_reviveRow_keeps (P := fun w => w.store.Keyed)
    (fun _ record hw => keyed_putRecord hw record) _ (0, writer.openSpent) h

lemma Sound.discard (h : writer.Sound) (slot : Slot) : (writer.discard slot).2.Sound := by
  have hopen : writer.openUncommitted.Sound := by
    refine ⟨h.keyed, fun hindexed => ?_⟩
    -- the table is there already as long as the tables are kept up to date
    have hexact : writer.store.Exact := h.exact hindexed
    rw [openUncommitted_eq hexact]
    exact hexact
  exact foldl_discardRow_keeps (fun _ kind id hw => hw.takeRecord kind id) _
    ([], writer.openUncommitted) hopen

lemma Sound.revive (h : writer.Sound) (slot : Slot) : (writer.revive slot).2.Sound := by
  have hopen : writer.openSpent.Sound := by
    refine ⟨h.keyed, fun hindexed => ?_⟩
    have hexact : writer.store.Exact := h.exact hindexed
    rw [openSpent_eq hexact]
    exact hexact
  exact foldl_reviveRow_keeps (fun _ record hw => hw.putRecord record) _ (0, writer.openSpent)
    hopen

/-- What leaves the rows and the tables beside them alone keeps a writer sound. -/
lemma Sound.of_eq (h : writer.Sound) {store : Store}
    (hrows : ∀ kind id, store.row? kind id = writer.store.row? kind id)
    (hbesides : store.besides = writer.store.besides) :
    Writer.Sound { writer with store := store } where
  keyed := h.keyed.of_row?_eq hrows
  exact hindexed := (h.exact hindexed).of_row?_eq hrows hbesides

lemma Sound.of_sameRecords (h : writer.Sound) {store : Store}
    (hsame : Store.SameRecords writer.store store) : Writer.Sound { writer with store := store } :=
  h.of_eq hsame.row?_eq hsame.besides_eq

lemma Sound.buildIndexes (h : writer.Sound) :
    Writer.Sound { writer with store := writer.store.buildIndexes, indexed := true } where
  keyed := h.keyed.exact_buildIndexes.keyed
  exact _ := h.keyed.exact_buildIndexes

/-! ## Ready writers -/

/-- The tables beside the rows are kept up to date, and they are right. -/
structure Ready (writer : Writer) : Prop where
  indexed : writer.indexed = true
  exact : writer.store.Exact

lemma ready_start {store : Store} (h : store.Exact) (fault : Fault) : (start store fault).Ready :=
  ⟨rfl, h⟩

namespace Ready

lemma sound (h : writer.Ready) : writer.Sound := ⟨h.exact.keyed, fun _ => h.exact⟩

lemma of_sound {other : Writer} (h : writer.Ready) (hother : other.Sound)
    (hindexed : other.indexed = writer.indexed) : other.Ready :=
  ⟨hindexed.trans h.indexed, hother.exact (hindexed.trans h.indexed)⟩

lemma putRecord (h : writer.Ready) (record : OutputRecord) : (writer.putRecord record).Ready :=
  h.of_sound (h.sound.putRecord record) (rowsOnly_putRecord writer record).indexed

lemma discard (h : writer.Ready) (slot : Slot) : (writer.discard slot).2.Ready :=
  h.of_sound (h.sound.discard slot) (rowsOnly_discard writer slot).indexed

lemma revive (h : writer.Ready) (slot : Slot) : (writer.revive slot).2.Ready :=
  h.of_sound (h.sound.revive slot) (rowsOnly_revive writer slot).indexed

end Ready

end Writer

end OutputIndex
