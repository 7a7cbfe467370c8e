import OutputIndex.Proofs.Store.Writer
import OutputIndex.Sample

/-!
# The tables beside the rows through any writes

A write is any sequence of calls to one writer, which is committed or dropped in the end
(`Transaction`).  The main statement is `exact_foldl_transaction`: from the empty store, whatever
writes are made, the tables beside the rows hold exactly the places of the rows, as long as every
bulk import that commits has built its tables.  So these tables are a function of the rows, and
building them on an ordinary writer changes nothing.
-/

namespace OutputIndex

namespace Writer

/-- A call to a writer. -/
inductive Call where
  | writeStatus (status : Status)
  | writeOutput (record : OutputRecord)
  | removeOutput (kind : OutputKind) (id : OutputId)
  | discardUncommitted (slot : Slot)
  | revertSpent (slot : Slot)
  | recordReferences (id : OutputId) (addresses : List Address)
  | releaseReferences (id : OutputId)
  | purgeOrphans
  | buildIndexes
deriving DecidableEq

/-- What a call does, whatever it returns. -/
def Call.run : Call → WriteM Unit
  | .writeStatus status => WriteM.writeStatus status
  | .writeOutput record => WriteM.writeOutput record
  | .removeOutput kind id => Functor.discard (WriteM.removeOutput kind id)
  | .discardUncommitted slot => Functor.discard (WriteM.discardUncommitted slot)
  | .revertSpent slot => Functor.discard (WriteM.revertSpent slot)
  | .recordReferences id addresses => WriteM.recordReferences id addresses
  | .releaseReferences id => Functor.discard (WriteM.releaseReferences id)
  | .purgeOrphans => Functor.discard WriteM.purgeOrphans
  | .buildIndexes => WriteM.buildIndexes

/-- The writer after a call; a call that fails changes nothing. -/
def after (writer : Writer) (call : Call) : Writer :=
  match call.run.run writer with
  | .ok (_, next) => next
  | .error _ => writer

/-- A successful call keeps a writer sound, and a writer that keeps the tables beside the rows up
to date goes on doing so. -/
lemma Sound.run {writer next : Writer} (h : writer.Sound) {call : Call}
    (hrun : call.run.run writer = .ok ((), next)) :
    next.Sound ∧ (writer.indexed = true ∨ call = .buildIndexes → next.indexed = true) := by
  cases call with
  | writeStatus status =>
    simp only [Call.run, WriteM.run_writeStatus] at hrun
    split at hrun <;> cases hrun
    exact ⟨h.of_eq (fun _ _ => rfl) rfl, fun hor => hor.resolve_right nofun⟩
  | writeOutput record =>
    simp only [Call.run, WriteM.run_writeOutput] at hrun
    split at hrun <;> cases hrun
    exact ⟨h.putRecord record, fun hor =>
      (rowsOnly_putRecord writer record).indexed.trans (hor.resolve_right nofun)⟩
  | removeOutput kind id =>
    simp only [Call.run, WriteM.run_discard, WriteM.run_removeOutput] at hrun
    split at hrun <;> cases hrun
    exact ⟨h.takeRecord kind id, fun hor =>
      (rowsOnly_takeRecord writer kind id).indexed.trans (hor.resolve_right nofun)⟩
  | discardUncommitted slot =>
    cases hrun
    exact ⟨h.discard slot, fun hor =>
      (rowsOnly_discard writer slot).indexed.trans (hor.resolve_right nofun)⟩
  | revertSpent slot =>
    cases hrun
    exact ⟨h.revive slot, fun hor =>
      (rowsOnly_revive writer slot).indexed.trans (hor.resolve_right nofun)⟩
  | recordReferences id addresses =>
    cases hrun
    exact ⟨h.of_sameRecords (Store.sameRecords_recordReferences _ id addresses),
      fun hor => hor.resolve_right nofun⟩
  | releaseReferences id =>
    cases hrun
    exact ⟨h.of_sameRecords (Store.sameRecords_releaseReferences _ id),
      fun hor => hor.resolve_right nofun⟩
  | purgeOrphans =>
    cases hrun
    exact ⟨h.of_sameRecords (Store.sameRecords_purgeOrphans _),
      fun hor => hor.resolve_right nofun⟩
  | buildIndexes =>
    cases hrun
    exact ⟨h.buildIndexes, fun _ => rfl⟩

lemma Sound.after {writer : Writer} (h : writer.Sound) (call : Call) :
    (writer.after call).Sound := by
  unfold Writer.after
  split
  · rename_i hrun
    exact (h.run hrun).1
  · exact h

lemma Sound.foldl_after {writer : Writer} (h : writer.Sound) (calls : List Call) :
    (calls.foldl Writer.after writer).Sound := by
  induction calls generalizing writer with
  | nil => exact h
  | cons call rest ih => exact ih (h.after call)

lemma Sound.indexed_after {writer : Writer} (h : writer.Sound) {call : Call}
    (hindexed : writer.indexed = true ∨ call = .buildIndexes) :
    (writer.after call).indexed = true := by
  rcases hindexed with hindexed | rfl
  · unfold Writer.after
    split
    · rename_i hrun
      exact (h.run hrun).2 (.inl hindexed)
    · exact hindexed
  · rfl

/-- Once a writer keeps the tables beside the rows up to date it does so to its end. -/
lemma Sound.indexed_foldl_after {writer : Writer} (h : writer.Sound) (calls : List Call)
    (hindexed : writer.indexed = true ∨ Call.buildIndexes ∈ calls) :
    (calls.foldl Writer.after writer).indexed = true := by
  induction calls generalizing writer with
  | nil => simpa using hindexed
  | cons call rest ih =>
    refine ih (h.after call) ?_
    rcases hindexed with hindexed | hindexed
    · exact .inl (h.indexed_after (.inl hindexed))
    · rcases List.mem_cons.1 hindexed with rfl | hrest
      · exact .inl (h.indexed_after (.inr rfl))
      · exact .inr hrest

end Writer

/-- A write: the calls to one writer, and whether it commits in the end. -/
structure Transaction where
  /-- Whether the writer is one for a bulk import. -/
  bulk : Bool
  calls : List Writer.Call
  /-- What is made to fail. -/
  fault : Fault
  /-- Whether the writer commits; otherwise it is dropped. -/
  commits : Bool

namespace Transaction

/-- The writer after all calls. -/
def writer (store : Store) (transaction : Transaction) : Writer :=
  transaction.calls.foldl Writer.after
    (if transaction.bulk then .startImport store transaction.fault
      else .start store transaction.fault)

/-- The store after a write. -/
def apply (store : Store) (transaction : Transaction) : Store :=
  if transaction.commits then
    match WriteM.commit.run (transaction.writer store) with
    | .ok (written, _) => written
    | .error _ => store
  else store

/-- What a write commits to has its tables: the writer is an ordinary one or has built them. -/
def Builds (transaction : Transaction) : Prop :=
  transaction.bulk = true → transaction.commits = true →
    Writer.Call.buildIndexes ∈ transaction.calls

variable {store : Store} {transaction : Transaction}

lemma sound_writer (h : store.Exact) (transaction : Transaction) :
    (transaction.writer store).Sound := by
  unfold writer
  split
  · exact (Writer.sound_startImport h.keyed transaction.fault).foldl_after _
  · exact (Writer.sound_start h transaction.fault).foldl_after _

lemma exact_writer (h : store.Exact)
    (hbuilt : transaction.bulk = true → Writer.Call.buildIndexes ∈ transaction.calls) :
    (transaction.writer store).store.Exact := by
  refine (sound_writer h transaction).exact ?_
  unfold writer
  split
  · rename_i hbulk
    exact (Writer.sound_startImport h.keyed transaction.fault).indexed_foldl_after _
      (.inr (hbuilt hbulk))
  · exact (Writer.sound_start h transaction.fault).indexed_foldl_after _ (.inl rfl)

/-- A write keeps a store exact. -/
lemma exact_apply (h : store.Exact) (hbuilds : transaction.Builds) :
    (apply store transaction).Exact := by
  unfold apply
  split
  · rename_i hcommits
    rw [WriteM.run_commit]
    split
    · rename_i hrun
      split at hrun <;> cases hrun
      exact exact_writer h fun hbulk => hbuilds hbulk hcommits
    · exact h
  · exact h

lemma exact_foldl_apply (h : store.Exact) {transactions : List Transaction}
    (hbuilds : ∀ transaction ∈ transactions, transaction.Builds) :
    (transactions.foldl apply store).Exact := by
  induction transactions generalizing store with
  | nil => exact h
  | cons transaction rest ih =>
    exact ih (exact_apply h (hbuilds transaction List.mem_cons_self))
      fun t ht => hbuilds t (List.mem_cons_of_mem _ ht)

/-- **The tables beside the rows are a function of the rows.**  Whatever is written from the empty
store on, with any writes dropped in between, the store is exact, and so is the store of any
ordinary writer at any time; building its tables changes nothing.  An exact store with the same
rows has the same tables. -/
theorem exact_foldl_transaction (transactions : List Transaction)
    (hbuilds : ∀ transaction ∈ transactions, transaction.Builds) :
    (transactions.foldl apply .empty).Exact ∧
      (∀ (calls : List Writer.Call) (fault : Fault),
        let writer := calls.foldl Writer.after (.start (transactions.foldl apply .empty) fault)
        writer.store.Exact ∧ WriteM.buildIndexes.run writer = .ok ((), writer)) ∧
      ∀ other : Store, other.Exact →
        (∀ kind id, other.row? kind id = (transactions.foldl apply .empty).row? kind id) →
        other.besides = (transactions.foldl apply .empty).besides := by
  have hexact := exact_foldl_apply Store.exact_empty hbuilds
  refine ⟨hexact, fun calls fault => ?_, fun other hother hrows => ?_⟩
  · have hsound := Writer.sound_start hexact fault
    have hindexed := hsound.indexed_foldl_after calls (.inl rfl)
    have hwriter := (hsound.foldl_after calls).exact hindexed
    refine ⟨hwriter, ?_⟩
    have hrun : ∀ writer : Writer, WriteM.buildIndexes.run writer =
        .ok ((), { writer with store := writer.store.buildIndexes, indexed := true }) :=
      fun _ => rfl
    rw [hrun, hwriter.buildIndexes_eq, ← hindexed]
  · -- both stores find the same rows, and these determine the tables
    have hfinds := hother.finds
    rw [Store.rowSet_eq_of_row?_eq hrows] at hfinds
    exact hfinds.besides_eq hexact.finds

/-- A record of an account that alice owns and bob issued. -/
def sampleRecord : OutputRecord :=
  .account {
    about := {
      outputId := Sample.outputId 5 0, amount := 1000, createdAtSlot := 5, deletedAtSlot := 0,
      committed := false }
    accountId := ⟨.replicate 32 7⟩
    address := Sample.Holder.alice.key
    issuer := some Sample.Holder.bob.key
    sender := none }

/-- An import of a record, a removal that is dropped, and an update in which the record is spent,
becomes live again and final. -/
def sampleWrites : List Transaction :=
  [⟨true, [.writeOutput sampleRecord, .buildIndexes], .none, true⟩,
    ⟨false, [.removeOutput .account (Sample.outputId 5 0)], .none, false⟩,
    ⟨false, [.writeOutput (sampleRecord.spentAt 9), .revertSpent 9,
      .writeOutput sampleRecord.finalized], .none, true⟩]

theorem exact_sampleWrites :
    (∀ transaction ∈ sampleWrites, transaction.Builds) ∧
      (sampleWrites.foldl apply .empty).Exact := by
  have hbuilds : ∀ transaction ∈ sampleWrites, transaction.Builds := by
    simp [sampleWrites, Builds]
  exact ⟨hbuilds, (exact_foldl_transaction sampleWrites hbuilds).1⟩

end Transaction

end OutputIndex
