import OutputIndex.Proofs.Store.Transactions

/-!
# Stores whose tables are missing

A bulk import that commits without having built the tables beside the rows leaves a store without
them.  An ordinary writer on such a store makes each table when it first needs it, and from then on
the table knows of the rows that are written, but not of those that were there before.  Only when
some writer builds the tables are they right again, and then they stay so.

`Transaction.complete` follows this through the writes that lead to a store, and
`Transaction.ready_foldl_after` says that an ordinary writer is ready if the tables of its store
were complete, or once it has built them itself.
-/

namespace OutputIndex

namespace Writer

variable {writer : Writer}

/-! ## Any writer -/

/-- A successful call leaves alone what is made to fail, and it keeps rows where they belong,
whether or not the tables beside them are right. -/
lemma keeps_of_run {next : Writer} {call : Call} (hrun : call.run.run writer = .ok ((), next)) :
    next.fault = writer.fault ∧ (writer.store.Keyed → next.store.Keyed) := by
  cases call with
  | writeStatus status =>
    simp only [Call.run, WriteM.run_writeStatus] at hrun
    split at hrun <;> cases hrun
    exact ⟨rfl, fun h => h.of_row?_eq fun _ _ => rfl⟩
  | writeOutput record =>
    simp only [Call.run, WriteM.run_writeOutput] at hrun
    split at hrun <;> cases hrun
    exact ⟨(rowsOnly_putRecord writer record).fault, fun h => keyed_putRecord h record⟩
  | removeOutput kind id =>
    simp only [Call.run, WriteM.run_discard, WriteM.run_removeOutput] at hrun
    split at hrun <;> cases hrun
    exact ⟨(rowsOnly_takeRecord writer kind id).fault, fun h => keyed_takeRecord h kind id⟩
  | discardUncommitted slot =>
    cases hrun
    exact ⟨(rowsOnly_discard writer slot).fault, fun h => keyed_discard h slot⟩
  | revertSpent slot =>
    cases hrun
    exact ⟨(rowsOnly_revive writer slot).fault, fun h => keyed_revive h slot⟩
  | recordReferences id addresses =>
    cases hrun
    exact ⟨rfl, fun h => h.of_row?_eq (Store.sameRecords_recordReferences _ id addresses).row?_eq⟩
  | releaseReferences id =>
    cases hrun
    exact ⟨rfl, fun h => h.of_row?_eq (Store.sameRecords_releaseReferences _ id).row?_eq⟩
  | purgeOrphans =>
    cases hrun
    exact ⟨rfl, fun h => h.of_row?_eq (Store.sameRecords_purgeOrphans _).row?_eq⟩
  | buildIndexes =>
    cases hrun
    exact ⟨rfl, fun h => h.exact_buildIndexes.keyed⟩

lemma keeps_after (writer : Writer) (call : Call) :
    (writer.after call).fault = writer.fault ∧
      (writer.store.Keyed → (writer.after call).store.Keyed) := by
  unfold after
  split
  · rename_i hrun
    exact keeps_of_run hrun
  · exact ⟨rfl, id⟩

lemma keeps_foldl_after (writer : Writer) (calls : List Call) :
    (calls.foldl after writer).fault = writer.fault ∧
      (writer.store.Keyed → (calls.foldl after writer).store.Keyed) := by
  induction calls generalizing writer with
  | nil => exact ⟨rfl, id⟩
  | cons call rest ih =>
    obtain ⟨hfault, hkeyed⟩ := keeps_after writer call
    obtain ⟨hfault', hkeyed'⟩ := ih (writer.after call)
    exact ⟨hfault'.trans hfault, fun h => hkeyed' (hkeyed h)⟩

lemma Ready.foldl_after (h : writer.Ready) (calls : List Call) :
    (calls.foldl after writer).Ready := by
  have hindexed := h.sound.indexed_foldl_after calls (.inl h.indexed)
  exact ⟨hindexed, (h.sound.foldl_after calls).exact hindexed⟩

/-- Once a writer has built the tables it is ready, whatever the tables were before. -/
lemma ready_foldl_after_of_mem (h : writer.store.Keyed) {calls : List Call}
    (hbuilds : Call.buildIndexes ∈ calls) : (calls.foldl after writer).Ready := by
  induction calls generalizing writer with
  | nil => cases hbuilds
  | cons call rest ih =>
    rcases List.mem_cons.1 hbuilds with rfl | hrest
    · have hbuilt : (writer.after .buildIndexes).Ready := ⟨rfl, h.exact_buildIndexes⟩
      exact hbuilt.foldl_after rest
    · exact ih ((keeps_after writer call).2 h) hrest

end Writer

/-! ## Through a sequence of writes -/

namespace Transaction

variable {store : Store} {transaction : Transaction}

/-- Whether a write takes effect: it commits and is not made to fail at that. -/
def Lands (transaction : Transaction) : Prop :=
  transaction.commits = true ∧ transaction.fault ≠ .writer .commit

instance (transaction : Transaction) : Decidable transaction.Lands :=
  inferInstanceAs (Decidable (_ ∧ _))

/-- Whether the tables beside the rows are complete after a write, by whether they were before it.
A write makes them complete by building them, and a bulk import starts by dropping them. -/
def completes (complete : Bool) (transaction : Transaction) : Bool :=
  if transaction.Lands then
    decide (Writer.Call.buildIndexes ∈ transaction.calls) || (complete && !transaction.bulk)
  else complete

/-- Whether the tables beside the rows are complete after some writes to the empty store. -/
def complete (transactions : List Transaction) : Bool := transactions.foldl completes true

lemma apply_eq (store : Store) (transaction : Transaction) :
    apply store transaction =
      if transaction.Lands then (transaction.writer store).store else store := by
  have hfault : (transaction.writer store).fault = transaction.fault := by
    unfold writer
    rw [(Writer.keeps_foldl_after _ _).1]
    split <;> rfl
  unfold apply
  rw [WriteM.run_commit, hfault]
  by_cases hcommits : transaction.commits = true
  · by_cases hfails : transaction.fault = .writer .commit <;> simp [Lands, hcommits, hfails]
  · simp [Lands, hcommits]

/-- The writer that a write starts with has its rows where they belong. -/
lemma keyed_start (h : store.Keyed) (transaction : Transaction) :
    (if transaction.bulk then Writer.startImport store transaction.fault
      else Writer.start store transaction.fault).store.Keyed := by
  split
  · exact h.of_row?_eq store.row?_dropIndexes
  · exact h

lemma keyed_apply (h : store.Keyed) (transaction : Transaction) :
    (apply store transaction).Keyed := by
  rw [apply_eq]
  split
  · exact (Writer.keeps_foldl_after _ _).2 (keyed_start h transaction)
  · exact h

lemma exact_apply_of_completes {complete : Bool} (hkeyed : store.Keyed)
    (h : complete = true → store.Exact) (hafter : completes complete transaction = true) :
    (apply store transaction).Exact := by
  rw [apply_eq]
  unfold completes at hafter
  split at hafter
  · rename_i hlands
    rw [if_pos hlands]
    by_cases hbuilds : Writer.Call.buildIndexes ∈ transaction.calls
    · exact (Writer.ready_foldl_after_of_mem (keyed_start hkeyed transaction) hbuilds).exact
    · -- nothing is built, so the tables were complete and are kept so by an ordinary writer
      obtain ⟨hcomplete, hordinary⟩ : complete = true ∧ transaction.bulk = false := by
        simpa [hbuilds] using hafter
      exact exact_writer (h hcomplete) fun hbulk => by rw [hordinary] at hbulk; cases hbulk
  · rename_i hlands
    rw [if_neg hlands]
    exact h hafter

lemma foldl_apply_of_complete {complete : Bool} (hkeyed : store.Keyed)
    (h : complete = true → store.Exact) (transactions : List Transaction) :
    (transactions.foldl apply store).Keyed ∧
      (transactions.foldl completes complete = true → (transactions.foldl apply store).Exact) := by
  induction transactions generalizing store complete with
  | nil => exact ⟨hkeyed, h⟩
  | cons transaction rest ih =>
    exact ih (keyed_apply hkeyed transaction) (exact_apply_of_completes hkeyed h)

/-- An ordinary writer is ready at any time if the tables of its store were complete, and otherwise
once it has built them itself. -/
lemma ready_foldl_after (transactions : List Transaction) (calls : List Writer.Call)
    (fault : Fault) (h : complete transactions = true ∨ Writer.Call.buildIndexes ∈ calls) :
    (calls.foldl Writer.after (.start (transactions.foldl apply .empty) fault)).Ready := by
  obtain ⟨hkeyed, hexact⟩ :=
    foldl_apply_of_complete Store.keyed_empty (fun _ => Store.exact_empty) transactions
  rcases h with hcomplete | hbuilds
  · exact (Writer.ready_start (hexact hcomplete) fault).foldl_after calls
  · exact Writer.ready_foldl_after_of_mem hkeyed hbuilds

end Transaction

end OutputIndex
