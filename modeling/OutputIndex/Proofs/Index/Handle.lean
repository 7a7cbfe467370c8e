import OutputIndex.Proofs.Index.Final

/-!
# One handle on a store

`Index.Reachable index` says that some sequence of operations, imports and clearings through one
handle leads from an empty store to this one, whatever is made to fail meanwhile.

A handle that is the only one on its store always knows the last committed slot
(`Index.Reachable.committedSlot_eq`).  There is a status from the first import on, and until then
all rows are tentative (`Index.Reachable.tentative`).
-/

namespace OutputIndex

/-! ## Tentative rows -/

namespace Store

variable {store : Store} {writer last : Writer} {part : Part}

/-- Every row is tentative. -/
def Tentative (store : Store) : Prop :=
  AllRows (fun record => record.about.committed = false) store

/-- Only what takes an output over for good makes a row final. -/
lemma Tentative.step (h : Tentative writer.store) (hready : writer.Ready)
    (hpart : ∀ output, part ≠ .finalize output) (hstep : Step writer part last) :
    Tentative last.store := by
  cases hstep with
  | settle slot =>
    refine AllRows.settle h hready ?_
    intro record left htentative hswept
    obtain ⟨-, rfl⟩ := OutputRecord.swept_eq_some_iff.1 hswept
    rw [OutputRecord.committed_unmarked]
    exact htentative
  | mark hrow =>
    refine AllRows.putRecord h ?_
    rw [OutputRecord.about_spentAt]
    exact h _ _ _ hrow
  | markUnseen hrow hrecord =>
    refine AllRows.enter h ?_
    rw [OutputRecord.about_spentAt, OutputRecord.about_of_ok hrecord]
    rfl
  | remove spent => exact AllRows.leave h _ _
  | propose hrow hrecord =>
    refine AllRows.enter h ?_
    rw [OutputRecord.about_of_ok hrecord]
    rfl
  | purge => exact AllRows.of_row?_eq h (sameRecords_purgeOrphans _).row?_eq
  | markSame | proposeSeen => exact h
  | finalizeFinal | finalizeSeen | finalize => exact absurd rfl (hpart _)

/-- An operation that commits nothing keeps all rows tentative. -/
lemma Tentative.stepsKeep {operation : Operation} (h : operation.committed? = none) :
    Index.StepsKeep (fun _ => Tentative) operation := by
  intro part hpart _ writer last hready hstep htentative
  refine htentative.step hready ?_ hstep
  rintro output rfl
  cases operation with
  | accept update => exact Part.isSpeculative_of_mem_accept hpart
  | commit update => cases h
  | rollback => simp [Operation.parts] at hpart

end Store

/-! ## Handles in step with their store -/

/-- The last committed slot, which is taken to be 0 where there is no status. -/
def Store.committedSlot (store : Store) : Slot := (store.status.map (·.committedSlot)).getD 0

namespace Index

/-- The handle knows the last committed slot. -/
def InStep (index : Index) : Prop := index.committedSlot = index.store.committedSlot

/-- A handle is in step when it is opened. -/
lemma inStep_attach (store : Store) (fault : Fault) : (attach store fault).InStep := rfl

/-- An operation keeps the handle in step: one that succeeds moves both or neither. -/
lemma InStep.after {index : Index} (h : index.InStep) (operation : Operation) :
    (index.after operation).InStep := by
  cases hsucceeds : index.succeeds operation with
  | false =>
    rw [after_eq_self hsucceeds]
    exact h
  | true =>
    cases operation with
    | accept update | rollback =>
      rw [InStep, Store.committedSlot, (handle_after hsucceeds).2, status_after hsucceeds]
      exact h
    | commit update =>
      obtain ⟨status, writer, hcommits, -⟩ := commits_of_succeeds hsucceeds
      rw [InStep, Store.committedSlot, committedSlot_after_commit hsucceeds,
        status_after hsucceeds, hcommits.stored]
      rfl

/-- An import puts the handle in step as it ends, also where that takes the slot down. -/
lemma inStep_of_finalize {state : Import} {ledgerSlot : Slot} {protocolVersion : UInt8}
    {networkName : String} {status : Status} {index next : Index}
    (h : (state.finalize ledgerSlot protocolVersion networkName).run.run index =
      (.ok status, next)) : next.InStep := by
  obtain ⟨-, rfl⟩ := Import.run_finalize_eq_ok h
  rfl

lemma inStep_clear (index : Index) : (clear.run.run index).2.InStep := rfl

/-! ## What one handle comes to -/

/-- The indexes that a handle can come to if it is the only one on a store that was empty. -/
inductive Reachable : Index → Prop where
  | attach (fault : Fault) : Reachable (attach .empty fault)
  | withFault {index : Index} (fault : Fault) (h : Reachable index) :
      Reachable { index with fault }
  | operation {index : Index} (operation : Operation) (h : Reachable index) :
      Reachable (index.after operation)
  | load {index next : Index} {calls : List Import.Call} {ledgerSlot : Slot}
      {protocolVersion : UInt8} {networkName : String} {status : Status}
      (hload : ((calls.foldl Import.after (.start index)).finalize ledgerSlot protocolVersion
        networkName).run.run index = (.ok status, next))
      (h : Reachable index) : Reachable next
  | clear {index : Index} (h : Reachable index) : Reachable (clear.run.run index).2

variable {index : Index}

namespace Reachable

/-- What one handle comes to is among what several handles come to. -/
lemma store (h : Reachable index) : Store.Reachable Set.univ index.store := by
  induction h with
  | attach => exact .empty
  | withFault _ _ ih => exact ih
  | operation operation _ ih => exact .operation operation (fun _ _ => trivial) ih
  | load hload _ ih => exact .load (fun _ _ _ _ => trivial) hload ih
  | clear _ ih => exact .clear ih

lemma inStep (h : Reachable index) : index.InStep := by
  induction h with
  | attach fault => exact inStep_attach .empty fault
  | withFault _ _ ih => exact ih
  | operation operation _ ih => exact ih.after operation
  | load hload => exact inStep_of_finalize hload
  | clear => exact inStep_clear _

/-- The handle knows the last committed slot.  Before the first import it takes it to be 0. -/
lemma committedSlot_eq (h : Reachable index) :
    index.committedSlot = (index.store.status.map (·.committedSlot)).getD 0 := h.inStep

/-- Before the first import all rows are tentative. -/
lemma tentative (h : Reachable index) (hstatus : index.store.status = none) :
    index.store.Tentative := by
  induction h with
  | attach => exact .empty
  | withFault _ _ ih => exact ih hstatus
  | @operation index operation h ih =>
    cases hsucceeds : index.succeeds operation with
    | false =>
      rw [after_eq_self hsucceeds] at hstatus ⊢
      exact ih hstatus
    | true =>
      have hcommitted : operation.committed? = none := by
        cases operation with
        | accept update | rollback => rfl
        | commit update =>
          -- nothing is committed as long as there is no status
          obtain ⟨status, writer, hcommits, -⟩ := commits_of_succeeds hsucceeds
          rw [status_after hsucceeds, hcommits.stored] at hstatus
          cases hstatus
      rw [status_after hsucceeds, hcommitted] at hstatus
      exact (after_preserves ∅ (Store.AllRows.seesRows _) hsucceeds
        (Store.Tentative.stepsKeep hcommitted) h.store.exact (ih hstatus)).2
  | load hload =>
    obtain ⟨-, rfl⟩ := Import.run_finalize_eq_ok hload
    cases hstatus
  | clear => exact .empty

/-- The index of the sample is that of one handle. -/
lemma sampleIndex : Reachable Index.sampleIndex := .load run_sampleImport (.attach .none)

end Reachable

end Index

end OutputIndex
