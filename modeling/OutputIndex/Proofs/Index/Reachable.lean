import OutputIndex.Proofs.Index.Import

/-!
# Reachable stores

`Store.Reachable known store` says that some sequence of operations, imports and clearings, through
any handles and with any faults, leads from the empty store to this one, where all outputs that are
ever listed are `known`.

Every reachable store is exact (`Store.Reachable.exact`).  A property that steps keep and that
imports establish holds of every reachable store for some set of unspent outputs
(`Store.Reachable.exists_unspent`).
-/

namespace OutputIndex

namespace Store

/-- The stores that an index can come to while it is given known outputs only. -/
inductive Reachable (known : Set LedgerOutput) : Store → Prop where
  | empty : Reachable known .empty
  | operation {index : Index} (operation : Operation)
      (hknown : ∀ output ∈ operation.outputs, output ∈ known)
      (h : Reachable known index.store) : Reachable known (index.after operation).store
  | load {index next : Index} {calls : List Import.Call} {ledgerSlot : Slot}
      {protocolVersion : UInt8} {networkName : String} {status : Status}
      (hknown : ∀ call ∈ calls, ∀ output ∈ call.outputs, output ∈ known)
      (hload : ((calls.foldl Import.after (.start index)).finalize ledgerSlot protocolVersion
        networkName).run.run index = (.ok status, next))
      (h : Reachable known index.store) : Reachable known next.store
  | clear {index : Index} (h : Reachable known index.store) :
      Reachable known (Index.clear.run.run index).2.store

variable {known : Set LedgerOutput} {store : Store}

namespace Reachable

lemma mono {larger : Set LedgerOutput} (hsubset : known ⊆ larger) (h : Reachable known store) :
    Reachable larger store := by
  induction h with
  | empty => exact .empty
  | operation operation hknown _ ih =>
    exact .operation operation (fun output houtput => hsubset (hknown output houtput)) ih
  | load hknown hload _ ih =>
    exact .load (fun call hcall output houtput => hsubset (hknown call hcall output houtput))
      hload ih
  | clear _ ih => exact .clear ih

lemma exact (h : Reachable known store) : store.Exact := by
  induction h with
  | empty => exact exact_empty
  | operation operation _ _ ih => exact Index.exact_after ih operation
  | load _ hload _ ih =>
    obtain ⟨-, rfl⟩ := Import.run_finalize_eq_ok hload
    exact (Import.loads_taken _ _).exact_finished (Import.keyed_start ih.keyed) _
  | clear => exact exact_empty

/-- What steps keep and loading an output keeps, from the empty store on, holds of every reachable
store for some unspent outputs. -/
lemma exists_unspent {P : Set LedgerOutput → Store → Prop} (hsees : SeesRows P)
    (hempty : P ∅ .empty)
    (hkeep : ∀ operation : Operation, (∀ output ∈ operation.outputs, output ∈ known) →
      Index.StepsKeep P operation)
    (hload : ∀ output ∈ known, ∀ (unspent : Set LedgerOutput) (writer : Writer)
      (record : OutputRecord), OutputRecord.ofLedgerOutput output true = .ok record →
        P unspent writer.store → P (insert output unspent) (writer.enter record output).store)
    (h : Reachable known store) : ∃ unspent, P unspent store := by
  induction h with
  | empty => exact ⟨∅, hempty⟩
  | @operation index operation hknown h ih =>
    obtain ⟨unspent, hP⟩ := ih
    cases hsucceeds : index.succeeds operation with
    | false =>
      rw [Index.after_eq_self hsucceeds]
      exact ⟨unspent, hP⟩
    | true =>
      have hsteps := hkeep operation hknown
      exact ⟨_, (Index.after_preserves unspent hsees hsucceeds hsteps h.exact hP).2⟩
  | @load index next calls _ _ _ status hknown hfinalize _ ih =>
    obtain ⟨unspent, hP⟩ := ih
    obtain ⟨-, rfl⟩ := Import.run_finalize_eq_ok hfinalize
    refine ⟨_, Import.finished_preserves unspent hsees (fun output houtput => hload output ?_)
      (Import.loads_taken _ calls) status hP⟩
    obtain ⟨call, hcall, hmem⟩ := List.mem_flatMap.1 (Import.mem_calls_of_mem_taken houtput)
    exact hknown call hcall output hmem
  | clear => exact ⟨∅, hempty⟩

lemma foldl_after {index : Index} {operations : List Operation} (h : Reachable known index.store)
    (hknown : ∀ operation ∈ operations, ∀ output ∈ operation.outputs, output ∈ known) :
    Reachable known (operations.foldl Index.after index).store := by
  induction operations generalizing index with
  | nil => exact h
  | cons operation rest ih =>
    exact ih (.operation operation (hknown operation List.mem_cons_self) h)
      fun o ho => hknown o (List.mem_cons_of_mem operation ho)

end Reachable

end Store

end OutputIndex
