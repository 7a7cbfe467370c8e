import OutputIndex.Proofs.Index.Handle

/-!
# Failing as a whole

What is asked of an index through one handle (`Index.Request`) is done, or it fails and changes
nothing: neither a table nor the slot that the handle knows of (`Index.eq_of_run_request_error`).
An operation is one write, and a write that fails is lost whatever call of it fails
(`Index.eq_of_run_transact_error`); an import is one write from its start to its end, which is lost
as well when it is given up.  A call of an import that fails takes nothing into the import either
(`Import.eq_of_run_call_error`).

As what succeeds keeps the handle in step with the store, it is in step after any sequence of
requests, whatever is made to fail in each of them (`Index.inStep_foldl_serve`).
-/

namespace OutputIndex

/-- A call of an import that fails takes nothing into the import. -/
lemma Import.eq_of_run_call_error {call : Call} {state last : Import} {cause : IndexError}
    (h : call.run.run.run state = (.error cause, last)) : last = state := by
  rcases run_call call state with ⟨middle, hrun, -⟩ | ⟨other, hrun⟩
  · rw [hrun] at h
    cases h
  · rw [hrun] at h
    exact (congrArg Prod.snd h).symm

namespace Index

/-! ## Requests -/

/-- What is asked of an index through one handle.  The calls of an import may fail one by one. -/
inductive Request where
  | perform (operation : Operation)
  | clear
  /-- An import that is brought to its end. -/
  | load (calls : List Import.Call) (ledgerSlot : Slot) (protocolVersion : UInt8)
    (networkName : String)
  /-- An import that is given up after some calls. -/
  | abandon (calls : List Import.Call)
deriving DecidableEq

/-- What a request does. -/
def Request.run : Request → IndexM Unit
  | perform operation => operation.run
  | clear => Index.clear
  | load calls ledgerSlot protocolVersion networkName => do
    let state := calls.foldl Import.after (.start (← get))
    discard (state.finalize ledgerSlot protocolVersion networkName)
  | abandon calls => do
    let _ := calls.foldl Import.after (.start (← get))

/-- The index after a request in which something is made to fail. -/
def serve (index : Index) (request : Fault × Request) : Index :=
  (request.2.run.run.run { index with fault := request.1 }).2

variable {index next : Index} {cause : IndexError}

/-! ## What requests do -/

lemma run_load (calls : List Import.Call) (ledgerSlot : Slot) (protocolVersion : UInt8)
    (networkName : String) (index : Index) :
    (Request.load calls ledgerSlot protocolVersion networkName).run.run.run index =
      match ((calls.foldl Import.after (.start index)).finalize ledgerSlot protocolVersion
        networkName).run.run index with
      | (.error cause, next) => (.error cause, next)
      | (.ok _, next) => (.ok (), next) := by
  have hget : (get : IndexM Index).run.run index = (.ok index, index) := rfl
  rw [Request.run, run_bind_of_ok hget]
  rcases hrun : ((calls.foldl Import.after (.start index)).finalize ledgerSlot protocolVersion
    networkName).run.run index with ⟨cause | status, next⟩
  · exact run_bind_of_error hrun
  · exact run_bind_of_ok hrun

/-- A request that fails changes nothing. -/
lemma eq_of_run_request_error {request : Request}
    (h : request.run.run.run index = (.error cause, next)) : next = index := by
  cases request with
  | perform operation =>
    have hrun : operation.run.run.run index = (.error cause, next) := h
    exact eq_of_run_error hrun
  | clear => cases h
  | load calls ledgerSlot protocolVersion networkName =>
    rw [run_load] at h
    split at h
    · rename_i hrun
      cases h
      exact Import.eq_of_run_finalize_error hrun
    · cases h
  | abandon calls => cases h

/-- A request keeps the handle in step. -/
lemma InStep.serve (h : index.InStep) (request : Fault × Request) :
    (index.serve request).InStep := by
  obtain ⟨fault, request⟩ := request
  have hstart : InStep { index with fault } := h
  rw [Index.serve]
  dsimp only
  cases request with
  | perform operation => exact hstart.after operation
  | clear => exact inStep_clear _
  | load calls ledgerSlot protocolVersion networkName =>
    rw [run_load]
    split
    · rename_i hrun
      rw [Import.eq_of_run_finalize_error hrun]
      exact hstart
    · rename_i hrun
      exact inStep_of_finalize hrun
  | abandon calls => exact hstart

lemma inStep_foldl_serve (h : index.InStep) (requests : List (Fault × Request)) :
    (requests.foldl serve index).InStep := by
  induction requests generalizing index with
  | nil => exact h
  | cons request rest ih =>
    rw [List.foldl_cons]
    exact ih (h.serve request)

/-- **Failing as a whole.**  After any sequence of requests through one handle, whatever is made to
fail in each of them, the handle knows the committed slot of the store, or 0 where there is no
status.  A request that fails leaves everything as it was, and so does any write at whatever call it
fails, and any call of an import. -/
theorem serve_all_or_nothing (store : Store) (fault : Fault) (requests : List (Fault × Request)) :
    let index := requests.foldl serve (attach store fault)
    index.committedSlot = (index.store.status.map (·.committedSlot)).getD 0 ∧
      ∀ fault : Fault,
        let handle : Index := { index with fault }
        (∀ (request : Request) (cause : IndexError) (next : Index),
          request.run.run.run handle = (.error cause, next) → next = handle) ∧
        (∀ (body : WriteM Unit) (cause : IndexError) (next : Index),
          (transact body).run.run handle = (.error cause, next) → next = handle) ∧
        ∀ (calls : List Import.Call) (call : Import.Call) (cause : IndexError) (last : Import),
          let state := calls.foldl Import.after (.start handle)
          call.run.run.run state = (.error cause, last) → last = state := by
  intro index
  have hstep : index.InStep := inStep_foldl_serve (inStep_attach store fault) requests
  refine ⟨hstep, fun fault => ⟨?_, ?_, ?_⟩⟩
  · intro request cause next hrun
    exact eq_of_run_request_error hrun
  · intro body cause next hrun
    exact eq_of_run_transact_error hrun
  · intro calls call cause last state hrun
    exact Import.eq_of_run_call_error hrun

/-- The sample is imported, an update cannot be taken over, and a second import is given up. -/
def sampleRequests : List (Fault × Request) :=
  [(.none, .load sampleCalls 5 Sample.protocolVersion Sample.networkName),
    (.writer .writeOutput, .perform (.accept sampleUpdate)),
    (.none, .abandon [.add sampleCreated])]

/-- A commit whose status cannot be written leaves nothing of all that it has written before. -/
theorem commit_without_status_sampleRequests :
    let index := sampleRequests.foldl serve (attach .empty .none)
    let handle : Index := { index with fault := .writer .writeStatus }
    index.committedSlot = 5 ∧
      (∃ cause, (commit sampleUpdate).run.run handle = (.error cause, handle)) ∧
      ∃ cause, (Import.add sampleCreated).run.run
        (.start { index with fault := .writer .writeOutput }) =
          (.error cause, .start { index with fault := .writer .writeOutput }) := by
  intro index handle
  have hslot : index.committedSlot = 5 := by decide +kernel
  have hcommit : ((commit sampleUpdate).run.run handle).1.isOk = false := by decide +kernel
  have hadd : ((Import.add sampleCreated).run.run
      (.start { index with fault := .writer .writeOutput })).1.isOk = false := by decide +kernel
  obtain ⟨-, hnothing⟩ := serve_all_or_nothing .empty .none sampleRequests
  refine ⟨hslot, ?_, ?_⟩
  · rcases hrun : (commit sampleUpdate).run.run handle with ⟨cause | _, next⟩
    · obtain rfl := (hnothing (.writer .writeStatus)).1 (.perform (.commit sampleUpdate)) cause next
        hrun
      exact ⟨cause, rfl⟩
    · rw [hrun] at hcommit
      cases hcommit
  · rcases hrun : (Import.add sampleCreated).run.run
      (.start { index with fault := .writer .writeOutput }) with ⟨cause | _, last⟩
    · obtain rfl := (hnothing (.writer .writeOutput)).2.2 [] (.add sampleCreated) cause last hrun
      exact ⟨cause, rfl⟩
    · rw [hrun] at hadd
      cases hadd

end Index

end OutputIndex
