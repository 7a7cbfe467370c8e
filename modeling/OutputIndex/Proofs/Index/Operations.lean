import OutputIndex.Proofs.Index.Steps

/-!
# The operations of an index

An operation that succeeds is a sequence of steps (`Index.steps_of_accept` and its like), and one
that fails changes nothing (`Index.after_eq_self`).  So what every step keeps is kept by any
sequence of operations (`Index.foldl_after_preserves`).  The outputs that are unspent by what is
committed change with the commits that succeed and with nothing else (`LedgerUpdate.apply`).
-/

namespace OutputIndex

/-! ## Running in sequence -/

section RunBind

variable {ε σ α β : Type} {x : ExceptT ε (StateM σ) α} {f : α → ExceptT ε (StateM σ) β} {s t : σ}

lemma run_bind_of_ok {a : α} (h : x.run.run s = (.ok a, t)) :
    (x >>= f).run.run s = (f a).run.run t := by
  simp [ExceptT.run_bind, StateT.run_bind, h]
  rfl

lemma run_bind_of_error {cause : ε} (h : x.run.run s = (.error cause, t)) :
    (x >>= f).run.run s = (.error cause, t) := by
  simp [ExceptT.run_bind, StateT.run_bind, h]
  rfl

lemma run_bind_eq_ok_iff {b : β} {u : σ} :
    (x >>= f).run.run s = (.ok b, u) ↔
      ∃ a t, x.run.run s = (.ok a, t) ∧ (f a).run.run t = (.ok b, u) := by
  constructor
  · intro h
    rcases hx : x.run.run s with ⟨cause | a, t⟩
    · rw [run_bind_of_error hx] at h
      cases h
    · rw [run_bind_of_ok hx] at h
      exact ⟨a, t, rfl, h⟩
  · rintro ⟨a, t, hx, hf⟩
    exact (run_bind_of_ok hx).trans hf

/-- A cause of another type changes nothing but the cause. -/
lemma run_adapt {ε' : Type} (wrap : ε → ε') (x : ExceptT ε (StateM σ) α) (s : σ) :
    (x.adapt wrap).run.run s =
      match x.run.run s with
      | (.error cause, t) => (.error (wrap cause), t)
      | (.ok a, t) => (.ok a, t) := by
  have hmap : (x.adapt wrap).run.run s =
      ((x.run.run s).1.mapError wrap, (x.run.run s).2) := rfl
  rw [hmap]
  rcases x.run.run s with ⟨_ | _, t⟩ <;> rfl

lemma run_adapt_eq_ok_iff {ε' : Type} {wrap : ε → ε'} {a : α} :
    (x.adapt wrap).run.run s = (.ok a, t) ↔ x.run.run s = (.ok a, t) := by
  rw [run_adapt]
  rcases x.run.run s with ⟨_ | _, middle⟩
  · exact iff_of_false nofun nofun
  · constructor <;> rintro ⟨⟩ <;> rfl

end RunBind

/-! ## Updates -/

namespace LedgerUpdate

/-- The update lists an output with the identifier among those it consumes. -/
def Consumes (update : LedgerUpdate) (id : OutputId) : Prop :=
  ∃ spent ∈ update.consumed, spent.outputId = id

/-- The update lists an output with the identifier among those it creates. -/
def Creates (update : LedgerUpdate) (id : OutputId) : Prop :=
  ∃ output ∈ update.created, output.outputId = id

/-- The outputs that are unspent after an update: what it consumes and does not create goes, what it
creates and does not consume comes. -/
def apply (unspent : Set LedgerOutput) (update : LedgerUpdate) : Set LedgerOutput :=
  {output ∈ unspent | update.Consumes output.outputId → update.Creates output.outputId} ∪
    {output ∈ {output | output ∈ update.created} | ¬update.Consumes output.outputId}

variable {update : LedgerUpdate} {output : LedgerOutput} {spent : LedgerSpent}

lemma mem_netConsumed_iff :
    spent ∈ update.netConsumed ↔ spent ∈ update.consumed ∧ ¬update.Creates spent.outputId := by
  simp [netConsumed, Creates]

lemma mem_netCreated_iff :
    output ∈ update.netCreated ↔ output ∈ update.created ∧ ¬update.Consumes output.outputId := by
  simp [netCreated, Consumes]

/-- What an update consumes in the end is among the outputs that it lists. -/
lemma output_mem_of_mem_netConsumed (h : spent ∈ update.netConsumed) :
    spent.output ∈ update.consumed.map (·.output) ++ update.created := by
  have hconsumed : spent ∈ update.consumed := (mem_netConsumed_iff.1 h).1
  exact List.mem_append_left _ (List.mem_map_of_mem hconsumed)

/-- What an update creates in the end is among the outputs that it lists. -/
lemma mem_of_mem_netCreated (h : output ∈ update.netCreated) :
    output ∈ update.consumed.map (·.output) ++ update.created := by
  have hcreated : output ∈ update.created := (mem_netCreated_iff.1 h).1
  exact List.mem_append_right _ hcreated

lemma not_consumes_iff {id : OutputId} :
    ¬update.Consumes id ↔ ∀ spent ∈ update.consumed, spent.outputId ≠ id := by
  simp [Consumes]

lemma forall_netConsumed_ne_iff {id : OutputId} :
    (∀ spent ∈ update.netConsumed, spent.outputId ≠ id) ↔
      (update.Consumes id → update.Creates id) := by
  constructor
  · rintro h ⟨spent, hspent, rfl⟩
    by_contra hnot
    exact h spent (mem_netConsumed_iff.2 ⟨hspent, hnot⟩) rfl
  · rintro h spent hspent rfl
    obtain ⟨hconsumed, hnot⟩ := mem_netConsumed_iff.1 hspent
    exact hnot (h ⟨spent, hconsumed, rfl⟩)

end LedgerUpdate

/-! ## Operations -/

/-- An operation that takes an index along with a ledger. -/
inductive Operation where
  | accept (update : LedgerUpdate)
  | commit (update : LedgerUpdate)
  | rollback
deriving DecidableEq

namespace Operation

/-- What an operation does. -/
def run : Operation → IndexM Unit
  | accept update => Index.accept update
  | commit update => Index.commit update
  | rollback => Index.removeUncommittedChanges

/-- The parts of the write of an operation. -/
def parts : Operation → List Part
  | accept update => update.netConsumed.map .mark ++ update.netCreated.map .propose
  | commit update =>
    .settle update.slot :: (update.netConsumed.map .remove ++ update.netCreated.map .finalize)
  | rollback => [.settle Slot.last, .purge]

/-- The update that an operation accepts. -/
def accepted? : Operation → Option LedgerUpdate
  | accept update => some update
  | commit _ | rollback => none

/-- The update that an operation commits. -/
def committed? : Operation → Option LedgerUpdate
  | commit update => some update
  | accept _ | rollback => none

/-- The outputs that an operation lists. -/
def outputs : Operation → List LedgerOutput
  | accept update | commit update => update.consumed.map (·.output) ++ update.created
  | rollback => []

/-- The parts of an operation are about outputs that it lists. -/
lemma mem_outputs_of_mem_parts {operation : Operation} {part : Part} {output : LedgerOutput}
    (hpart : part ∈ operation.parts) (houtput : output ∈ part.outputs) :
    output ∈ operation.outputs := by
  cases operation with
  | accept update =>
    rcases List.mem_append.1 hpart with h | h
    · obtain ⟨spent, hspent, rfl⟩ := List.mem_map.1 h
      rw [List.mem_singleton.1 houtput]
      exact LedgerUpdate.output_mem_of_mem_netConsumed hspent
    · obtain ⟨created, hcreated, rfl⟩ := List.mem_map.1 h
      rw [List.mem_singleton.1 houtput]
      exact LedgerUpdate.mem_of_mem_netCreated hcreated
  | commit update =>
    rcases List.mem_cons.1 hpart with rfl | h
    · cases houtput
    · rcases List.mem_append.1 h with h | h
      · obtain ⟨spent, hspent, rfl⟩ := List.mem_map.1 h
        rw [List.mem_singleton.1 houtput]
        exact LedgerUpdate.output_mem_of_mem_netConsumed hspent
      · obtain ⟨created, hcreated, rfl⟩ := List.mem_map.1 h
        rw [List.mem_singleton.1 houtput]
        exact LedgerUpdate.mem_of_mem_netCreated hcreated
  | rollback =>
    simp only [parts, List.mem_cons, List.not_mem_nil, or_false] at hpart
    rcases hpart with rfl | rfl <;> cases houtput

/-- Only accepted updates mark outputs, and only as they consume them. -/
lemma accept_of_mark_mem_parts {operation : Operation} {spent : LedgerSpent}
    (h : .mark spent ∈ operation.parts) :
    ∃ update, operation = .accept update ∧ spent ∈ update.netConsumed := by
  cases operation with
  | accept update => exact ⟨update, rfl, by simpa [parts] using h⟩
  | commit update => simp [parts] at h
  | rollback => simp [parts] at h

/-- Only accepted updates propose outputs, and only as they create them. -/
lemma accept_of_propose_mem_parts {operation : Operation} {output : LedgerOutput}
    (h : .propose output ∈ operation.parts) :
    ∃ update, operation = .accept update ∧ output ∈ update.netCreated := by
  cases operation with
  | accept update => exact ⟨update, rfl, by simpa [parts] using h⟩
  | commit update => simp [parts] at h
  | rollback => simp [parts] at h

end Operation

namespace Index

/-- The index after an operation, whether it succeeds or not. -/
def after (index : Index) (operation : Operation) : Index := (operation.run.run.run index).2

/-- Whether an operation succeeds. -/
def succeeds (index : Index) (operation : Operation) : Bool := (operation.run.run.run index).1.isOk

/-- The operations of a sequence that succeed. -/
def successes (index : Index) : List Operation → List Operation
  | [] => []
  | operation :: rest =>
    if index.succeeds operation then operation :: successes (index.after operation) rest
    else successes (index.after operation) rest

variable {index : Index} {update : LedgerUpdate} {operation : Operation}

/-! ## What operations return -/

lemma run_transact {α : Type} (body : WriteM α) (index : Index) :
    (transact body).run.run index =
      match body.run (.start index.store index.fault) with
      | .error cause => (.error cause, index)
      | .ok (result, writer) =>
        if writer.fault = .writer .commit then (.error (.storage (.injected writer.fault)), index)
        else (.ok result, { index with store := writer.store }) := by
  have hget : (get : IndexM Index).run.run index = (.ok index, index) := rfl
  rw [transact, run_bind_of_ok hget]
  dsimp only
  cases hbody : body.run (.start index.store index.fault) with
  | error cause =>
    rw [WriteM.run_bind_of_error hbody]
    rfl
  | ok result =>
    obtain ⟨value, writer⟩ := result
    rw [WriteM.run_bind_of_ok hbody]
    have hcommit := WriteM.run_commit writer
    by_cases hfault : writer.fault = .writer .commit
    · rw [if_pos hfault] at hcommit
      rw [WriteM.run_bind_of_error hcommit]
      simp only [hfault, if_true]
      rfl
    · rw [if_neg hfault] at hcommit
      rw [WriteM.run_bind_of_ok hcommit]
      simp only [hfault, if_false]
      rfl

lemma run_transact_eq_ok_iff {α : Type} {body : WriteM α} {result : α} {next : Index} :
    (transact body).run.run index = (.ok result, next) ↔
      ∃ writer, body.run (.start index.store index.fault) = .ok (result, writer) ∧
        writer.fault ≠ .writer .commit ∧ next = { index with store := writer.store } := by
  rw [run_transact]
  constructor
  · intro h
    split at h
    · cases h
    · rename_i writer hbody
      split at h <;> cases h
      rename_i hfault
      exact ⟨writer, hbody, hfault, rfl⟩
  · rintro ⟨writer, hbody, hfault, rfl⟩
    rw [hbody]
    simp only [hfault, if_false]

lemma eq_of_run_transact_error {α : Type} {body : WriteM α} {cause : IndexError} {next : Index}
    (h : (transact body).run.run index = (.error cause, next)) : next = index := by
  rw [run_transact] at h
  split at h
  · exact (congrArg Prod.snd h).symm
  · split at h
    · exact (congrArg Prod.snd h).symm
    · cases h

lemma acceptWrite_eq (update : LedgerUpdate) :
    acceptWrite update = (Operation.accept update).parts.forM Part.run := by
  simp [acceptWrite, Operation.parts]
  rfl

lemma rollbackWrite_eq : rollbackWrite = Operation.rollback.parts.forM Part.run := by
  simp [rollbackWrite, Operation.parts, Part.run]

lemma run_accept (update : LedgerUpdate) (index : Index) :
    (accept update).run.run index =
      if update.slot ≤ index.committedSlot then
        (.error (.updateSkipped update.slot index.committedSlot), index)
      else (transact (acceptWrite update)).run.run index := by
  have hunfold : (accept update).run.run index =
      (if update.slot ≤ index.committedSlot then
          throw (.updateSkipped update.slot index.committedSlot)
        else transact (acceptWrite update) : IndexM Unit).run.run index := by
    simp only [accept]
    rfl
  rw [hunfold]
  split <;> rfl

lemma run_commit (update : LedgerUpdate) (index : Index) :
    (commit update).run.run index =
      if update.slot < index.committedSlot then
        (.error (.updateSkipped update.slot index.committedSlot), index)
      else
        match (transact (commitWrite update)).run.run index with
        | (.error cause, next) => (.error cause, next)
        | (.ok (), next) =>
          (.ok (), { next with committedSlot := max next.committedSlot update.slot }) := by
  have hunfold : (commit update).run.run index =
      (if update.slot < index.committedSlot then
          throw (.updateSkipped update.slot index.committedSlot)
        else do
          transact (commitWrite update)
          modify fun index =>
            { index with committedSlot := max index.committedSlot update.slot } :
        IndexM Unit).run.run index := by
    simp only [commit]
    rfl
  rw [hunfold]
  split
  · rfl
  · rcases h : (transact (commitWrite update)).run.run index with ⟨_ | _, next⟩
    · rw [run_bind_of_error h]
    · rw [run_bind_of_ok h]
      rfl

lemma run_commitWrite (update : LedgerUpdate) (writer : Writer) :
    (commitWrite update).run writer =
      match writer.store.status with
      | none => .error .statusNotFound
      | some status =>
        if update.slot < status.committedSlot then
          .error (.updateSkipped update.slot status.committedSlot)
        else
          (do (Operation.commit update).parts.forM Part.run
              WriteM.writeStatus { status with committedSlot := update.slot } : WriteM Unit).run
            writer := by
  have hread : WriteM.readStatus.run writer = .ok (writer.store.status, writer) := rfl
  rw [commitWrite, WriteM.run_bind_of_ok hread]
  cases writer.store.status with
  | none => rfl
  | some status =>
    dsimp only
    split
    · rfl
    · simp [Operation.parts, Part.run]

/-- The index after a commit: the status and the handle know of its slot. -/
def committed (index : Index) (status : Status) (update : LedgerUpdate) (writer : Writer) : Index :=
  { index with
    store := { writer.store with status := some { status with committedSlot := update.slot } }
    committedSlot := max index.committedSlot update.slot }

/-- A commit goes through as far as it is: its slot is not behind, and its parts succeed. -/
structure Commits (index : Index) (status : Status) (update : LedgerUpdate) (writer : Writer) :
    Prop where
  known : index.committedSlot ≤ update.slot
  stored : index.store.status = some status
  behind : status.committedSlot ≤ update.slot
  parts : ((Operation.commit update).parts.forM Part.run).run (.start index.store index.fault) =
    .ok ((), writer)
  writeStatus : index.fault ≠ .writer .writeStatus
  commit : index.fault ≠ .writer .commit

lemma run_commitWrite_eq_ok_iff {start next : Writer} :
    (commitWrite update).run start = .ok ((), next) ↔
      ∃ status writer, start.store.status = some status ∧ status.committedSlot ≤ update.slot ∧
        ((Operation.commit update).parts.forM Part.run).run start = .ok ((), writer) ∧
        start.fault ≠ .writer .writeStatus ∧
        next = { writer with store :=
          { writer.store with status := some { status with committedSlot := update.slot } } } := by
  rw [run_commitWrite]
  cases hstatus : start.store.status with
  | none => simp
  | some status =>
    by_cases hslot : update.slot < status.committedSlot
    · simp [hslot]
    · simp only [hslot, if_false, WriteM.run_bind_eq_ok_iff]
      constructor
      · rintro ⟨_, writer, hparts, hwrite⟩
        -- the parts leave it to the start of the write what is made to fail
        have hfault := (Steps.of_run hparts).sameFrame.fault
        rw [WriteM.run_writeStatus] at hwrite
        split at hwrite <;> cases hwrite
        rename_i hnot
        exact ⟨status, writer, rfl, UInt32.not_lt.1 hslot, hparts, hfault ▸ hnot, rfl⟩
      · rintro ⟨_, writer, hsome, -, hparts, hnot, rfl⟩
        cases hsome
        have hfault := (Steps.of_run hparts).sameFrame.fault
        refine ⟨(), writer, hparts, ?_⟩
        rw [WriteM.run_writeStatus, if_neg (hfault ▸ hnot)]

lemma run_commit_eq_ok_iff {next : Index} :
    (commit update).run.run index = (.ok (), next) ↔
      ∃ status writer, Commits index status update writer ∧
        next = index.committed status update writer := by
  rw [run_commit]
  constructor
  · intro h
    split at h
    · cases h
    · rename_i hslot
      split at h <;> cases h
      rename_i middle htransact
      obtain ⟨written, hwrite, hcommit, rfl⟩ := run_transact_eq_ok_iff.1 htransact
      obtain ⟨status, writer, hstatus, hle, hparts, hfault, rfl⟩ :=
        run_commitWrite_eq_ok_iff.1 hwrite
      have hsame : writer.fault = index.fault := (Steps.of_run hparts).sameFrame.fault
      have hcommits : Commits index status update writer := {
        known := UInt32.not_lt.1 hslot
        stored := hstatus
        behind := hle
        parts := hparts
        writeStatus := hfault
        commit := hsame ▸ hcommit }
      exact ⟨status, writer, hcommits, rfl⟩
  · rintro ⟨status, writer, h, rfl⟩
    have hsame : writer.fault = index.fault := (Steps.of_run h.parts).sameFrame.fault
    have hwrite := run_commitWrite_eq_ok_iff.2
      ⟨status, writer, h.stored, h.behind, h.parts, h.writeStatus, rfl⟩
    have htransact := run_transact_eq_ok_iff.2 ⟨_, hwrite, hsame ▸ h.commit, rfl⟩
    rw [if_neg (UInt32.not_lt.2 h.known), htransact]
    rfl

/-! ## Operations make steps -/

lemma succeeds_iff :
    index.succeeds operation = true ↔
      operation.run.run.run index = (.ok (), index.after operation) := by
  unfold succeeds after
  rcases operation.run.run.run index with ⟨_ | _, next⟩
  · exact iff_of_false nofun nofun
  · exact iff_of_true rfl rfl

lemma run_eq_ok_iff {next : Index} :
    operation.run.run.run index = (.ok (), next) ↔
      index.succeeds operation = true ∧ next = index.after operation := by
  rw [succeeds_iff]
  constructor
  · intro h
    obtain rfl : index.after operation = next := congrArg Prod.snd h
    exact ⟨h, rfl⟩
  · rintro ⟨h, rfl⟩
    exact h

/-- An operation that fails changes nothing. -/
lemma after_eq_self (h : index.succeeds operation = false) : index.after operation = index := by
  unfold succeeds at h
  unfold after
  cases operation with
  | accept update =>
    simp only [Operation.run, run_accept] at h ⊢
    split
    · rfl
    · rename_i hslot
      rw [if_neg hslot] at h
      rcases hrun : (transact (acceptWrite update)).run.run index with ⟨_ | _, next⟩
      · exact eq_of_run_transact_error hrun
      · rw [hrun] at h
        cases h
  | commit update =>
    simp only [Operation.run, run_commit] at h ⊢
    split
    · rfl
    · rename_i hslot
      rw [if_neg hslot] at h
      rcases hrun : (transact (commitWrite update)).run.run index with ⟨_ | _, next⟩
      · exact eq_of_run_transact_error hrun
      · rw [hrun] at h
        cases h
  | rollback =>
    simp only [Operation.run, removeUncommittedChanges] at h ⊢
    rcases hrun : (transact rollbackWrite).run.run index with ⟨_ | _, next⟩
    · exact eq_of_run_transact_error hrun
    · rw [hrun] at h
      cases h

lemma eq_of_run_error {cause : IndexError} {next : Index}
    (h : operation.run.run.run index = (.error cause, next)) : next = index := by
  have hfails : index.succeeds operation = false := by
    rw [succeeds, h]
    rfl
  have hafter : index.after operation = next := congrArg Prod.snd h
  rw [← hafter, after_eq_self hfails]

lemma steps_of_accept (h : index.succeeds (.accept update) = true) :
    index.committedSlot < update.slot ∧
      ∃ writer, Steps (.start index.store index.fault) (Operation.accept update).parts writer ∧
        index.after (.accept update) = { index with store := writer.store } := by
  have hrun := succeeds_iff.1 h
  rw [Operation.run, run_accept] at hrun
  split at hrun
  · cases hrun
  · rename_i hslot
    obtain ⟨writer, hwrite, -, hafter⟩ := run_transact_eq_ok_iff.1 hrun
    rw [acceptWrite_eq] at hwrite
    exact ⟨UInt32.not_le.1 hslot, writer, .of_run hwrite, hafter⟩

lemma steps_of_rollback (h : index.succeeds .rollback = true) :
    ∃ writer, Steps (.start index.store index.fault) Operation.rollback.parts writer ∧
      index.after .rollback = { index with store := writer.store } := by
  have hrun := succeeds_iff.1 h
  obtain ⟨writer, hwrite, -, hafter⟩ := run_transact_eq_ok_iff.1 hrun
  rw [rollbackWrite_eq] at hwrite
  exact ⟨writer, .of_run hwrite, hafter⟩

lemma commits_of_succeeds (h : index.succeeds (.commit update) = true) :
    ∃ status writer, Commits index status update writer ∧
      index.after (.commit update) = index.committed status update writer :=
  run_commit_eq_ok_iff.1 (succeeds_iff.1 h)

lemma Commits.succeeds {status : Status} {writer : Writer}
    (h : Commits index status update writer) :
    index.succeeds (.commit update) = true ∧
      index.after (.commit update) = index.committed status update writer := by
  have hrun := run_commit_eq_ok_iff.2 ⟨status, writer, h, rfl⟩
  have hafter : index.after (.commit update) = index.committed status update writer :=
    congrArg Prod.snd hrun
  exact ⟨succeeds_iff.2 (hafter ▸ hrun), hafter⟩

end Index

/-! ## What operations keep -/

/-- The status after an update is committed. -/
def Status.advance (status : Status) (update : LedgerUpdate) : Status :=
  { status with committedSlot := update.slot }

lemma foldl_next_remove (consumed : List LedgerSpent) (unspent : Set LedgerOutput) :
    (consumed.map Part.remove).foldl Part.next unspent =
      {output ∈ unspent | ∀ spent ∈ consumed, spent.outputId ≠ output.outputId} := by
  induction consumed generalizing unspent with
  | nil => simp
  | cons spent rest ih =>
    rw [List.map_cons, List.foldl_cons, ih]
    ext output
    simp only [Part.next, Set.mem_sep_iff, List.mem_cons, forall_eq_or_imp, and_assoc]
    exact and_congr_right fun _ => and_congr_left fun _ => ne_comm

lemma foldl_next_finalize (created : List LedgerOutput) (unspent : Set LedgerOutput) :
    (created.map Part.finalize).foldl Part.next unspent =
      unspent ∪ {output | output ∈ created} := by
  induction created generalizing unspent with
  | nil => simp
  | cons output rest ih =>
    rw [List.map_cons, List.foldl_cons, ih]
    ext o
    simp only [Part.next, Set.mem_union, Set.mem_insert_iff, Set.mem_ofPred_eq, List.mem_cons]
    rw [or_comm (a := o = output), or_assoc]

/-- The parts of a commit change what is unspent as the update says. -/
lemma foldl_next_commit (update : LedgerUpdate) (unspent : Set LedgerOutput) :
    (Operation.commit update).parts.foldl Part.next unspent = update.apply unspent := by
  rw [Operation.parts, List.foldl_cons, List.foldl_append, foldl_next_remove, foldl_next_finalize]
  ext output
  simp only [Part.next, Set.mem_union, Set.mem_ofPred_eq, LedgerUpdate.apply,
    LedgerUpdate.forall_netConsumed_ne_iff, LedgerUpdate.mem_netCreated_iff]

lemma foldl_next_of_forall {parts : List Part} {unspent : Set LedgerOutput}
    (h : ∀ part ∈ parts, part.next unspent = unspent) :
    parts.foldl Part.next unspent = unspent := by
  induction parts with
  | nil => rfl
  | cons part rest ih =>
    rw [List.foldl_cons, h part List.mem_cons_self]
    exact ih fun p hp => h p (List.mem_cons_of_mem _ hp)

/-- Nothing that is accepted or rolled back changes what is unspent by what is committed. -/
lemma foldl_next_eq_self {operation : Operation} (h : operation.committed? = none)
    (unspent : Set LedgerOutput) : operation.parts.foldl Part.next unspent = unspent := by
  refine foldl_next_of_forall fun part hpart => ?_
  cases operation with
  | accept update =>
    rcases List.mem_append.1 hpart with hpart | hpart
    all_goals
      obtain ⟨_, -, rfl⟩ := List.mem_map.1 hpart
      rfl
  | commit update => cases h
  | rollback =>
    simp only [Operation.parts, List.mem_cons, List.not_mem_nil, or_false] at hpart
    rcases hpart with rfl | rfl <;> rfl

namespace Store

/-- A property of stores that looks at rows and multi addresses only. -/
def SeesRows (P : Set LedgerOutput → Store → Prop) : Prop :=
  ∀ (unspent : Set LedgerOutput) (store other : Store),
    (∀ kind id, other.row? kind id = store.row? kind id) → other.links = store.links →
      P unspent store → P unspent other

end Store

namespace Index

variable {index : Index} {operation : Operation} {operations : List Operation}
  {P : Set LedgerOutput → Store → Prop} {unspent : Set LedgerOutput}

/-- Every step of the parts of an operation keeps a property. -/
def StepsKeep (P : Set LedgerOutput → Store → Prop) (operation : Operation) : Prop :=
  ∀ part ∈ operation.parts, ∀ (unspent : Set LedgerOutput) (writer last : Writer),
    writer.Ready → Step writer part last → P unspent writer.store →
      P (part.next unspent) last.store

/-- The outputs that are unspent by what is committed, after some operations. -/
def unspentAfter (unspent : Set LedgerOutput) (operations : List Operation) : Set LedgerOutput :=
  (operations.filterMap Operation.committed?).foldl LedgerUpdate.apply unspent

lemma mem_of_mem_successes (h : operation ∈ index.successes operations) :
    operation ∈ operations := by
  induction operations generalizing index with
  | nil => cases h
  | cons first rest ih =>
    rw [successes] at h
    split at h
    · rcases List.mem_cons.1 h with rfl | h
      · exact List.mem_cons_self
      · exact List.mem_cons_of_mem _ (ih h)
    · exact List.mem_cons_of_mem _ (ih h)

lemma exact_of_status {store : Store} (h : store.Exact) (status : Option Status) :
    Store.Exact { store with status := status } :=
  h.of_row?_eq (fun _ _ => rfl) rfl

lemma after_preserves (unspent : Set LedgerOutput) (hsees : Store.SeesRows P)
    (hsucceeds : index.succeeds operation = true) (hkeep : StepsKeep P operation)
    (hexact : index.store.Exact) (hP : P unspent index.store) :
    (index.after operation).store.Exact ∧
      P (unspentAfter unspent [operation]) (index.after operation).store := by
  have hready := Writer.ready_start hexact index.fault
  cases operation with
  | accept update =>
    obtain ⟨-, writer, hsteps, hafter⟩ := steps_of_accept hsucceeds
    have hkept := hsteps.preserves unspent hkeep hready hP
    rw [foldl_next_eq_self rfl] at hkept
    rw [hafter]
    exact ⟨(hsteps.ready hready).exact, hkept⟩
  | commit update =>
    obtain ⟨status, writer, hcommits, hafter⟩ := commits_of_succeeds hsucceeds
    have hsteps := Steps.of_run hcommits.parts
    have hkept := hsteps.preserves unspent hkeep hready hP
    rw [foldl_next_commit] at hkept
    rw [hafter]
    -- what comes after the parts is the status, which the property does not see
    refine ⟨exact_of_status (hsteps.ready hready).exact _, ?_⟩
    exact hsees _ writer.store _ (fun _ _ => rfl) rfl hkept
  | rollback =>
    obtain ⟨writer, hsteps, hafter⟩ := steps_of_rollback hsucceeds
    have hkept := hsteps.preserves unspent hkeep hready hP
    rw [foldl_next_eq_self rfl] at hkept
    rw [hafter]
    exact ⟨(hsteps.ready hready).exact, hkept⟩

lemma exact_after (h : index.store.Exact) (operation : Operation) :
    (index.after operation).store.Exact := by
  cases hsucceeds : index.succeeds operation with
  | false =>
    rw [after_eq_self hsucceeds]
    exact h
  | true =>
    have hkeep : StepsKeep (fun _ _ => True) operation := fun _ _ _ _ _ _ _ _ => trivial
    exact (after_preserves ∅ (fun _ _ _ _ _ _ => trivial) hsucceeds hkeep h trivial).1

lemma exact_foldl_after (h : index.store.Exact) : (operations.foldl after index).store.Exact := by
  induction operations generalizing index with
  | nil => exact h
  | cons operation rest ih => exact ih (exact_after h operation)

/-- What the steps of all operations that succeed keep holds after any sequence of operations. -/
lemma foldl_after_preserves (unspent : Set LedgerOutput) (hsees : Store.SeesRows P)
    (hkeep : ∀ operation ∈ index.successes operations, StepsKeep P operation)
    (hexact : index.store.Exact) (hP : P unspent index.store) :
    (operations.foldl after index).store.Exact ∧
      P (unspentAfter unspent (index.successes operations))
        (operations.foldl after index).store := by
  induction operations generalizing index unspent with
  | nil => exact ⟨hexact, hP⟩
  | cons operation rest ih =>
    rw [List.foldl_cons]
    cases hsucceeds : index.succeeds operation with
    | false =>
      rw [successes, hsucceeds, if_neg Bool.false_ne_true, after_eq_self hsucceeds] at hkeep ⊢
      exact ih unspent hkeep hexact hP
    | true =>
      rw [successes, hsucceeds, if_pos rfl] at hkeep ⊢
      have hfirst := hkeep operation List.mem_cons_self
      have hrest := fun o ho => hkeep o (List.mem_cons_of_mem operation ho)
      obtain ⟨hexact', hP'⟩ := after_preserves unspent hsees hsucceeds hfirst hexact hP
      -- what is unspent in the end is the same, whether the first commit is applied apart or not
      convert ih _ hrest hexact' hP' using 2
      rw [unspentAfter, List.filterMap_cons]
      cases operation <;> rfl

/-! ## The status -/

lemma run_status (index : Index) :
    Index.status.run.run index =
      match index.store.status with
      | some status => (.ok status, index)
      | none => (.error .statusNotFound, index) := by
  have hget : (get : IndexM Index).run.run index = (.ok index, index) := rfl
  rw [Index.status, run_bind_of_ok hget]
  cases index.store.status <;> rfl

lemma status_after (hsucceeds : index.succeeds operation = true) :
    (index.after operation).store.status =
      (operation.committed?.elim index.store.status fun update =>
        index.store.status.map (·.advance update)) := by
  cases operation with
  | accept update =>
    obtain ⟨-, writer, hsteps, hafter⟩ := steps_of_accept hsucceeds
    rw [hafter]
    exact hsteps.sameFrame.status
  | commit update =>
    obtain ⟨status, writer, hcommits, hafter⟩ := commits_of_succeeds hsucceeds
    rw [hafter, hcommits.stored]
    rfl
  | rollback =>
    obtain ⟨writer, hsteps, hafter⟩ := steps_of_rollback hsucceeds
    rw [hafter]
    exact hsteps.sameFrame.status

lemma handle_after (hsucceeds : index.succeeds operation = true) :
    (index.after operation).fault = index.fault ∧
      (index.after operation).committedSlot =
        operation.committed?.elim index.committedSlot fun update =>
          max index.committedSlot update.slot := by
  cases operation with
  | accept update =>
    obtain ⟨-, writer, -, hafter⟩ := steps_of_accept hsucceeds
    rw [hafter]
    exact ⟨rfl, rfl⟩
  | commit update =>
    obtain ⟨status, writer, -, hafter⟩ := commits_of_succeeds hsucceeds
    rw [hafter]
    exact ⟨rfl, rfl⟩
  | rollback =>
    obtain ⟨writer, -, hafter⟩ := steps_of_rollback hsucceeds
    rw [hafter]
    exact ⟨rfl, rfl⟩

/-- A commit that succeeds brings the handle to its slot. -/
lemma committedSlot_after_commit (hsucceeds : index.succeeds (.commit update) = true) :
    (index.after (.commit update)).committedSlot = update.slot := by
  obtain ⟨status, writer, hcommits, hafter⟩ := commits_of_succeeds hsucceeds
  rw [hafter]
  exact if_pos hcommits.known

/-- The status changes with the commits that succeed and with nothing else. -/
lemma status_foldl_after {status : Status} (hstatus : index.store.status = some status) :
    (operations.foldl after index).store.status =
      some (((index.successes operations).filterMap Operation.committed?).foldl
        Status.advance status) := by
  induction operations generalizing index status with
  | nil => exact hstatus
  | cons operation rest ih =>
    rw [List.foldl_cons, successes]
    cases hsucceeds : index.succeeds operation with
    | false =>
      rw [after_eq_self hsucceeds, if_neg Bool.false_ne_true]
      exact ih hstatus
    | true =>
      rw [if_pos rfl, List.filterMap_cons]
      have hafter := status_after hsucceeds
      rw [hstatus] at hafter
      cases operation with
      | accept update => exact ih hafter
      | commit update => exact ih hafter
      | rollback => exact ih hafter

end Index

end OutputIndex
