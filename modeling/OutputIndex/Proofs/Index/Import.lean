import OutputIndex.Index.Import
import OutputIndex.Proofs.Index.Operations

/-!
# Bulk imports

A call of an import loads the outputs it is given, each as final and live, or it fails and changes
nothing (`Import.run_call`).  So the calls of an import load the outputs of those that succeed
(`Import.loads_taken`).  An import that is ended makes an exact store of any keyed one
(`Import.Loads.exact_finished`), with its outputs among those that are unspent by what is committed
(`Import.finished_preserves`).
-/

namespace OutputIndex

/-- The later of two slots is not beyond a third just if neither of them is. -/
instance : Std.LawfulOrderSup Slot where
  max_le_iff first second slot := by
    show (if first ≤ second then second else first) ≤ slot ↔ _
    split
    · rename_i hle
      exact ⟨fun h => ⟨UInt32.le_trans hle h, h⟩, And.right⟩
    · rename_i hnot
      have hle : second ≤ first := UInt32.le_of_lt (UInt32.not_le.1 hnot)
      exact ⟨fun h => ⟨h, UInt32.le_trans hle h⟩, And.left⟩

namespace Import

/-- A call of an import. -/
inductive Call where
  | add (output : LedgerOutput)
  | addAll (outputs : List LedgerOutput)
deriving DecidableEq

/-- What a call does. -/
def Call.run : Call → ImportM Unit
  | .add output => Import.add output
  | .addAll outputs => Import.addAll outputs

/-- The outputs that a call is given. -/
def Call.outputs : Call → List LedgerOutput
  | .add output => [output]
  | .addAll outputs => outputs

/-- The import after a call, whether it succeeds or not. -/
def after (state : Import) (call : Call) : Import := (call.run.run.run state).2

/-- Whether a call succeeds. -/
def succeeds (state : Import) (call : Call) : Bool := (call.run.run.run state).1.isOk

/-- The outputs of the calls of a sequence that succeed. -/
def taken (state : Import) : List Call → List LedgerOutput
  | [] => []
  | call :: rest =>
    (if state.succeeds call then call.outputs else []) ++ taken (state.after call) rest

/-- The import with one more output. -/
def load (state : Import) (record : OutputRecord) (output : LedgerOutput) : Import where
  writer := state.writer.enter record output
  lastSlot := max state.lastSlot record.about.createdAtSlot
  imported := state.imported + 1

/-- What loading some outputs makes of an import. -/
inductive Loads : Import → List LedgerOutput → Import → Prop where
  | nil (state : Import) : Loads state [] state
  | cons {state last : Import} {output : LedgerOutput} {record : OutputRecord}
      {rest : List LedgerOutput} (hrecord : OutputRecord.ofLedgerOutput output true = .ok record)
      (hrest : Loads (state.load record output) rest last) : Loads state (output :: rest) last

variable {state last : Import} {output : LedgerOutput} {outputs : List LedgerOutput}
  {record : OutputRecord}

/-! ## Calls load outputs -/

lemma run_write {α : Type} (body : WriteM α) (state : Import) :
    (write body).run.run state =
      match body.run state.writer with
      | .error cause => (.error cause, state)
      | .ok (result, writer) => (.ok result, { state with writer }) := by
  have hget : (get : ImportM Import).run.run state = (.ok state, state) := rfl
  rw [write, run_bind_of_ok hget]
  cases body.run state.writer <;> rfl

lemma run_put (hid : record.outputId = output.outputId) (state : Import) :
    (put record output.output.addresses).run.run state =
      if state.writer.fault = .writer .writeOutput then
        (.error (.storage (.injected state.writer.fault)), state)
      else (.ok (), state.load record output) := by
  have hwrite := run_write (WriteM.writeOutput record) state
  rw [WriteM.run_writeOutput] at hwrite
  by_cases hfault : state.writer.fault = .writer .writeOutput
  · rw [if_pos hfault] at hwrite ⊢
    rw [put, run_bind_of_error hwrite]
  · rw [if_neg hfault] at hwrite ⊢
    rw [put, run_bind_of_ok hwrite, hid]
    rfl

lemma prepare_eq_ok_iff {pair : OutputRecord × List Address} :
    prepare output = .ok pair ↔
      OutputRecord.ofLedgerOutput output true = .ok pair.1 ∧ pair.2 = output.output.addresses := by
  unfold prepare
  cases OutputRecord.ofLedgerOutput output true with
  | error cause => simp
  | ok record =>
    obtain ⟨r, addresses⟩ := pair
    simp [eq_comm]

lemma outputId_of_ok {committed : Bool}
    (h : OutputRecord.ofLedgerOutput output committed = .ok record) :
    record.outputId = output.outputId :=
  (OutputRecord.records_of_ok h).outputId

lemma mapM_prepare_cons {prepared : List (OutputRecord × List Address)}
    (h : (output :: outputs).mapM prepare = .ok prepared) :
    ∃ record rest, OutputRecord.ofLedgerOutput output true = .ok record ∧
      outputs.mapM prepare = .ok rest ∧ prepared = (record, output.output.addresses) :: rest := by
  rw [List.mapM_cons] at h
  obtain ⟨⟨record, addresses⟩, hfirst, h⟩ := bind_eq_ok_iff.1 h
  obtain ⟨rest, hrest, heq⟩ := bind_eq_ok_iff.1 h
  obtain ⟨hrecord, rfl⟩ := prepare_eq_ok_iff.1 hfirst
  cases heq
  exact ⟨record, rest, hrecord, hrest, rfl⟩

/-- Puts what is prepared. -/
def putAll (prepared : List (OutputRecord × List Address)) : ImportM Unit :=
  prepared.forM fun (record, addresses) => put record addresses

/-- Prepared outputs are all loaded if they can be written. -/
lemma exists_run_putAll {prepared : List (OutputRecord × List Address)}
    (hprepared : outputs.mapM prepare = .ok prepared)
    (hfault : state.writer.fault ≠ .writer .writeOutput) :
    ∃ last, (putAll prepared).run.run state = (.ok (), last) ∧ Loads state outputs last := by
  induction outputs generalizing state prepared with
  | nil =>
    cases hprepared
    exact ⟨state, rfl, .nil state⟩
  | cons output rest ih =>
    obtain ⟨record, others, hrecord, hrest, rfl⟩ := mapM_prepare_cons hprepared
    have hput := run_put (outputId_of_ok hrecord) state
    rw [if_neg hfault] at hput
    have hkept : (state.load record output).writer.fault = state.writer.fault :=
      (Writer.sameFrame_enter state.writer record output).fault
    have hwrites : (state.load record output).writer.fault ≠ .writer .writeOutput := hkept ▸ hfault
    obtain ⟨last, hlast, hloads⟩ := ih hrest hwrites
    exact ⟨last, (run_bind_of_ok hput).trans hlast, .cons hrecord hloads⟩

/-- Prepared outputs are all loaded, unless the first of them cannot be written. -/
lemma run_putAll {prepared : List (OutputRecord × List Address)}
    (hprepared : outputs.mapM prepare = .ok prepared) (state : Import) :
    (∃ last, (putAll prepared).run.run state = (.ok (), last) ∧ Loads state outputs last) ∨
      ∃ cause, (putAll prepared).run.run state = (.error cause, state) := by
  by_cases hfault : state.writer.fault = .writer .writeOutput
  · cases outputs with
    | nil =>
      cases hprepared
      exact .inl ⟨state, rfl, .nil state⟩
    | cons output rest =>
      -- what keeps the first output from being written keeps all of them
      obtain ⟨record, others, hrecord, -, rfl⟩ := mapM_prepare_cons hprepared
      have hput := run_put (outputId_of_ok hrecord) state
      rw [if_pos hfault] at hput
      exact .inr ⟨_, run_bind_of_error hput⟩
  · exact .inl (exists_run_putAll hprepared hfault)

lemma run_add (output : LedgerOutput) (state : Import) :
    (add output).run.run state =
      match OutputRecord.ofLedgerOutput output true with
      | .error cause => (.error (.codec cause), state)
      | .ok record => (put record output.output.addresses).run.run state := by
  rw [add, prepare]
  cases OutputRecord.ofLedgerOutput output true <;> rfl

lemma run_addAll (outputs : List LedgerOutput) (state : Import) :
    (addAll outputs).run.run state =
      match outputs.mapM prepare with
      | .error cause => (.error cause, state)
      | .ok prepared => (putAll prepared).run.run state := by
  rw [addAll]
  cases outputs.mapM prepare <;> rfl

/-- A call loads the outputs it is given, or it fails and changes nothing. -/
lemma run_call (call : Call) (state : Import) :
    (∃ last, call.run.run.run state = (.ok (), last) ∧ Loads state call.outputs last) ∨
      ∃ cause, call.run.run.run state = (.error cause, state) := by
  cases call with
  | add output =>
    rw [Call.run, run_add]
    cases hrecord : OutputRecord.ofLedgerOutput output true with
    | error cause => exact .inr ⟨_, rfl⟩
    | ok record =>
      dsimp only
      rw [run_put (outputId_of_ok hrecord)]
      split
      · exact .inr ⟨_, rfl⟩
      · exact .inl ⟨_, rfl, .cons hrecord (.nil _)⟩
  | addAll outputs =>
    rw [Call.run, run_addAll]
    cases hprepared : outputs.mapM prepare with
    | error cause => exact .inr ⟨_, rfl⟩
    | ok prepared => exact run_putAll hprepared state

lemma Loads.append {middle : Import} {rest : List LedgerOutput} (h : Loads state outputs middle)
    (h' : Loads middle rest last) : Loads state (outputs ++ rest) last := by
  induction h with
  | nil => exact h'
  | cons hrecord _ ih => exact .cons hrecord (ih h')

/-- The calls of an import load the outputs of those that succeed. -/
lemma loads_taken (state : Import) (calls : List Call) :
    Loads state (state.taken calls) (calls.foldl after state) := by
  induction calls generalizing state with
  | nil => exact .nil state
  | cons call rest ih =>
    rw [List.foldl_cons, taken]
    rcases run_call call state with ⟨last, hrun, hloads⟩ | ⟨cause, hrun⟩
    · have hsucceeds : state.succeeds call = true := by rw [succeeds, hrun]; rfl
      have hafter : state.after call = last := by rw [after, hrun]
      rw [hsucceeds, if_pos rfl, hafter]
      exact hloads.append (ih last)
    · have hfails : state.succeeds call = false := by rw [succeeds, hrun]; rfl
      have hafter : state.after call = state := by rw [after, hrun]
      rw [hfails, if_neg Bool.false_ne_true, hafter]
      exact ih state

lemma mem_calls_of_mem_taken {calls : List Call}
    (h : output ∈ state.taken calls) : output ∈ calls.flatMap (·.outputs) := by
  induction calls generalizing state with
  | nil => cases h
  | cons call rest ih =>
    rw [List.flatMap_cons]
    rcases List.mem_append.1 h with h | h
    · split at h
      · exact List.mem_append_left _ h
      · cases h
    · exact List.mem_append_right _ (ih h)

/-! ## Whole imports -/

lemma Loads.keyed (h : Loads state outputs last) (hkeyed : state.writer.store.Keyed) :
    last.writer.store.Keyed := by
  induction h with
  | nil => exact hkeyed
  | @cons state _ output record _ _ _ ih =>
    have hput := Writer.keyed_putRecord hkeyed record
    have hsame := Store.sameRecords_recordReferences (state.writer.putRecord record).store
      output.outputId output.output.addresses
    exact ih (hput.of_row?_eq hsame.row?_eq)

lemma Loads.preserves {P : Set LedgerOutput → Store → Prop} {unspent : Set LedgerOutput}
    (hload : ∀ output ∈ outputs, ∀ (unspent : Set LedgerOutput) (writer : Writer)
      (record : OutputRecord), OutputRecord.ofLedgerOutput output true = .ok record →
        P unspent writer.store → P (insert output unspent) (writer.enter record output).store)
    (h : Loads state outputs last) (hP : P unspent state.writer.store) :
    P (unspent ∪ {output | output ∈ outputs}) last.writer.store := by
  induction h generalizing unspent with
  | nil => simpa using hP
  | @cons state last output record rest hrecord _ ih =>
    have hfirst := hload output List.mem_cons_self unspent state.writer record hrecord hP
    have hrest := ih (fun o ho => hload o (List.mem_cons_of_mem _ ho)) hfirst
    convert hrest using 1
    ext o
    simp only [Set.mem_union, Set.mem_insert_iff, Set.mem_ofPred_eq, List.mem_cons]
    rw [or_left_comm, or_assoc]

/-- The store of an import that is ended: the tables beside the rows are built and the status is
put. -/
def finished (state : Import) (status : Status) : Store :=
  { state.writer.store.buildIndexes with status := some status }

lemma run_finalizeWrite_eq_ok {status : Status} {writer next : Writer} {store : Store}
    (h : (finalizeWrite status).run writer = .ok (store, next)) :
    store = { writer.store.buildIndexes with status := some status } := by
  have hbuild : WriteM.buildIndexes.run writer =
      .ok ((), { writer with store := writer.store.buildIndexes, indexed := true }) := rfl
  rw [finalizeWrite, WriteM.run_bind_of_ok hbuild] at h
  obtain ⟨_, written, hwrite, hcommit⟩ := WriteM.run_bind_eq_ok_iff.1 h
  rw [WriteM.run_writeStatus] at hwrite
  split at hwrite <;> cases hwrite
  rw [WriteM.run_commit] at hcommit
  split at hcommit <;> cases hcommit
  rfl

lemma run_finalize_eq_ok {ledgerSlot : Slot} {protocolVersion : UInt8} {networkName : String}
    {status : Status} {index next : Index}
    (h : (state.finalize ledgerSlot protocolVersion networkName).run.run index =
      (.ok status, next)) :
    status = state.status ledgerSlot protocolVersion networkName ∧
      next = { index with
        store := state.finished status, committedSlot := status.committedSlot } := by
  unfold finalize at h
  dsimp only at h
  split at h
  · cases h
  · rename_i hwrite
    cases h
    rw [run_finalizeWrite_eq_ok hwrite]
    exact ⟨rfl, rfl⟩

/-- An import whose end fails changes nothing. -/
lemma eq_of_run_finalize_error {ledgerSlot : Slot} {protocolVersion : UInt8} {networkName : String}
    {cause : IndexError} {index next : Index}
    (h : (state.finalize ledgerSlot protocolVersion networkName).run.run index =
      (.error cause, next)) : next = index := by
  unfold finalize at h
  dsimp only at h
  split at h
  · exact (congrArg Prod.snd h).symm
  · cases h

lemma Loads.exact_finished (h : Loads state outputs last) (hkeyed : state.writer.store.Keyed)
    (status : Status) : (last.finished status).Exact :=
  Index.exact_of_status (h.keyed hkeyed).exact_buildIndexes (some status)

lemma keyed_start {index : Index} (h : index.store.Keyed) : (start index).writer.store.Keyed :=
  h.of_row?_eq index.store.row?_dropIndexes

/-- What loading an output keeps is kept by a whole import, with the imported outputs unspent. -/
lemma finished_preserves {P : Set LedgerOutput → Store → Prop} (unspent : Set LedgerOutput)
    {index : Index} (hsees : Store.SeesRows P)
    (hload : ∀ output ∈ outputs, ∀ (unspent : Set LedgerOutput) (writer : Writer)
      (record : OutputRecord), OutputRecord.ofLedgerOutput output true = .ok record →
        P unspent writer.store → P (insert output unspent) (writer.enter record output).store)
    (h : Loads (start index) outputs last) (status : Status) (hP : P unspent index.store) :
    P (unspent ∪ {output | output ∈ outputs}) (last.finished status) := by
  have hdropped : P unspent (start index).writer.store :=
    hsees unspent index.store _ index.store.row?_dropIndexes rfl hP
  have hloaded := h.preserves hload hdropped
  refine hsees _ last.writer.store _ last.writer.store.row?_buildIndexes ?_ hloaded
  exact Store.links_foldl_index _ last.writer.store.cleared

end Import

end OutputIndex
