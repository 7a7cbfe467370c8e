import Mathlib.Data.List.Nodup
import OutputIndex.Proofs.Index.Residue

/-!
# Bulk imports and commits

Outputs can be loaded into an empty store on two routes: by an import, which puts the rows first
and builds the tables beside them at its end, and by a commit after an import of nothing, which
keeps all tables up to date row by row.  Both routes lead to the same index, in whatever order the
outputs are imported and however they are split into calls (`Index.load_eq_commit`).

Where nothing is made to fail and every output has a record, no call of the import fails
(`Import.allSucceed_of_records`) and neither does the commit.  Then both stores are exact and
settled, and the same outputs are unspent in them, which determines all else.
-/

namespace OutputIndex

/-! ## The highest of some slots -/

lemma foldl_max_le_iff {slots : List Slot} {first slot : Slot} :
    slots.foldl max first ≤ slot ↔ first ≤ slot ∧ ∀ s ∈ slots, s ≤ slot := by
  induction slots generalizing first with
  | nil => simp
  | cons s rest ih =>
    rw [List.foldl_cons, ih, Std.max_le_iff, List.forall_mem_cons, and_assoc]

lemma Slot.eq_of_forall_le_iff {first second : Slot}
    (h : ∀ slot, first ≤ slot ↔ second ≤ slot) : first = second :=
  UInt32.le_antisymm ((h second).2 (UInt32.le_refl _)) ((h first).1 (UInt32.le_refl _))

/-- The output has a final record. -/
def LedgerOutput.HasRecord (output : LedgerOutput) : Prop :=
  ∃ record, OutputRecord.ofLedgerOutput output true = .ok record

lemma LedgerOutput.hasRecord_iff {output : LedgerOutput} :
    output.HasRecord ↔ (OutputRecord.ofLedgerOutput output true).isOk = true := by
  rw [HasRecord]
  cases OutputRecord.ofLedgerOutput output true with
  | error cause =>
    refine iff_of_false ?_ Bool.false_ne_true
    rintro ⟨record, h⟩
    cases h
  | ok record => exact iff_of_true ⟨record, rfl⟩ rfl

instance (output : LedgerOutput) : Decidable output.HasRecord :=
  decidable_of_iff _ LedgerOutput.hasRecord_iff.symm

/-! ## Imports that do not fail -/

namespace Import

variable {state last : Import} {call : Call} {calls : List Call} {outputs : List LedgerOutput}

/-- Every call of a sequence succeeds. -/
def AllSucceed (state : Import) : List Call → Prop
  | [] => True
  | call :: rest => state.succeeds call = true ∧ AllSucceed (state.after call) rest

lemma AllSucceed.taken_eq (h : state.AllSucceed calls) :
    state.taken calls = calls.flatMap (·.outputs) := by
  induction calls generalizing state with
  | nil => rfl
  | cons call rest ih =>
    rw [taken, h.1, if_pos rfl, ih h.2, List.flatMap_cons]

lemma Loads.fault (h : Loads state outputs last) : last.writer.fault = state.writer.fault := by
  induction h with
  | nil => rfl
  | @cons state _ output record _ _ _ ih =>
    exact ih.trans (Writer.sameFrame_enter state.writer record output).fault

/-- An import has seen the slots of what it has loaded. -/
lemma Loads.lastSlot_le_iff (h : Loads state outputs last) {slot : Slot} :
    last.lastSlot ≤ slot ↔ state.lastSlot ≤ slot ∧ ∀ output ∈ outputs, output.bookedAt ≤ slot := by
  induction h with
  | nil => simp
  | @cons state _ output record _ hrecord _ ih =>
    have hslot : (state.load record output).lastSlot = max state.lastSlot output.bookedAt := by
      rw [load, OutputRecord.about_of_ok hrecord]
      rfl
    rw [ih, hslot, Std.max_le_iff, List.forall_mem_cons, and_assoc]

lemma exists_mapM_prepare
    (hrecords : ∀ output ∈ outputs, output.HasRecord) :
    ∃ prepared, outputs.mapM prepare = .ok prepared := by
  induction outputs with
  | nil => exact ⟨[], rfl⟩
  | cons output rest ih =>
    obtain ⟨record, hrecord⟩ := hrecords output List.mem_cons_self
    obtain ⟨prepared, hprepared⟩ := ih fun o ho => hrecords o (List.mem_cons_of_mem _ ho)
    have hfirst : prepare output = .ok (record, output.output.addresses) :=
      prepare_eq_ok_iff.2 ⟨hrecord, rfl⟩
    rw [List.mapM_cons, hfirst]
    exact ⟨_, bind_eq_ok_iff.2 ⟨_, rfl, bind_eq_ok_iff.2 ⟨_, hprepared, rfl⟩⟩⟩

/-- A call succeeds if its outputs have records and can be written. -/
lemma succeeds_of_records (hfault : state.writer.fault ≠ .writer .writeOutput)
    (hrecords : ∀ output ∈ call.outputs, output.HasRecord) :
    state.succeeds call = true := by
  have hrun : ∃ last, call.run.run.run state = (.ok (), last) := by
    cases call with
    | add output =>
      obtain ⟨record, hrecord⟩ := hrecords output (List.mem_singleton.2 rfl)
      refine ⟨state.load record output, ?_⟩
      rw [Call.run, run_add, hrecord]
      dsimp only
      rw [run_put (outputId_of_ok hrecord), if_neg hfault]
    | addAll outputs =>
      obtain ⟨prepared, hprepared⟩ : ∃ prepared, outputs.mapM prepare = .ok prepared :=
        exists_mapM_prepare hrecords
      obtain ⟨last, hlast, -⟩ := exists_run_putAll hprepared hfault
      refine ⟨last, ?_⟩
      rw [Call.run, run_addAll, hprepared]
      exact hlast
  obtain ⟨last, hrun⟩ := hrun
  rw [succeeds, hrun]
  rfl

/-- Calls succeed if all their outputs have records and can be written. -/
lemma allSucceed_of_records (hfault : state.writer.fault ≠ .writer .writeOutput)
    (hrecords : ∀ output ∈ calls.flatMap (·.outputs), output.HasRecord) :
    state.AllSucceed calls := by
  induction calls generalizing state with
  | nil => trivial
  | cons call rest ih =>
    rw [List.flatMap_cons] at hrecords
    have hsucceeds : state.succeeds call = true :=
      succeeds_of_records hfault fun o ho => hrecords o (List.mem_append_left _ ho)
    have hkept : (state.after call).writer.fault = state.writer.fault :=
      (loads_taken state [call]).fault
    exact ⟨hsucceeds, ih (hkept ▸ hfault) fun o ho => hrecords o (List.mem_append_right _ ho)⟩

/-- An import comes to its end if its status can be written and it can be committed. -/
lemma run_finalize (hwrite : state.writer.fault ≠ .writer .writeStatus)
    (hcommit : state.writer.fault ≠ .writer .commit) (ledgerSlot : Slot) (protocolVersion : UInt8)
    (networkName : String) (index : Index) :
    let status := state.status ledgerSlot protocolVersion networkName
    (state.finalize ledgerSlot protocolVersion networkName).run.run index =
      (.ok status, { index with
        store := state.finished status, committedSlot := status.committedSlot }) := by
  intro status
  let built : Writer :=
    { state.writer with store := state.writer.store.buildIndexes, indexed := true }
  let written : Writer := { built with store := state.finished status }
  have hbuild : WriteM.buildIndexes.run state.writer = .ok ((), built) := rfl
  have hstatus : (WriteM.writeStatus status).run built = .ok ((), written) := by
    rw [WriteM.run_writeStatus, if_neg hwrite]
    rfl
  have hend : WriteM.commit.run written = .ok (state.finished status, written) := by
    rw [WriteM.run_commit, if_neg hcommit]
  have hrun : (finalizeWrite status).run state.writer = .ok (state.finished status, written) := by
    rw [finalizeWrite, WriteM.run_bind_of_ok hbuild, WriteM.run_bind_of_ok hstatus, hend]
  rw [finalize, show state.status ledgerSlot protocolVersion networkName = status from rfl, hrun]
  rfl

end Import

/-! ## Stores that hold some outputs -/

namespace Store

variable {known unspent : Set LedgerOutput} {store other : Store}

/-- The store holds some unspent outputs and nothing else. -/
structure Holds (known unspent : Set LedgerOutput) (store : Store) : Prop where
  exact : store.Exact
  tidy : Tidy known unspent store
  settled : store.Settled

/-- What a store holds and its status determine the store. -/
lemma Holds.eq (h : Holds known unspent store) (h' : Holds known unspent other)
    (hconsistent : Consistent known) (hdigests : DigestsDiffer (definitionsOf known))
    (hstatus : store.status = other.status) : store = other :=
  h.tidy.eq_of_settled h'.tidy hconsistent hdigests h.exact h'.exact h.settled h'.settled hstatus

/-- An import into the empty store holds what it has loaded. -/
lemma holds_finished {outputs : List LedgerOutput} {state : Import} {fault : Fault}
    (hloads : Import.Loads (.start (.attach .empty fault)) outputs state)
    (hconsistent : Consistent known) (hknown : ∀ output ∈ outputs, output ∈ known)
    (status : Status) : Holds known {output | output ∈ outputs} (state.finished status) where
  exact := hloads.exact_finished (Import.keyed_start keyed_empty) status
  tidy := by
    have htidy := Import.finished_preserves ∅ (Tidy.seesRows known)
      (fun output houtput _ _ _ hrecord h =>
        h.enter_final hconsistent (hknown output houtput) hrecord)
      hloads status (Tidy.empty known)
    rw [Set.empty_union] at htidy
    exact htidy
  settled := by
    have hempty : (Index.attach .empty fault).store.Settled := AllRows.empty
    exact hempty.finished hloads status

/-- A commit that succeeds leaves what is unspent by its update. -/
lemma Holds.commit {index : Index} {update : LedgerUpdate} (h : Holds known unspent index.store)
    (hconsistent : Consistent known)
    (hknown : ∀ output ∈ (Operation.commit update).outputs, output ∈ known)
    (hsucceeds : index.succeeds (.commit update) = true) :
    Holds known (update.apply unspent) (index.after (.commit update)).store := by
  obtain ⟨hexact, htidy⟩ := Index.after_preserves unspent (Tidy.seesRows known) hsucceeds
    (Tidy.stepsKeep hconsistent hknown) h.exact h.tidy
  exact ⟨hexact, htidy,
    Index.settled_after_commit h.exact (h.settled.within update.slot) hsucceeds⟩

end Store

lemma LedgerUpdate.apply_empty_created (slot : Slot) (outputs : List LedgerOutput) :
    LedgerUpdate.apply ∅ ⟨slot, [], outputs⟩ = {output | output ∈ outputs} := by
  ext output
  simp [apply, Consumes]

/-! ## Commits that do not fail -/

/-- Outputs are taken over for good if they have records and can be written. -/
lemma Part.exists_run_forM_finalize {outputs : List LedgerOutput} {writer : Writer}
    (hfault : writer.fault ≠ .writer .writeOutput)
    (hrecords : ∀ output ∈ outputs, output.HasRecord) :
    ∃ last, ((outputs.map Part.finalize).forM run).run writer = .ok ((), last) := by
  induction outputs generalizing writer with
  | nil => exact ⟨writer, rfl⟩
  | cons output rest ih =>
    obtain ⟨record, hrecord⟩ := hrecords output List.mem_cons_self
    obtain ⟨middle, hfirst⟩ := WriteM.exists_run_insertOutput hfault hrecord
    have hstep : Step writer (.finalize output) middle := .of_run hfirst
    have hkept : middle.fault = writer.fault := hstep.sameFrame.fault
    obtain ⟨last, hrest⟩ := ih (hkept ▸ hfault) fun o ho => hrecords o (List.mem_cons_of_mem _ ho)
    exact ⟨last, (WriteM.run_bind_of_ok hfirst).trans hrest⟩

namespace Index

variable {known unspent : Set LedgerOutput} {index : Index} {status : Status} {slot : Slot}
  {outputs : List LedgerOutput}

/-- A commit that consumes nothing succeeds if its slot is not behind, its outputs have records and
nothing is made to fail. -/
lemma exists_commits_of_records (hfault : index.fault = .none)
    (hknown : index.committedSlot ≤ slot) (hstored : index.store.status = some status)
    (hbehind : status.committedSlot ≤ slot)
    (hrecords : ∀ output ∈ outputs, output.HasRecord) :
    ∃ writer, Commits index status ⟨slot, [], outputs⟩ writer := by
  let update : LedgerUpdate := ⟨slot, [], outputs⟩
  have hparts : (Operation.commit update).parts =
      .settle slot :: update.netCreated.map .finalize := by
    simp [Operation.parts, LedgerUpdate.netConsumed, update]
  have hsettle := WriteM.run_removeUncommitted slot (.start index.store index.fault)
  have hkept : ((Writer.start index.store index.fault).settle slot).fault = .none :=
    (Writer.sameFrame_settle _ slot).fault.trans hfault
  have hwrites : ((Writer.start index.store index.fault).settle slot).fault ≠
      .writer .writeOutput := by simp [hkept]
  have hcreated : ∀ output ∈ update.netCreated, output.HasRecord :=
    fun output houtput => hrecords output (LedgerUpdate.mem_netCreated_iff.1 houtput).1
  obtain ⟨writer, hrest⟩ := Part.exists_run_forM_finalize hwrites hcreated
  refine ⟨writer, {
    known := hknown
    stored := hstored
    behind := hbehind
    parts := ?_
    writeStatus := by simp [hfault]
    commit := by simp [hfault] }⟩
  rw [hparts]
  exact (WriteM.run_bind_of_ok hsettle).trans hrest

/-! ## Both routes -/

/-- The slot that is committed once some outputs are loaded at a ledger slot. -/
def loadedSlot (ledgerSlot : Slot) (outputs : List LedgerOutput) : Slot :=
  (outputs.map (·.bookedAt)).foldl max ledgerSlot

lemma loadedSlot_le_iff {ledgerSlot : Slot} :
    loadedSlot ledgerSlot outputs ≤ slot ↔
      ledgerSlot ≤ slot ∧ ∀ output ∈ outputs, output.bookedAt ≤ slot := by
  rw [loadedSlot, foldl_max_le_iff, List.forall_mem_map]

lemma loadedSlot_perm {others : List LedgerOutput} (h : outputs.Perm others)
    (ledgerSlot : Slot) : loadedSlot ledgerSlot outputs = loadedSlot ledgerSlot others := by
  refine Slot.eq_of_forall_le_iff fun slot => ?_
  simp only [loadedSlot_le_iff, h.mem_iff]

/-- The slot that an import ends with is that of what it has loaded. -/
lemma status_of_loads {state : Import} (h : Import.Loads (.start index) outputs state)
    (ledgerSlot : Slot) (protocolVersion : UInt8) (networkName : String) :
    state.status ledgerSlot protocolVersion networkName =
      ⟨loadedSlot ledgerSlot outputs, protocolVersion, networkName, layoutVersion⟩ := by
  have hslot : max ledgerSlot state.lastSlot = loadedSlot ledgerSlot outputs := by
    refine Slot.eq_of_forall_le_iff fun slot => ?_
    have hzero : (Import.start index).lastSlot ≤ slot := UInt32.zero_le
    rw [Std.max_le_iff, h.lastSlot_le_iff, loadedSlot_le_iff, and_iff_right hzero]
  rw [Import.status, hslot]

/-- The index holds some unspent outputs and nothing else, and its handle is in step with its
status. -/
structure Loaded (known unspent : Set LedgerOutput) (status : Status) (index : Index) : Prop where
  holds : Store.Holds known unspent index.store
  stored : index.store.status = some status
  committedSlot : index.committedSlot = status.committedSlot
  fault : index.fault = .none

/-- What is loaded determines the index. -/
lemma Loaded.eq {other : Index} (h : Loaded known unspent status index)
    (h' : Loaded known unspent status other) (hconsistent : Consistent known)
    (hdigests : Store.DigestsDiffer (Store.definitionsOf known)) : index = other := by
  have hstore := h.holds.eq h'.holds hconsistent hdigests (h.stored.trans h'.stored.symm)
  have hslot := h.committedSlot.trans h'.committedSlot.symm
  have hfault := h.fault.trans h'.fault.symm
  cases index
  cases other
  rw [mk.injEq]
  exact ⟨hstore, hslot, hfault⟩

/-- An import into the empty store comes to its end with what its calls have loaded. -/
lemma loaded_finalize {calls : List Import.Call}
    (hsucceed : (Import.start (attach .empty .none)).AllSucceed calls)
    (hcalls : (calls.flatMap (·.outputs)).Perm outputs) (hconsistent : Consistent known)
    (hknown : ∀ output ∈ outputs, output ∈ known) (ledgerSlot : Slot) (protocolVersion : UInt8)
    (networkName : String) :
    let status : Status :=
      ⟨loadedSlot ledgerSlot outputs, protocolVersion, networkName, layoutVersion⟩
    ∃ index, ((calls.foldl Import.after (.start (attach .empty .none))).finalize ledgerSlot
        protocolVersion networkName).run.run (attach .empty .none) = (.ok status, index) ∧
      Loaded known {output | output ∈ outputs} status index := by
  intro status
  have hmem : ∀ output, output ∈ calls.flatMap (·.outputs) ↔ output ∈ outputs :=
    fun _ => hcalls.mem_iff
  have hloads := Import.loads_taken (.start (attach .empty .none)) calls
  rw [hsucceed.taken_eq] at hloads
  have hstatus := status_of_loads hloads ledgerSlot protocolVersion networkName
  rw [loadedSlot_perm hcalls] at hstatus
  have hfault := hloads.fault
  have hrun := Import.run_finalize (by rw [hfault]; nofun) (by rw [hfault]; nofun) ledgerSlot
    protocolVersion networkName (attach .empty .none)
  rw [hstatus] at hrun
  have hholds := Store.holds_finished hloads hconsistent
    (fun output houtput => hknown output ((hmem output).1 houtput)) status
  simp only [hmem] at hholds
  exact ⟨_, hrun, hholds, rfl, rfl, rfl⟩

/-- A commit of outputs that have records succeeds and loads them. -/
lemma Loaded.commit (h : Loaded known ∅ status index) (hconsistent : Consistent known)
    (hknown : ∀ output ∈ outputs, output ∈ known)
    (hrecords : ∀ output ∈ outputs, output.HasRecord)
    (hslot : status.committedSlot ≤ slot) :
    ∃ next, (Index.commit ⟨slot, [], outputs⟩).run.run index = (.ok (), next) ∧
      Loaded known {output | output ∈ outputs} { status with committedSlot := slot } next := by
  let update : LedgerUpdate := ⟨slot, [], outputs⟩
  obtain ⟨writer, hcommits⟩ := exists_commits_of_records h.fault (h.committedSlot ▸ hslot) h.stored
    hslot hrecords
  have hsucceeds : index.succeeds (.commit update) = true := hcommits.succeeds.1
  refine ⟨index.after (.commit update), succeeds_iff.1 hsucceeds, ?_⟩
  have hlisted : ∀ output ∈ (Operation.commit update).outputs, output ∈ known := hknown
  have hholds := h.holds.commit hconsistent hlisted hsucceeds
  rw [LedgerUpdate.apply_empty_created] at hholds
  have hstatus := status_after hsucceeds
  rw [h.stored] at hstatus
  exact {
    holds := hholds
    stored := hstatus
    committedSlot := committedSlot_after_commit hsucceeds
    fault := (handle_after hsucceeds).1.trans h.fault }

/-- **Bulk imports agree with commits.**  Outputs with distinct identifiers that have records are
imported into the empty store without fail, in any order and by any calls, and the index is then the
same, tables and handle alike, as if an import of nothing had been ended and the outputs created by
one committed update of the highest of their slots. -/
theorem load_eq_commit (outputs : List LedgerOutput)
    (hids : (outputs.map (·.outputId)).Nodup)
    (hrecords : ∀ output ∈ outputs, output.HasRecord)
    (hdigests : Store.DigestsDiffer (Store.definitionsOf {output | output ∈ outputs}))
    (calls : List Import.Call) (hcalls : (calls.flatMap (·.outputs)).Perm outputs)
    (ledgerSlot : Slot) (protocolVersion : UInt8) (networkName : String) :
    let fresh := attach .empty .none
    let slot := loadedSlot ledgerSlot outputs
    (Import.start fresh).AllSucceed calls ∧
    ∃ imported opened,
      ((calls.foldl Import.after (.start fresh)).finalize ledgerSlot protocolVersion
        networkName).run.run fresh =
          (.ok ⟨slot, protocolVersion, networkName, layoutVersion⟩, imported) ∧
      ((Import.start fresh).finalize 0 protocolVersion networkName).run.run fresh =
          (.ok ⟨0, protocolVersion, networkName, layoutVersion⟩, opened) ∧
      (commit ⟨slot, [], outputs⟩).run.run opened = (.ok (), imported) := by
  intro fresh slot
  have hconsistent : Consistent {output | output ∈ outputs} :=
    fun output houtput other hother hid => List.inj_on_of_nodup_map hids houtput hother hid
  have hsucceed : (Import.start fresh).AllSucceed calls :=
    Import.allSucceed_of_records nofun fun output houtput =>
      hrecords output (hcalls.mem_iff.1 houtput)
  obtain ⟨imported, himport, hloaded⟩ := loaded_finalize hsucceed hcalls hconsistent
    (fun _ houtput => houtput) ledgerSlot protocolVersion networkName
  have hnone : (Import.start fresh).AllSucceed [] := trivial
  obtain ⟨opened, hopen, hnothing⟩ := loaded_finalize hnone (.refl []) hconsistent nofun 0
    protocolVersion networkName
  have hunspent : {output | output ∈ ([] : List LedgerOutput)} = ∅ := by simp
  rw [hunspent] at hnothing
  -- both routes load the same outputs with the same status
  have hahead : (0 : Slot) ≤ slot := UInt32.zero_le
  obtain ⟨committed, hcommit, hloaded'⟩ := hnothing.commit hconsistent (fun _ houtput => houtput)
    hrecords hahead
  have hsame : imported = committed := hloaded.eq hloaded' hconsistent hdigests
  exact ⟨hsucceed, imported, opened, himport, hopen, hsame ▸ hcommit⟩

/-- The outputs of the sample, one in a call of its own and the other in a batch, with the later one
first. -/
def sampleBatches : List Import.Call := [.add sampleCreated, .addAll [], .addAll [sampleSpent]]

/-- The highest slot is that of an output and not that of the ledger. -/
theorem load_eq_commit_sampleBatches :
    let outputs := [sampleSpent, sampleCreated]
    let fresh := attach .empty .none
    ∃ imported opened,
      ((sampleBatches.foldl Import.after (.start fresh)).finalize 5 Sample.protocolVersion
        Sample.networkName).run.run fresh = (.ok (Sample.status 6), imported) ∧
      ((Import.start fresh).finalize 0 Sample.protocolVersion Sample.networkName).run.run fresh =
        (.ok (Sample.status 0), opened) ∧
      (commit ⟨6, [], outputs⟩).run.run opened = (.ok (), imported) := by
  intro outputs fresh
  have hids : (outputs.map (·.outputId)).Nodup := by
    simp [outputs, sampleSpent_ne_sampleCreated]
  have hrecords : ∀ output ∈ outputs, output.HasRecord := by decide +kernel
  have hknown : {output | output ∈ outputs} = sampleKnown := by
    ext output
    simp [outputs, sampleKnown]
  have hdigests : Store.DigestsDiffer (Store.definitionsOf {output | output ∈ outputs}) :=
    hknown ▸ digestsDiffer_sampleKnown
  have hcalls : (sampleBatches.flatMap (·.outputs)).Perm outputs :=
    .swap sampleSpent sampleCreated []
  have hslot : loadedSlot 5 outputs = 6 := by decide +kernel
  obtain ⟨-, imported, opened, himport, hopen, hcommit⟩ := load_eq_commit outputs hids hrecords
    hdigests sampleBatches hcalls 5 Sample.protocolVersion Sample.networkName
  rw [hslot] at himport hcommit
  exact ⟨imported, opened, himport, hopen, hcommit⟩

end Index

end OutputIndex
