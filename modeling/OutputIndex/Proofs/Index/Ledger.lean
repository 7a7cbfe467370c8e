import OutputIndex.Proofs.Index.Import
import OutputIndex.Sample

/-!
# The committed ledger

Where every identifier stands for one output, the final rows of an index are the records of what the
committed updates leave unspent, whatever is accepted or rolled back in between.

The invariant is `Store.Reflects`: every row is the record of a known output, every final row that
of an unspent one, and every unspent output has a final row.  Each step keeps it
(`Store.Reflects.step`), while the unspent outputs change with the parts of commits only.
-/

namespace OutputIndex

/-- No two outputs share an identifier. -/
def Consistent (known : Set LedgerOutput) : Prop :=
  ∀ output ∈ known, ∀ other ∈ known, output.outputId = other.outputId → output = other

lemma Consistent.mono {known listed : Set LedgerOutput} (h : Consistent known)
    (hsub : listed ⊆ known) : Consistent listed :=
  fun output houtput other hother => h output (hsub houtput) other (hsub hother)

namespace Store

/-- The rows are records of known outputs, and the final ones are those of the unspent outputs. -/
structure Reflects (known unspent : Set LedgerOutput) (store : Store) : Prop where
  records : ∀ kind id record, store.row? kind id = some record →
    ∃ output ∈ known, output.kind = kind ∧ output.outputId = id ∧ record.Records output ∧
      (record.about.committed = true → output ∈ unspent)
  holds : ∀ output ∈ unspent, output ∈ known ∧
    ∃ record, store.row? output.kind output.outputId = some record ∧
      record.about.committed = true

variable {known unspent : Set LedgerOutput} {store other : Store} {output : LedgerOutput}
  {record : OutputRecord} {kind : OutputKind} {id : OutputId}

namespace Reflects

lemma empty (known : Set LedgerOutput) : Reflects known ∅ Store.empty where
  records kind id record hrow := by
    rw [row?_empty] at hrow
    cases hrow
  holds output h := absurd h (Set.notMem_empty output)

lemma of_row?_eq (h : Reflects known unspent store)
    (hrows : ∀ kind id, other.row? kind id = store.row? kind id) :
    Reflects known unspent other where
  records kind id record hrow := by
    rw [hrows] at hrow
    exact h.records kind id record hrow
  holds output houtput := by
    rw [hrows]
    exact h.holds output houtput

lemma seesRows (known : Set LedgerOutput) : SeesRows (Reflects known) :=
  fun _ _ _ hrows _ h => h.of_row?_eq hrows

/-- The row of a known output is a record of that output. -/
lemma records_of_row? (h : Reflects known unspent store) (hknown : Consistent known)
    (houtput : output ∈ known) (hrow : store.row? output.kind output.outputId = some record) :
    record.Records output ∧ (record.about.committed = true → output ∈ unspent) := by
  obtain ⟨o, ho, -, hid, hrecords, hfinal⟩ := h.records _ _ _ hrow
  obtain rfl := hknown o ho output houtput hid
  exact ⟨hrecords, hfinal⟩

/-- Rows may be dropped while they are tentative, and they may be marked and unmarked. -/
lemma of_bind (h : Reflects known unspent store) {f : OutputRecord → Option OutputRecord}
    (hrows : ∀ kind id, other.row? kind id = (store.row? kind id).bind f)
    (hrecords : ∀ r r' output, f r = some r' → r.Records output → r'.Records output)
    (hcommitted : ∀ r r', f r = some r' → r'.about.committed = r.about.committed)
    (hkept : ∀ r, r.about.committed = true → ∃ r', f r = some r') :
    Reflects known unspent other where
  records kind id record hrow := by
    rw [hrows] at hrow
    obtain ⟨r, hr, hf⟩ := Option.bind_eq_some_iff.1 hrow
    obtain ⟨o, ho, hkind, hid, hro, hfinal⟩ := h.records kind id r hr
    exact ⟨o, ho, hkind, hid, hrecords r record o hf hro, hcommitted r record hf ▸ hfinal⟩
  holds o ho := by
    obtain ⟨hknown, r, hr, hfinal⟩ := h.holds o ho
    obtain ⟨r', hf⟩ := hkept r hfinal
    rw [hrows, hr]
    exact ⟨hknown, r', hf, (hcommitted r r' hf).trans hfinal⟩

/-- A known output may get a final row, and is unspent from then on. -/
lemma of_put_final (h : Reflects known unspent store) (hknown : output ∈ known)
    (hrows : ∀ kind id, other.row? kind id =
      if kind = output.kind ∧ id = output.outputId then some record else store.row? kind id)
    (hrecords : record.Records output) (hfinal : record.about.committed = true) :
    Reflects known (insert output unspent) other where
  records kind id r hrow := by
    rw [hrows] at hrow
    split at hrow
    · rename_i hkey
      cases hrow
      exact ⟨output, hknown, hkey.1.symm, hkey.2.symm, hrecords, fun _ => Set.mem_insert _ _⟩
    · obtain ⟨o, ho, hkind, hid, hro, hunspent⟩ := h.records kind id r hrow
      exact ⟨o, ho, hkind, hid, hro, fun hc => Set.mem_insert_of_mem _ (hunspent hc)⟩
  holds o ho := by
    rw [hrows]
    rcases Set.mem_insert_iff.1 ho with rfl | ho
    · exact ⟨hknown, record, if_pos ⟨rfl, rfl⟩, hfinal⟩
    · obtain ⟨hoknown, r, hr, hrfinal⟩ := h.holds o ho
      refine ⟨hoknown, ?_⟩
      split
      · exact ⟨record, rfl, hfinal⟩
      · exact ⟨r, hr, hrfinal⟩

/-- A known output may get another row that is as final as the one it had; having none counts as
being tentative. -/
lemma of_put (h : Reflects known unspent store) (hconsistent : Consistent known)
    (hknown : output ∈ known)
    (hrows : ∀ kind id, other.row? kind id =
      if kind = output.kind ∧ id = output.outputId then some record else store.row? kind id)
    (hrecords : record.Records output)
    (hfinal : record.about.committed = true ↔
      ∃ previous, store.row? output.kind output.outputId = some previous ∧
        previous.about.committed = true) :
    Reflects known unspent other where
  records kind id r hrow := by
    rw [hrows] at hrow
    split at hrow
    · rename_i hkey
      cases hrow
      refine ⟨output, hknown, hkey.1.symm, hkey.2.symm, hrecords, fun hc => ?_⟩
      obtain ⟨previous, hprevious, hc'⟩ := hfinal.1 hc
      exact (h.records_of_row? hconsistent hknown hprevious).2 hc'
    · exact h.records kind id r hrow
  holds o ho := by
    obtain ⟨hoknown, r, hr, hrfinal⟩ := h.holds o ho
    refine ⟨hoknown, ?_⟩
    rw [hrows]
    split
    · rename_i hkey
      rw [hkey.1, hkey.2] at hr
      exact ⟨record, rfl, hfinal.2 ⟨r, hr, hrfinal⟩⟩
    · exact ⟨r, hr, hrfinal⟩

/-- A known output may lose its row, and is not unspent from then on. -/
lemma of_erase (h : Reflects known unspent store) (hconsistent : Consistent known)
    (hknown : output ∈ known)
    (hrows : ∀ kind id, other.row? kind id =
      if kind = output.kind ∧ id = output.outputId then none else store.row? kind id) :
    Reflects known {o ∈ unspent | o.outputId ≠ output.outputId} other where
  records kind id r hrow := by
    rw [hrows] at hrow
    split at hrow
    · cases hrow
    · rename_i hkey
      obtain ⟨o, ho, rfl, rfl, hro, hunspent⟩ := h.records kind id r hrow
      refine ⟨o, ho, rfl, rfl, hro, fun hc => ⟨hunspent hc, fun hid => ?_⟩⟩
      -- only the erased output has the identifier, so the row would be the erased one
      obtain rfl := hconsistent o ho output hknown hid
      exact hkey ⟨rfl, rfl⟩
  holds o ho := by
    obtain ⟨hoknown, r, hr, hrfinal⟩ := h.holds o ho.1
    rw [hrows, if_neg fun hkey => ho.2 hkey.2]
    exact ⟨hoknown, r, hr, hrfinal⟩

lemma settle {writer : Writer} (h : Reflects known unspent writer.store) (hready : writer.Ready)
    (slot : Slot) : Reflects known unspent (writer.settle slot).store := by
  refine h.of_bind (Writer.row?_settle hready slot) ?_ ?_ ?_
  · intro r r' output hswept hr
    obtain ⟨-, rfl⟩ := OutputRecord.swept_eq_some_iff.1 hswept
    unfold OutputRecord.unmarked
    split
    · exact hr.spentAt 0
    · exact hr
  · intro r r' hswept
    obtain ⟨-, rfl⟩ := OutputRecord.swept_eq_some_iff.1 hswept
    unfold OutputRecord.unmarked
    split
    · rw [OutputRecord.about_spentAt]
    · rfl
  · intro r hfinal
    refine ⟨r.unmarked slot, OutputRecord.swept_eq_some_iff.2 ⟨fun hlapses => ?_, rfl⟩⟩
    rw [hlapses.1] at hfinal
    cases hfinal

lemma row?_putRecord_of_records (writer : Writer) (hrecords : record.Records output)
    (kind : OutputKind) (id : OutputId) :
    (writer.putRecord record).store.row? kind id =
      if kind = output.kind ∧ id = output.outputId then some record
      else writer.store.row? kind id := by
  rw [← hrecords.kind, ← hrecords.outputId]
  exact Writer.row?_putRecord writer record kind id

lemma row?_enter_of_records (writer : Writer) (hrecords : record.Records output)
    (kind : OutputKind) (id : OutputId) :
    (writer.enter record output).store.row? kind id =
      if kind = output.kind ∧ id = output.outputId then some record
      else writer.store.row? kind id := by
  rw [← hrecords.kind, ← hrecords.outputId]
  exact Writer.row?_enter writer record output kind id

/-- A tentative row may be entered for a known output that has none. -/
lemma enter_tentative {writer : Writer} (h : Reflects known unspent writer.store)
    (hconsistent : Consistent known) (hknown : output ∈ known)
    (hrow : writer.store.row? output.kind output.outputId = none)
    (hrecords : record.Records output) (htentative : record.about.committed = false) :
    Reflects known unspent (writer.enter record output).store := by
  refine h.of_put hconsistent hknown (row?_enter_of_records writer hrecords) hrecords ?_
  rw [htentative, hrow]
  simp

/-- A final row may be entered for any known output. -/
lemma enter_final {writer : Writer} (h : Reflects known unspent writer.store)
    (hknown : output ∈ known) (hrecord : OutputRecord.ofLedgerOutput output true = .ok record) :
    Reflects known (insert output unspent) (writer.enter record output).store := by
  have hrecords := OutputRecord.records_of_ok hrecord
  refine h.of_put_final hknown (row?_enter_of_records writer hrecords) hrecords ?_
  rw [OutputRecord.about_of_ok hrecord]
  rfl

/-- Every step keeps the rows in line with what is unspent. -/
lemma step {writer last : Writer} {part : Part} (h : Reflects known unspent writer.store)
    (hconsistent : Consistent known) (hknown : ∀ output ∈ part.outputs, output ∈ known)
    (hready : writer.Ready) (hstep : Step writer part last) :
    Reflects known (part.next unspent) last.store := by
  cases hstep with
  | settle slot => exact h.settle hready slot
  | @mark spent record hrow =>
    have hspent := hknown spent.output (List.mem_singleton.2 rfl)
    have hrecords := (h.records_of_row? hconsistent hspent hrow).1.spentAt spent.spentAt
    refine h.of_put hconsistent hspent (row?_putRecord_of_records writer hrecords) hrecords ?_
    rw [OutputRecord.about_spentAt]
    constructor
    · intro hc
      exact ⟨record, hrow, hc⟩
    · rintro ⟨previous, hprevious, hc⟩
      obtain rfl := Option.some.inj (hrow.symm.trans hprevious)
      exact hc
  | @markUnseen spent record hrow hrecord =>
    have hrecords := (OutputRecord.records_of_ok hrecord).spentAt spent.spentAt
    refine h.enter_tentative hconsistent (hknown _ (List.mem_singleton.2 rfl)) hrow hrecords ?_
    rw [OutputRecord.about_spentAt, OutputRecord.about_of_ok hrecord]
    rfl
  | remove spent =>
    exact h.of_erase hconsistent (hknown _ (List.mem_singleton.2 rfl))
      fun kind id => Writer.row?_leave writer _ kind _ id
  | propose hrow hrecord =>
    refine h.enter_tentative hconsistent (hknown _ (List.mem_singleton.2 rfl)) hrow
      (OutputRecord.records_of_ok hrecord) ?_
    rw [OutputRecord.about_of_ok hrecord]
    rfl
  | @finalizeFinal output record hrow hfinal =>
    have houtput := hknown output (List.mem_singleton.2 rfl)
    have hunspent := (h.records_of_row? hconsistent houtput hrow).2 hfinal
    rw [Part.next, Set.insert_eq_of_mem hunspent]
    exact h
  | @finalizeSeen output record hrow htentative =>
    have houtput := hknown output (List.mem_singleton.2 rfl)
    have hrecords := (h.records_of_row? hconsistent houtput hrow).1.finalized
    refine h.of_put_final houtput (row?_putRecord_of_records writer hrecords) hrecords ?_
    rw [OutputRecord.about_finalized]
  | finalize hrow hrecord => exact h.enter_final (hknown _ (List.mem_singleton.2 rfl)) hrecord
  | purge => exact h.of_row?_eq (sameRecords_purgeOrphans writer.store).row?_eq
  | markSame | proposeSeen => exact h

lemma stepsKeep {operation : Operation} (hconsistent : Consistent known)
    (hknown : ∀ output ∈ operation.outputs, output ∈ known) :
    Index.StepsKeep (Reflects known) operation := by
  intro part hpart unspent writer last hready hstep h
  refine h.step hconsistent (fun output houtput => ?_) hready hstep
  exact hknown output (Operation.mem_outputs_of_mem_parts hpart houtput)

end Reflects

end Store

namespace Index

lemma committedSlot_foldl_advance (status : Status) (updates : List LedgerUpdate) :
    (updates.foldl Status.advance status).committedSlot =
      (updates.map (·.slot)).getLastD status.committedSlot := by
  induction updates generalizing status with
  | nil => rfl
  | cons update rest ih =>
    rw [List.foldl_cons, ih, List.map_cons, List.getLastD_cons]
    rfl

/-- The final rows of a store that reflects some unspent outputs are what these are recorded as. -/
lemma finalRow_iff {known unspent : Set LedgerOutput} {store : Store}
    (h : Store.Reflects known unspent store) (hconsistent : Consistent known) (kind : OutputKind)
    (id : OutputId) (record : OutputRecord) :
    (∃ row, store.row? kind id = some row ∧ row.about.committed = true ∧
        row.spentAt 0 = record) ↔
      ∃ output ∈ unspent, output.kind = kind ∧ output.outputId = id ∧
        OutputRecord.ofLedgerOutput output true = .ok record := by
  constructor
  · rintro ⟨row, hrow, hfinal, rfl⟩
    obtain ⟨output, -, hkind, hid, hrecords, hunspent⟩ := h.records kind id row hrow
    rw [OutputRecord.Records, hfinal] at hrecords
    exact ⟨output, hunspent hfinal, hkind, hid, hrecords⟩
  · rintro ⟨output, houtput, rfl, rfl, hrecord⟩
    obtain ⟨hknown, row, hrow, hfinal⟩ := h.holds output houtput
    have hrecords := (h.records_of_row? hconsistent hknown hrow).1
    rw [OutputRecord.Records, hfinal, hrecord] at hrecords
    exact ⟨row, hrow, hfinal, (Except.ok.inj hrecords).symm⟩

/-- An import into the empty store leaves the store exact, and what it imported is unspent. -/
lemma reflects_import {known : Set LedgerOutput} {fault : Fault} {calls : List Import.Call}
    {ledgerSlot : Slot} {protocolVersion : UInt8} {networkName : String} {status : Status}
    {index : Index}
    (himport : ((calls.foldl Import.after (.start (.attach .empty fault))).finalize ledgerSlot
      protocolVersion networkName).run.run (.attach .empty fault) = (.ok status, index))
    (hknown : ∀ output ∈ calls.flatMap (·.outputs), output ∈ known) :
    index.store.Exact ∧ Store.Reflects known
      {output | output ∈ (Import.start (.attach .empty fault)).taken calls} index.store := by
  obtain ⟨-, hindex⟩ := Import.run_finalize_eq_ok himport
  have hloads := Import.loads_taken (.start (.attach .empty fault)) calls
  have hfinished := Import.finished_preserves ∅ (Store.Reflects.seesRows known)
    (fun output houtput _ _ _ hrecord h =>
      h.enter_final (hknown output (Import.mem_calls_of_mem_taken houtput)) hrecord)
    hloads status (Store.Reflects.empty known)
  rw [Set.empty_union] at hfinished
  rw [hindex]
  exact ⟨hloads.exact_finished (Import.keyed_start Store.keyed_empty) status, hfinished⟩

/-- The outputs that an import and some operations list. -/
def listed (calls : List Import.Call) (operations : List Operation) : Set LedgerOutput :=
  {output | output ∈ calls.flatMap (·.outputs) ∨ output ∈ operations.flatMap (·.outputs)}

/-- **The final rows are the committed ledger.**  After an import into the empty store and any
operations, the final rows, whether they are marked as spent or not, are what the outputs are
recorded as that the import and the committed updates leave unspent; the committed slot is that of
the last commit, or of the import if there is none. -/
theorem finalRows_eq_ledger (fault : Fault) (calls : List Import.Call) (ledgerSlot : Slot)
    (protocolVersion : UInt8) (networkName : String) (operations : List Operation)
    {status : Status} {index : Index}
    (himport : ((calls.foldl Import.after (.start (.attach .empty fault))).finalize ledgerSlot
      protocolVersion networkName).run.run (.attach .empty fault) = (.ok status, index))
    (hconsistent : Consistent (listed calls operations)) :
    let imported := (Import.start (.attach .empty fault)).taken calls
    let updates := (index.successes operations).filterMap Operation.committed?
    let unspent := updates.foldl LedgerUpdate.apply {output | output ∈ imported}
    let store := (operations.foldl after index).store
    (∀ kind id record,
      (∃ row, store.row? kind id = some row ∧ row.about.committed = true ∧
          row.spentAt 0 = record) ↔
        ∃ output ∈ unspent, output.kind = kind ∧ output.outputId = id ∧
          OutputRecord.ofLedgerOutput output true = .ok record) ∧
      (∀ output ∈ unspent, ∃ record, OutputRecord.ofLedgerOutput output true = .ok record) ∧
      store.status.map (·.committedSlot) =
        some ((updates.map (·.slot)).getLastD status.committedSlot) := by
  intro imported updates unspent store
  have himported : ∀ output ∈ calls.flatMap (·.outputs), output ∈ listed calls operations :=
    fun output houtput => .inl houtput
  obtain ⟨hexact, hreflects⟩ := reflects_import himport himported
  -- each operation keeps the rows in line with what is unspent
  have hkeep : ∀ operation ∈ index.successes operations,
      StepsKeep (Store.Reflects (listed calls operations)) operation := by
    intro operation hoperation
    refine Store.Reflects.stepsKeep hconsistent fun output houtput => .inr ?_
    exact List.mem_flatMap.2 ⟨operation, mem_of_mem_successes hoperation, houtput⟩
  obtain ⟨-, hafter⟩ := foldl_after_preserves _ (Store.Reflects.seesRows _) hkeep hexact hreflects
  refine ⟨finalRow_iff hafter hconsistent, fun output houtput => ?_, ?_⟩
  · obtain ⟨hknown, row, hrow, -⟩ := hafter.holds output houtput
    exact (hafter.records_of_row? hconsistent hknown hrow).1.exists_ok true
  · have hstatus : index.store.status = some status := by
      obtain ⟨-, hindex⟩ := Import.run_finalize_eq_ok himport
      rw [hindex]
      rfl
    rw [status_foldl_after hstatus, Option.map_some, committedSlot_foldl_advance]

/-! ## A sample -/

/-- An output of alice, which is imported and spent. -/
def sampleSpent : LedgerOutput := Sample.booked 5 0 (Sample.basic Sample.Holder.alice.address 100)

/-- An output of alice and bob together, which the spending creates. -/
def sampleCreated : LedgerOutput :=
  Sample.booked 6 1 (Sample.basic (Sample.multiAddress [.alice, .bob] 2) 100)

def sampleUpdate : LedgerUpdate := ⟨6, [⟨sampleSpent, 6⟩], [sampleCreated]⟩

def sampleCalls : List Import.Call := [.add sampleSpent]

/-- The update is accepted, rolled back and committed, and then it comes too late. -/
def sampleOperations : List Operation :=
  [.accept sampleUpdate, .rollback, .commit sampleUpdate, .accept sampleUpdate]

/-- The index after the import. -/
def sampleIndex : Index :=
  (((sampleCalls.foldl Import.after (.start (.attach .empty .none))).finalize 5
    Sample.protocolVersion Sample.networkName).run.run (.attach .empty .none)).2

lemma run_sampleImport :
    ((sampleCalls.foldl Import.after (.start (.attach .empty .none))).finalize 5
        Sample.protocolVersion Sample.networkName).run.run (.attach .empty .none) =
      (.ok (Sample.status 5), sampleIndex) := rfl

/-- The outputs of the sample. -/
def sampleKnown : Set LedgerOutput := {sampleSpent, sampleCreated}

lemma sampleSpent_ne_sampleCreated : sampleSpent.outputId ≠ sampleCreated.outputId := by
  decide +kernel

lemma consistent_sampleKnown : Consistent sampleKnown := by
  rintro output (rfl | rfl) other (rfl | rfl) hid
  · rfl
  · exact absurd hid sampleSpent_ne_sampleCreated
  · exact absurd hid.symm sampleSpent_ne_sampleCreated
  · rfl

theorem finalRows_sampleOperations :
    ((sampleCalls.foldl Import.after (.start (.attach .empty .none))).finalize 5
        Sample.protocolVersion Sample.networkName).run.run (.attach .empty .none) =
      (.ok (Sample.status 5), sampleIndex) ∧
    Consistent (listed sampleCalls sampleOperations) ∧
    (∃ row, (sampleOperations.foldl after sampleIndex).store.row? .basic
        sampleCreated.outputId = some row ∧ row.about.committed = true) ∧
    (sampleOperations.foldl after sampleIndex).store.status.map (·.committedSlot) = some 6 := by
  have hlisted : listed sampleCalls sampleOperations ⊆ sampleKnown := by
    have hmem : ∀ output ∈ listed sampleCalls sampleOperations,
        output = sampleSpent ∨ output = sampleCreated := by
      simp [listed, sampleCalls, sampleOperations, sampleUpdate, Import.Call.outputs,
        Operation.outputs]
    exact hmem
  have hconsistent := consistent_sampleKnown.mono hlisted
  have hupdates : (sampleIndex.successes sampleOperations).filterMap Operation.committed? =
      [sampleUpdate] := by decide +kernel
  obtain ⟨hrows, -, hslot⟩ := finalRows_eq_ledger .none sampleCalls 5 Sample.protocolVersion
    Sample.networkName sampleOperations run_sampleImport hconsistent
  rw [hupdates] at hrows hslot
  refine ⟨run_sampleImport, hconsistent, ?_, hslot⟩
  have hnot : ¬sampleUpdate.Consumes sampleCreated.outputId := by
    rintro ⟨spent, hspent, hid⟩
    obtain rfl := List.mem_singleton.1 hspent
    exact sampleSpent_ne_sampleCreated hid
  obtain ⟨row, hrow, hfinal, -⟩ := (hrows .basic sampleCreated.outputId _).2
    ⟨sampleCreated, .inr ⟨List.mem_singleton.2 rfl, hnot⟩, rfl, rfl, rfl⟩
  exact ⟨row, hrow, hfinal⟩

end Index

end OutputIndex
