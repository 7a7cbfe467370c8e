import OutputIndex.Index
import OutputIndex.Proofs.Store.Sweep

/-!
# The parts of a write

The writes of the index are made of parts: sweeping, marking and taking out what an update consumes,
and taking over what it creates.  This file says what each part does to a writer
(`WriteM.run_insertOutput` and its like), in terms of four changes: a row is put in place of another
of its output, an output is entered with what it refers to (`Writer.enter`), an output leaves with
it (`Writer.leave`), or everything up to a slot is settled (`Writer.settle`).

Each change keeps a writer ready (`Writer.Ready`).
-/

namespace OutputIndex

namespace Writer

variable {writer : Writer} {record : OutputRecord} {output : LedgerOutput} {kind : OutputKind}
  {id : OutputId} {slot : Slot}

/-! ## Changes -/

/-- The writer with a row for an output and with what the output refers to. -/
def enter (writer : Writer) (record : OutputRecord) (output : LedgerOutput) : Writer :=
  let written := writer.putRecord record
  { written with
    store := written.store.recordReferences output.outputId output.output.addresses }

/-- The writer without what an output refers to. -/
def release (writer : Writer) (id : OutputId) : Writer :=
  { writer with store := (writer.store.releaseReferences id).2 }

/-- The writer without the row of an output; what the output refers to goes with the row. -/
def leave (writer : Writer) (kind : OutputKind) (id : OutputId) : Writer :=
  match writer.store.row? kind id with
  | none => writer
  | some _ => (writer.takeRecord kind id).2.release id

/-- The writer after the tentative rows booked up to a slot are dropped and the marks up to it are
taken back. -/
def settle (writer : Writer) (slot : Slot) : Writer :=
  (((writer.discard slot).1.foldl release (writer.discard slot).2).revive slot).2

/-! ## What changes leave alone -/

/-- The writers differ at most in their rows, the tables beside them and the multi addresses. -/
structure SameFrame (writer other : Writer) : Prop where
  indexed : other.indexed = writer.indexed
  fault : other.fault = writer.fault
  status : other.store.status = writer.store.status

lemma SameFrame.trans {other third : Writer} (h : SameFrame writer other)
    (h' : SameFrame other third) : SameFrame writer third :=
  ⟨h'.indexed.trans h.indexed, h'.fault.trans h.fault, h'.status.trans h.status⟩

lemma RowsOnly.sameFrame {other : Writer} (h : RowsOnly writer other) : SameFrame writer other :=
  ⟨h.indexed, h.fault, h.status⟩

lemma sameFrame_release (writer : Writer) (id : OutputId) :
    SameFrame writer (writer.release id) :=
  ⟨rfl, rfl, (Store.sameRecords_releaseReferences writer.store id).status⟩

lemma sameFrame_foldl_release (ids : List OutputId) (writer : Writer) :
    SameFrame writer (ids.foldl release writer) := by
  induction ids generalizing writer with
  | nil => exact ⟨rfl, rfl, rfl⟩
  | cons id rest ih => exact (sameFrame_release writer id).trans (ih _)

lemma sameFrame_enter (writer : Writer) (record : OutputRecord) (output : LedgerOutput) :
    SameFrame writer (writer.enter record output) :=
  (rowsOnly_putRecord writer record).sameFrame.trans
    ⟨rfl, rfl, (Store.sameRecords_recordReferences _ _ _).status⟩

lemma sameFrame_leave (writer : Writer) (kind : OutputKind) (id : OutputId) :
    SameFrame writer (writer.leave kind id) := by
  unfold leave
  split
  · exact ⟨rfl, rfl, rfl⟩
  · exact (rowsOnly_takeRecord writer kind id).sameFrame.trans (sameFrame_release _ id)

lemma sameFrame_settle (writer : Writer) (slot : Slot) :
    SameFrame writer (writer.settle slot) := by
  have hdiscard := (rowsOnly_discard writer slot).sameFrame
  have hrelease := sameFrame_foldl_release (writer.discard slot).1 (writer.discard slot).2
  exact (hdiscard.trans hrelease).trans (rowsOnly_revive _ slot).sameFrame

/-! ## Ready writers -/

namespace Ready

lemma enter (h : writer.Ready) (record : OutputRecord) (output : LedgerOutput) :
    (writer.enter record output).Ready := by
  have hput := h.putRecord record
  have hsame := Store.sameRecords_recordReferences (writer.putRecord record).store
    output.outputId output.output.addresses
  exact hput.of_sound (hput.sound.of_sameRecords hsame) rfl

lemma release (h : writer.Ready) (id : OutputId) : (writer.release id).Ready := by
  have hsame := Store.sameRecords_releaseReferences writer.store id
  exact h.of_sound (h.sound.of_sameRecords hsame) rfl

lemma foldl_release (h : writer.Ready) (ids : List OutputId) :
    (ids.foldl Writer.release writer).Ready := by
  induction ids generalizing writer with
  | nil => exact h
  | cons id rest ih => exact ih (h.release id)

lemma leave (h : writer.Ready) (kind : OutputKind) (id : OutputId) :
    (writer.leave kind id).Ready := by
  unfold Writer.leave
  split
  · exact h
  · have hindexed := (rowsOnly_takeRecord writer kind id).indexed
    have htaken : (writer.takeRecord kind id).2.Ready :=
      h.of_sound (h.sound.takeRecord kind id) hindexed
    exact htaken.release id

lemma settle (h : writer.Ready) (slot : Slot) : (writer.settle slot).Ready := by
  have hreleased := (h.discard slot).foldl_release (writer.discard slot).1
  exact hreleased.revive slot

end Ready

/-! ## What changes do to rows -/

@[simp] lemma row?_release (writer : Writer) (id : OutputId) (k : OutputKind) (i : OutputId) :
    (writer.release id).store.row? k i = writer.store.row? k i :=
  (Store.sameRecords_releaseReferences writer.store id).row?_eq k i

lemma row?_foldl_release (ids : List OutputId) (writer : Writer) (k : OutputKind) (i : OutputId) :
    (ids.foldl release writer).store.row? k i = writer.store.row? k i := by
  induction ids generalizing writer with
  | nil => rfl
  | cons id rest ih => rw [List.foldl_cons, ih, row?_release]

lemma row?_enter (writer : Writer) (record : OutputRecord) (output : LedgerOutput)
    (k : OutputKind) (i : OutputId) :
    (writer.enter record output).store.row? k i =
      if k = record.kind ∧ i = record.outputId then some record else writer.store.row? k i :=
  ((Store.sameRecords_recordReferences _ _ _).row?_eq k i).trans
    (row?_putRecord writer record k i)

lemma row?_leave (writer : Writer) (kind k : OutputKind) (id i : OutputId) :
    (writer.leave kind id).store.row? k i =
      if k = kind ∧ i = id then none else writer.store.row? k i := by
  unfold leave
  split
  · rename_i hnone
    exact Store.row?_eq_ite_of_none hnone k i
  · rw [row?_release, row?_takeRecord]

/-- Settling leaves of each row what a sweep leaves of it. -/
lemma row?_settle (h : writer.Ready) (slot : Slot) (k : OutputKind) (i : OutputId) :
    (writer.settle slot).store.row? k i = (writer.store.row? k i).bind (·.swept slot) := by
  have hreleased := (h.discard slot).foldl_release (writer.discard slot).1
  rw [settle, row?_revive hreleased.exact, row?_foldl_release, row?_discard h.exact]
  cases writer.store.row? k i with
  | none => rfl
  | some record =>
    by_cases hlapses : record.Lapses slot <;>
      simp [OutputRecord.swept, hlapses, Option.filter_some]

end Writer

/-! ## What the parts return -/

namespace WriteM

variable {writer next : Writer}

/-- Entering an output: its row is written, then what it refers to is noted. -/
lemma run_enter (record : OutputRecord) (output : LedgerOutput) (writer : Writer) :
    (do writeOutput record
        recordReferences output.outputId output.output.addresses : WriteM Unit).run writer =
      if writer.fault = .writer .writeOutput then .error (.storage (.injected writer.fault))
      else .ok ((), writer.enter record output) := by
  have hwrite := run_writeOutput record writer
  by_cases hfault : writer.fault = .writer .writeOutput
  · rw [if_pos hfault] at hwrite ⊢
    exact run_bind_of_error hwrite
  · rw [if_neg hfault] at hwrite ⊢
    exact run_bind_of_ok hwrite

lemma run_insertOutput (output : LedgerOutput) (committed : Bool) (writer : Writer) :
    (insertOutput output committed).run writer =
      match writer.store.row? output.kind output.outputId with
      | some record =>
        if committed && !record.about.committed then (writeOutput record.finalized).run writer
        else .ok ((), writer)
      | none =>
        match OutputRecord.ofLedgerOutput output committed with
        | .error cause => .error (.codec cause)
        | .ok record =>
          if writer.fault = .writer .writeOutput then .error (.storage (.injected writer.fault))
          else .ok ((), writer.enter record output) := by
  have hread : (readOutput output.kind output.outputId).run writer =
      .ok (writer.store.row? output.kind output.outputId, writer) := rfl
  rw [insertOutput, run_bind_of_ok hread]
  cases writer.store.row? output.kind output.outputId with
  | some record =>
    dsimp only
    split <;> rfl
  | none =>
    cases OutputRecord.ofLedgerOutput output committed with
    | error cause => rfl
    | ok record => exact run_enter record output writer

/-- Where rows can be written, an output that can be recorded can be taken over. -/
lemma exists_run_insertOutput {output : LedgerOutput} {committed : Bool} {record : OutputRecord}
    (hfault : writer.fault ≠ .writer .writeOutput)
    (hrecord : OutputRecord.ofLedgerOutput output committed = .ok record) :
    ∃ next, (insertOutput output committed).run writer = .ok ((), next) := by
  rw [run_insertOutput]
  cases writer.store.row? output.kind output.outputId with
  | some previous =>
    dsimp only
    split
    · exact ⟨_, by rw [run_writeOutput, if_neg hfault]⟩
    · exact ⟨writer, rfl⟩
  | none => exact ⟨writer.enter record output, by rw [hrecord]; exact if_neg hfault⟩

lemma run_markSpent (spent : LedgerSpent) (writer : Writer) :
    (markSpent spent).run writer =
      match writer.store.row? spent.output.kind spent.outputId with
      | some record =>
        if record.about.deletedAtSlot ≠ spent.spentAt then
          (writeOutput (record.spentAt spent.spentAt)).run writer
        else .ok ((), writer)
      | none =>
        match OutputRecord.ofLedgerOutput spent.output false with
        | .error cause => .error (.codec cause)
        | .ok record =>
          if writer.fault = .writer .writeOutput then .error (.storage (.injected writer.fault))
          else .ok ((), writer.enter (record.spentAt spent.spentAt) spent.output) := by
  have hread : (readOutput spent.output.kind spent.output.outputId).run writer =
      .ok (writer.store.row? spent.output.kind spent.outputId, writer) := rfl
  rw [markSpent, run_bind_of_ok hread]
  cases writer.store.row? spent.output.kind spent.outputId with
  | some record =>
    dsimp only
    split <;> rfl
  | none =>
    cases OutputRecord.ofLedgerOutput spent.output false with
    | error cause => rfl
    | ok record => exact run_enter (record.spentAt spent.spentAt) spent.output writer

lemma run_removeSpent (spent : LedgerSpent) (writer : Writer) :
    (removeSpent spent).run writer =
      if writer.fault = .writer .removeOutput then .error (.storage (.injected writer.fault))
      else .ok ((), writer.leave spent.output.kind spent.outputId) := by
  have hremove := run_removeOutput spent.output.kind spent.outputId writer
  by_cases hfault : writer.fault = .writer .removeOutput
  · rw [if_pos hfault] at hremove ⊢
    exact run_bind_of_error hremove
  · rw [if_neg hfault] at hremove ⊢
    obtain ⟨taken, htaken⟩ : ∃ taken, writer.takeRecord spent.output.kind spent.outputId =
        (writer.store.row? spent.output.kind spent.outputId, taken) :=
      ⟨_, Prod.ext (Writer.takeRecord_fst writer _ _) rfl⟩
    rw [htaken] at hremove
    rw [removeSpent, run_bind_of_ok hremove, Writer.leave, htaken]
    cases hrow : writer.store.row? spent.output.kind spent.outputId with
    | none =>
      -- nothing was there, so nothing is taken and nothing is released
      have hsame : taken = writer := by
        rw [Writer.takeRecord, hrow] at htaken
        exact (congrArg Prod.snd htaken).symm
      rw [hsame]
      rfl
    | some record => rfl

lemma run_release (ids : List OutputId) (writer : Writer) :
    (ids.forM fun id => discard (releaseReferences id) : WriteM Unit).run writer =
      .ok ((), ids.foldl Writer.release writer) := by
  induction ids generalizing writer with
  | nil => rfl
  | cons id rest ih => exact ih (writer.release id)

lemma run_removeUncommitted (slot : Slot) (writer : Writer) :
    (removeUncommitted slot).run writer = .ok ((), writer.settle slot) := by
  have hdiscard : (discardUncommitted slot).run writer = .ok (writer.discard slot) := rfl
  rw [removeUncommitted, run_bind_of_ok hdiscard, run_bind_of_ok (run_release _ _)]
  rfl

end WriteM

end OutputIndex
