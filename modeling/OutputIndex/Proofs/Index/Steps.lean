import OutputIndex.Proofs.Index.Parts

/-!
# The steps of a write

The writes of the index are sequences of parts, and a part that succeeds makes one of a few steps
(`Step.of_run`).  A step keeps a writer ready, and what every step keeps is kept by a sequence of
steps (`Steps.preserves`).  Such a property may speak of the outputs that are unspent by what is
committed, a set that parts change as well (`Part.next`).
-/

namespace OutputIndex

/-! ## Parts and steps -/

/-- A part of a write. -/
inductive Part where
  /-- Tentative rows booked up to the slot are dropped, marks up to it are taken back. -/
  | settle (slot : Slot)
  /-- A consumed output is marked as spent. -/
  | mark (spent : LedgerSpent)
  /-- A consumed output is taken out. -/
  | remove (spent : LedgerSpent)
  /-- A created output is taken over as tentative. -/
  | propose (output : LedgerOutput)
  /-- A created output is taken over for good. -/
  | finalize (output : LedgerOutput)
  /-- Definitions that no output refers to are dropped. -/
  | purge
deriving DecidableEq

namespace Part

/-- The write of a part. -/
def run : Part → WriteM Unit
  | settle slot => WriteM.removeUncommitted slot
  | mark spent => WriteM.markSpent spent
  | remove spent => WriteM.removeSpent spent
  | propose output => WriteM.insertOutput output false
  | finalize output => WriteM.insertOutput output true
  | purge => discard WriteM.purgeOrphans

/-- The outputs that are unspent by what is committed, after a part. -/
def next (unspent : Set LedgerOutput) : Part → Set LedgerOutput
  | remove spent => {output ∈ unspent | output.outputId ≠ spent.outputId}
  | finalize output => insert output unspent
  | settle _ | mark _ | propose _ | purge => unspent

/-- The outputs that a part is about. -/
def outputs : Part → List LedgerOutput
  | mark spent | remove spent => [spent.output]
  | propose output | finalize output => [output]
  | settle _ | purge => []

end Part

/-- The writer without definitions that no output refers to. -/
def Writer.purge (writer : Writer) : Writer :=
  { writer with store := writer.store.purgeOrphans.2 }

/-- What a part makes of a writer. -/
inductive Step (writer : Writer) : Part → Writer → Prop where
  | settle (slot : Slot) : Step writer (.settle slot) (writer.settle slot)
  | mark {spent : LedgerSpent} {record : OutputRecord}
      (hrow : writer.store.row? spent.output.kind spent.outputId = some record) :
      Step writer (.mark spent) (writer.putRecord (record.spentAt spent.spentAt))
  | markSame {spent : LedgerSpent} {record : OutputRecord}
      (hrow : writer.store.row? spent.output.kind spent.outputId = some record)
      (hsame : record.about.deletedAtSlot = spent.spentAt) : Step writer (.mark spent) writer
  | markUnseen {spent : LedgerSpent} {record : OutputRecord}
      (hrow : writer.store.row? spent.output.kind spent.outputId = none)
      (hrecord : OutputRecord.ofLedgerOutput spent.output false = .ok record) :
      Step writer (.mark spent) (writer.enter (record.spentAt spent.spentAt) spent.output)
  | remove (spent : LedgerSpent) :
      Step writer (.remove spent) (writer.leave spent.output.kind spent.outputId)
  | proposeSeen {output : LedgerOutput} {record : OutputRecord}
      (hrow : writer.store.row? output.kind output.outputId = some record) :
      Step writer (.propose output) writer
  | propose {output : LedgerOutput} {record : OutputRecord}
      (hrow : writer.store.row? output.kind output.outputId = none)
      (hrecord : OutputRecord.ofLedgerOutput output false = .ok record) :
      Step writer (.propose output) (writer.enter record output)
  | finalizeFinal {output : LedgerOutput} {record : OutputRecord}
      (hrow : writer.store.row? output.kind output.outputId = some record)
      (hfinal : record.about.committed = true) : Step writer (.finalize output) writer
  | finalizeSeen {output : LedgerOutput} {record : OutputRecord}
      (hrow : writer.store.row? output.kind output.outputId = some record)
      (htentative : record.about.committed = false) :
      Step writer (.finalize output) (writer.putRecord record.finalized)
  | finalize {output : LedgerOutput} {record : OutputRecord}
      (hrow : writer.store.row? output.kind output.outputId = none)
      (hrecord : OutputRecord.ofLedgerOutput output true = .ok record) :
      Step writer (.finalize output) (writer.enter record output)
  | purge : Step writer .purge writer.purge

/-- What a sequence of parts makes of a writer. -/
inductive Steps : Writer → List Part → Writer → Prop where
  | nil (writer : Writer) : Steps writer [] writer
  | cons {writer middle last : Writer} {part : Part} {parts : List Part}
      (hstep : Step writer part middle) (hrest : Steps middle parts last) :
      Steps writer (part :: parts) last

variable {writer last : Writer} {part : Part} {parts : List Part}

/-! ## Parts make steps -/

lemma WriteM.eq_of_run_writeOutput {record : OutputRecord}
    (h : (writeOutput record).run writer = .ok ((), last)) : last = writer.putRecord record := by
  rw [run_writeOutput] at h
  split at h
  · cases h
  · cases h
    rfl

/-- A part that succeeds makes a step. -/
lemma Step.of_run (h : part.run.run writer = .ok ((), last)) : Step writer part last := by
  cases part with
  | settle slot =>
    rw [Part.run, WriteM.run_removeUncommitted] at h
    cases h
    exact .settle slot
  | mark spent =>
    rw [Part.run, WriteM.run_markSpent] at h
    split at h
    · rename_i record hrow
      -- a row that is marked with the slot already is not written again
      split at h
      · rw [WriteM.eq_of_run_writeOutput h]
        exact .mark hrow
      · rename_i hsame
        cases h
        exact .markSame hrow (not_not.1 hsame)
    · rename_i hrow
      split at h
      · cases h
      · rename_i hrecord
        split at h <;> cases h
        exact .markUnseen hrow hrecord
  | remove spent =>
    rw [Part.run, WriteM.run_removeSpent] at h
    split at h <;> cases h
    exact .remove spent
  | propose output =>
    rw [Part.run, WriteM.run_insertOutput] at h
    split at h
    · rename_i hrow
      cases h
      exact .proposeSeen hrow
    · rename_i hrow
      split at h
      · cases h
      · rename_i hrecord
        split at h <;> cases h
        exact .propose hrow hrecord
  | finalize output =>
    rw [Part.run, WriteM.run_insertOutput] at h
    split at h
    · rename_i record hrow
      split at h
      · rename_i htentative
        rw [WriteM.eq_of_run_writeOutput h]
        exact .finalizeSeen hrow (by simpa using htentative)
      · rename_i hfinal
        cases h
        exact .finalizeFinal hrow (by simpa using hfinal)
    · rename_i hrow
      split at h
      · cases h
      · rename_i hrecord
        split at h <;> cases h
        exact .finalize hrow hrecord
  | purge =>
    cases h
    exact .purge

/-- Parts that succeed one after another make steps. -/
lemma Steps.of_run (h : (parts.forM Part.run).run writer = .ok ((), last)) :
    Steps writer parts last := by
  induction parts generalizing writer with
  | nil =>
    cases h
    exact .nil _
  | cons part rest ih =>
    obtain ⟨_, middle, hpart, hrest⟩ := WriteM.run_bind_eq_ok_iff.1 h
    exact .cons (.of_run hpart) (ih hrest)

/-! ## What steps leave alone -/

lemma Step.sameFrame (h : Step writer part last) : writer.SameFrame last := by
  cases h with
  | settle slot => exact Writer.sameFrame_settle writer slot
  | mark => exact (Writer.rowsOnly_putRecord writer _).sameFrame
  | markUnseen => exact Writer.sameFrame_enter writer _ _
  | remove spent => exact Writer.sameFrame_leave writer _ _
  | propose => exact Writer.sameFrame_enter writer _ _
  | finalizeSeen => exact (Writer.rowsOnly_putRecord writer _).sameFrame
  | finalize => exact Writer.sameFrame_enter writer _ _
  | markSame | proposeSeen | finalizeFinal | purge => exact ⟨rfl, rfl, rfl⟩

lemma Steps.sameFrame (h : Steps writer parts last) : writer.SameFrame last := by
  induction h with
  | nil => exact ⟨rfl, rfl, rfl⟩
  | cons hstep _ ih => exact hstep.sameFrame.trans ih

lemma Step.ready (h : Step writer part last) (hready : writer.Ready) : last.Ready := by
  cases h with
  | settle slot => exact hready.settle slot
  | mark => exact hready.putRecord _
  | markUnseen => exact hready.enter _ _
  | remove spent => exact hready.leave _ _
  | propose => exact hready.enter _ _
  | finalizeSeen => exact hready.putRecord _
  | finalize => exact hready.enter _ _
  | markSame | proposeSeen | finalizeFinal => exact hready
  | purge =>
    have hsame := Store.sameRecords_purgeOrphans writer.store
    exact hready.of_sound (hready.sound.of_sameRecords hsame) rfl

lemma Steps.ready (h : Steps writer parts last) (hready : writer.Ready) : last.Ready := by
  induction h with
  | nil => exact hready
  | cons hstep _ ih => exact ih (hstep.ready hready)

/-- What every step of a ready writer keeps is kept by a sequence of steps. -/
lemma Steps.preserves {P : Set LedgerOutput → Store → Prop} (unspent : Set LedgerOutput)
    (hstep : ∀ part ∈ parts, ∀ (unspent : Set LedgerOutput) (writer last : Writer),
      writer.Ready → Step writer part last → P unspent writer.store →
        P (part.next unspent) last.store)
    (h : Steps writer parts last) (hready : writer.Ready) (hP : P unspent writer.store) :
    P (parts.foldl Part.next unspent) last.store := by
  induction h generalizing unspent with
  | nil => exact hP
  | cons hfirst _ ih =>
    have hrest := fun part hpart => hstep part (List.mem_cons_of_mem _ hpart)
    refine ih _ hrest (hfirst.ready hready) ?_
    exact hstep _ List.mem_cons_self _ _ _ hready hfirst hP

end OutputIndex
