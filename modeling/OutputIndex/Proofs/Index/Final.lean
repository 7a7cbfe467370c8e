import OutputIndex.Proofs.Index.Residue
import OutputIndex.Proofs.Index.Rows

/-!
# Final rows

A final row is never lost and never changes but for its mark, whatever the updates list: only a
commit that consumes its output and does not create it takes it out (`Operation.TakesOut`).  What
becomes of the mark depends on the operation and on the mark only (`Operation.markAfter`): accepted
updates that do not consume the output leave it, a sweep takes it back up to its slot.

The main statement is `Index.row_after_of_committed`; through a run of operations a final row stays
until it is taken out (`Index.row_foldl_after_of_committed`).
-/

namespace OutputIndex

/-- The update takes an output out: it consumes it under its kind, and does not create it. -/
def LedgerUpdate.TakesOut (update : LedgerUpdate) (kind : OutputKind) (id : OutputId) : Prop :=
  (∃ spent ∈ update.consumed, spent.output.IsAt kind id) ∧ ¬update.Creates id

namespace Operation

/-- The operation takes an output out for good. -/
def TakesOut (operation : Operation) (kind : OutputKind) (id : OutputId) : Prop :=
  ∃ update, operation.committed? = some update ∧ update.TakesOut kind id

/-- The mark of a final row after an operation. -/
def markAfter (kind : OutputKind) (id : OutputId) (mark : Slot) : Operation → Slot
  | accept update => (Part.lastMark? kind id (accept update).parts).getD mark
  | commit update => if mark ≤ update.slot then 0 else mark
  | rollback => 0

end Operation

variable {kind : OutputKind} {id : OutputId} {record : OutputRecord} {update : LedgerUpdate}
  {slot : Slot}

/-! ## Sweeps and commits -/

lemma OutputRecord.swept_of_committed (h : record.about.committed = true) (slot : Slot) :
    record.swept slot = some (record.unmarked slot) := by
  have hstays : ¬record.Lapses slot := by
    rintro ⟨htentative, -⟩
    rw [h] at htentative
    cases htentative
  rw [swept, if_neg hstays]

lemma OutputRecord.unmarked_eq_spentAt (record : OutputRecord) (slot : Slot) :
    record.unmarked slot = record.spentAt
      (if record.about.deletedAtSlot ≤ slot then 0 else record.about.deletedAtSlot) := by
  unfold unmarked
  split
  · rfl
  · rw [spentAt_deletedAtSlot]

lemma OutputRecord.committed_unmarked (record : OutputRecord) (slot : Slot) :
    (record.unmarked slot).about.committed = record.about.committed := by
  rw [unmarked_eq_spentAt, about_spentAt]

lemma LedgerUpdate.takesOut_iff :
    update.TakesOut kind id ↔ ∃ spent ∈ update.netConsumed, spent.output.IsAt kind id := by
  constructor
  · rintro ⟨⟨spent, hspent, hat⟩, hnot⟩
    have hid : spent.outputId = id := hat.2
    exact ⟨spent, mem_netConsumed_iff.2 ⟨hspent, hid ▸ hnot⟩, hat⟩
  · rintro ⟨spent, hspent, hat⟩
    obtain ⟨hconsumed, hnot⟩ := mem_netConsumed_iff.1 hspent
    have hid : spent.outputId = id := hat.2
    exact ⟨⟨spent, hconsumed, hat⟩, hid ▸ hnot⟩

namespace Operation

/-- What the parts of a commit make of a final row. -/
lemma foldl_commit_of_committed (h : record.about.committed = true) :
    (update.TakesOut kind id →
      (commit update).parts.foldl (Part.onRow kind id) (some record) = none) ∧
    (¬update.TakesOut kind id →
      (commit update).parts.foldl (Part.onRow kind id) (some record) =
        some (record.unmarked update.slot)) := by
  have hsettled : (Part.settle update.slot).onRow kind id (some record) =
      some (record.unmarked update.slot) := OutputRecord.swept_of_committed h update.slot
  rw [parts, List.foldl_cons, List.foldl_append, hsettled, Part.foldl_remove]
  constructor
  · intro htakes
    -- the output is not created either, so nothing puts the row back
    have hnone : ∀ output ∈ update.netCreated, ¬output.IsAt kind id := by
      intro output houtput hat
      obtain ⟨hcreated, -⟩ := LedgerUpdate.mem_netCreated_iff.1 houtput
      exact htakes.2 ⟨output, hcreated, hat.2⟩
    rw [if_pos (LedgerUpdate.takesOut_iff.1 htakes), Part.foldl_finalize_of_forall_not hnone]
  · intro htakes
    have hfinal : (record.unmarked update.slot).about.committed = true :=
      (record.committed_unmarked update.slot).trans h
    rw [if_neg fun hspent => htakes (LedgerUpdate.takesOut_iff.2 hspent),
      Part.foldl_finalize_of_committed _ hfinal]

/-- What the parts of a rollback make of a final row. -/
lemma foldl_rollback_of_committed (h : record.about.committed = true) :
    rollback.parts.foldl (Part.onRow kind id) (some record) = some (record.spentAt 0) := by
  have hunmarked : record.unmarked Slot.last = record.spentAt 0 := if_pos (Slot.le_last _)
  exact (OutputRecord.swept_of_committed h Slot.last).trans (congrArg some hunmarked)

/-- Updates that do not consume an output put no mark on its row. -/
lemma markAfter_accept (h : ∀ spent ∈ update.consumed, ¬spent.output.IsAt kind id) (mark : Slot) :
    (accept update).markAfter kind id mark = mark := by
  have hnone : (accept update).parts.filterMap (Part.mark? kind id) = [] := by
    rw [List.filterMap_eq_nil_iff]
    intro part hpart
    rcases List.mem_append.1 hpart with hpart | hpart
    · obtain ⟨spent, hspent, rfl⟩ := List.mem_map.1 hpart
      exact if_neg (h spent (LedgerUpdate.mem_netConsumed_iff.1 hspent).1)
    · obtain ⟨output, -, rfl⟩ := List.mem_map.1 hpart
      rfl
  rw [markAfter, Part.lastMark?, hnone]
  rfl

end Operation

/-! ## Operations -/

/-- The row is final, and nothing of it but the mark differs from the record. -/
structure OutputRecord.Continues (row record : OutputRecord) : Prop where
  committed : row.about.committed = true
  same : row = record.spentAt row.about.deletedAtSlot

namespace OutputRecord

lemma Continues.refl (h : record.about.committed = true) : record.Continues record :=
  ⟨h, (spentAt_deletedAtSlot record).symm⟩

lemma continues_spentAt (h : record.about.committed = true) (mark : Slot) :
    (record.spentAt mark).Continues record := by
  refine ⟨?_, ?_⟩
  · rw [about_spentAt]
    exact h
  · rw [about_spentAt]

lemma Continues.trans {row middle : OutputRecord} (h : row.Continues middle)
    (h' : middle.Continues record) : row.Continues record := by
  refine ⟨h.committed, ?_⟩
  calc
    row = middle.spentAt row.about.deletedAtSlot := h.same
    _ = (record.spentAt middle.about.deletedAtSlot).spentAt row.about.deletedAtSlot := by
      rw [← h'.same]
    _ = record.spentAt row.about.deletedAtSlot := spentAt_spentAt _ _ _

end OutputRecord

namespace Index

variable {index : Index} {operation : Operation}

lemma row?_after_of_committed (hexact : index.store.Exact)
    (hsucceeds : index.succeeds operation = true)
    (hrow : index.store.row? kind id = some record) (hfinal : record.about.committed = true) :
    (operation.TakesOut kind id → (index.after operation).store.row? kind id = none) ∧
      (¬operation.TakesOut kind id → (index.after operation).store.row? kind id =
        some (record.spentAt (operation.markAfter kind id record.about.deletedAtSlot))) := by
  rw [row?_after hexact hsucceeds, hrow]
  cases operation with
  | accept update =>
    refine ⟨?_, fun _ => ?_⟩
    · rintro ⟨_, hnone, -⟩
      cases hnone
    · have hparts : ∀ part ∈ (Operation.accept update).parts, part.IsSpeculative :=
        fun part hpart => Part.isSpeculative_of_mem_accept hpart
      exact Part.foldl_speculative_some hparts record
  | commit update =>
    have htakes : (Operation.commit update).TakesOut kind id ↔ update.TakesOut kind id := by
      simp [Operation.TakesOut, Operation.committed?]
    rw [htakes, Operation.markAfter, ← OutputRecord.unmarked_eq_spentAt]
    exact Operation.foldl_commit_of_committed hfinal
  | rollback =>
    refine ⟨?_, fun _ => ?_⟩
    · rintro ⟨_, hnone, -⟩
      cases hnone
    · exact Operation.foldl_rollback_of_committed hfinal

/-- **Final rows are never lost or altered.**  After any operation that succeeds a final row is
there, final and the same but for its mark, unless the operation commits an update that consumes the
output under its kind and does not create it.  Accepted updates leave the mark of an output that
they do not consume, a rollback takes every mark back, and a commit takes back the marks up to its
slot and no others. -/
theorem row_after_of_committed (index : Index)
    (hreachable : Store.Reachable Set.univ index.store) (operation : Operation)
    (hsucceeds : index.succeeds operation = true) (kind : OutputKind) (id : OutputId)
    (record : OutputRecord) (hrow : index.store.row? kind id = some record)
    (hfinal : record.about.committed = true) :
    let after := (index.after operation).store.row? kind id
    (operation.TakesOut kind id → after = none) ∧
      (¬operation.TakesOut kind id → ∃ row, after = some row ∧ row.Continues record ∧
        match operation with
        | .accept update =>
          (∀ spent ∈ update.consumed, ¬spent.output.IsAt kind id) →
            row.about.deletedAtSlot = record.about.deletedAtSlot
        | .commit update =>
          (update.slot < record.about.deletedAtSlot →
              row.about.deletedAtSlot = record.about.deletedAtSlot) ∧
            (record.about.deletedAtSlot ≤ update.slot → row.about.deletedAtSlot = 0)
        | .rollback => row.about.deletedAtSlot = 0) := by
  intro after
  obtain ⟨hgone, hkept⟩ := row?_after_of_committed hreachable.exact hsucceeds hrow hfinal
  refine ⟨hgone, fun htakes => ⟨_, hkept htakes, OutputRecord.continues_spentAt hfinal _, ?_⟩⟩
  cases operation with
  | accept update =>
    intro hnone
    rw [OutputRecord.about_spentAt]
    exact Operation.markAfter_accept hnone _
  | commit update =>
    rw [OutputRecord.about_spentAt]
    exact ⟨fun hlater => if_neg (UInt32.not_le.2 hlater), fun hle => if_pos hle⟩
  | rollback =>
    rw [OutputRecord.about_spentAt]
    rfl

/-- An output of the import that is spent in slot 7 keeps its row and its mark when slot 6 is
committed with an update that both consumes and creates it. -/
theorem row_after_commit_sampleContradiction :
    let index := sampleIndex.after (.accept ⟨7, [⟨sampleSpent, 7⟩], []⟩)
    let operation : Operation := .commit ⟨6, [⟨sampleSpent, 6⟩], [sampleSpent]⟩
    Store.Reachable Set.univ index.store ∧ index.succeeds operation = true ∧
      ∃ record, index.store.row? .basic sampleSpent.outputId = some record ∧
        record.about.committed = true ∧ ¬operation.TakesOut .basic sampleSpent.outputId ∧
        ∃ row, (index.after operation).store.row? .basic sampleSpent.outputId = some row ∧
          row.Continues record ∧ row.about.deletedAtSlot = 7 := by
  intro index operation
  have hreachable : Store.Reachable Set.univ index.store :=
    .operation _ (fun _ _ => trivial) reachable_univ_sampleIndex
  obtain ⟨hsucceeds, record, hrow, hfinal, hmark⟩ : index.succeeds operation = true ∧
      ∃ record, index.store.row? .basic sampleSpent.outputId = some record ∧
        record.about.committed = true ∧ record.about.deletedAtSlot = 7 := by
    decide +kernel
  have htakes : ¬operation.TakesOut .basic sampleSpent.outputId := by
    rintro ⟨update, hupdate, -, hnot⟩
    cases hupdate
    exact hnot ⟨sampleSpent, List.mem_singleton.2 rfl, rfl⟩
  obtain ⟨-, hkept⟩ := row_after_of_committed index hreachable operation hsucceeds .basic
    sampleSpent.outputId record hrow hfinal
  obtain ⟨row, hafter, hcontinues, hlater, -⟩ := hkept htakes
  refine ⟨hreachable, hsucceeds, record, hrow, hfinal, htakes, row, hafter, hcontinues, ?_⟩
  rw [hmark] at hlater
  exact hlater (by decide)

/-- Through any run of operations a final row stays, until one of those that succeed takes its
output out. -/
theorem row_foldl_after_of_committed (index : Index)
    (hreachable : Store.Reachable Set.univ index.store) (operations : List Operation)
    (kind : OutputKind) (id : OutputId) (record : OutputRecord)
    (hrow : index.store.row? kind id = some record) (hfinal : record.about.committed = true)
    (hkept : ∀ operation ∈ index.successes operations, ¬operation.TakesOut kind id) :
    ∃ row, (operations.foldl after index).store.row? kind id = some row ∧
      row.Continues record := by
  induction operations generalizing index record with
  | nil => exact ⟨record, hrow, .refl hfinal⟩
  | cons operation rest ih =>
    rw [successes] at hkept
    rw [List.foldl_cons]
    cases hsucceeds : index.succeeds operation with
    | false =>
      rw [hsucceeds, if_neg Bool.false_ne_true] at hkept
      rw [after_eq_self hsucceeds] at hkept ⊢
      exact ih index hreachable record hrow hfinal hkept
    | true =>
      rw [hsucceeds, if_pos rfl] at hkept
      have hreachable' : Store.Reachable Set.univ (index.after operation).store :=
        .operation operation (fun _ _ => trivial) hreachable
      -- this operation leaves the row but for its mark, and the others do so from there on
      have hafter := (row?_after_of_committed hreachable.exact hsucceeds hrow hfinal).2
        (hkept operation List.mem_cons_self)
      have hcontinues := OutputRecord.continues_spentAt hfinal
        (operation.markAfter kind id record.about.deletedAtSlot)
      obtain ⟨row, hlast, hrest⟩ := ih _ hreachable' _ hafter hcontinues.committed
        fun o ho => hkept o (List.mem_cons_of_mem operation ho)
      exact ⟨row, hlast, hrest.trans hcontinues⟩

end Index

end OutputIndex
