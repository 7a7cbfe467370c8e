import OutputIndex.Proofs.Index.Operations

/-!
# Rows, one at a time

Every part of a write acts on each row apart from all others, and what it makes of a row depends on
the row only (`Part.onRow`).  So the row of an output after an operation is what the parts of the
operation make of it, one after another (`Index.row?_after`), and after a run of operations it is
what the parts of those that succeed make of it (`Index.row?_foldl_after`).

What is left to do for a single row is to go through a list of parts.  A commit takes rows out and
makes rows final (`Part.foldl_remove`, `Part.foldl_finalize`).  An accepted update never takes a row
out, changes nothing of it but the mark, and of several marks the last one holds
(`Part.foldl_speculative_some`).
-/

namespace OutputIndex

/-! ## What a part makes of a row -/

namespace LedgerOutput

/-- The output has the kind and the identifier. -/
def IsAt (output : LedgerOutput) (kind : OutputKind) (id : OutputId) : Prop :=
  output.kind = kind ∧ output.outputId = id

instance (output : LedgerOutput) (kind : OutputKind) (id : OutputId) :
    Decidable (output.IsAt kind id) :=
  inferInstanceAs (Decidable (_ ∧ _))

/-- What accepting an output makes of its row: an output that has none is recorded as tentative. -/
def proposed (output : LedgerOutput) : Option OutputRecord → Option OutputRecord
  | some record => some record
  | none => (OutputRecord.ofLedgerOutput output false).toOption

/-- What committing an output makes of its row: it becomes final, or the output is recorded. -/
def takenOver (output : LedgerOutput) : Option OutputRecord → Option OutputRecord
  | some record => some record.finalized
  | none => (OutputRecord.ofLedgerOutput output true).toOption

end LedgerOutput

/-- What accepting that an output is spent makes of its row. -/
def LedgerSpent.marked (spent : LedgerSpent) (row : Option OutputRecord) : Option OutputRecord :=
  (spent.output.proposed row).map (·.spentAt spent.spentAt)

/-- What a part makes of the row of an output. -/
def Part.onRow (kind : OutputKind) (id : OutputId) (row : Option OutputRecord) :
    Part → Option OutputRecord
  | settle slot => row.bind (·.swept slot)
  | mark spent => if spent.output.IsAt kind id then spent.marked row else row
  | remove spent => if spent.output.IsAt kind id then none else row
  | propose output => if output.IsAt kind id then output.proposed row else row
  | finalize output => if output.IsAt kind id then output.takenOver row else row
  | purge => row

variable {writer last : Writer} {part : Part} {parts : List Part} {kind : OutputKind}
  {id : OutputId} {row : Option OutputRecord} {record : OutputRecord} {output : LedgerOutput}
  {slot : Slot}

namespace OutputRecord

lemma finalized_of_committed (h : record.about.committed = true) : record.finalized = record := by
  have habout : { record.about with committed := true } = record.about := by rw [← h]
  rw [finalized, habout, withAbout_about]

lemma spentAt_of_eq (h : record.about.deletedAtSlot = slot) : record.spentAt slot = record := by
  rw [← h, spentAt_deletedAtSlot]

lemma spentAt_unmarked (record : OutputRecord) (slot mark : Slot) :
    (record.unmarked slot).spentAt mark = record.spentAt mark := by
  unfold unmarked
  split
  · rw [spentAt_spentAt]
  · rfl

/-- A record that is live or has a mark of a later slot has nothing for a sweep to take back. -/
lemma unmarked_eq_self
    (h : record.about.deletedAtSlot = 0 ∨ slot < record.about.deletedAtSlot) :
    record.unmarked slot = record := by
  unfold unmarked
  split
  · rename_i hle
    rcases h with hzero | hlt
    · exact spentAt_of_eq hzero
    · exact absurd hle (UInt32.not_le.2 hlt)
  · rfl

end OutputRecord

/-! ## Steps and operations act on rows -/

namespace Store

variable {store other : Store} {f : Option OutputRecord → Option OutputRecord}

/-- A record of an output that is put changes the row of that output and no other. -/
lemma row?_eq_of_put (hkind : record.kind = output.kind) (hid : record.outputId = output.outputId)
    (hrows : ∀ kind id, other.row? kind id =
      if kind = record.kind ∧ id = record.outputId then some record else store.row? kind id)
    (hown : f (store.row? output.kind output.outputId) = some record) :
    other.row? kind id =
      if output.IsAt kind id then f (store.row? kind id) else store.row? kind id := by
  rw [hrows, hkind, hid]
  by_cases hat : output.IsAt kind id
  · obtain ⟨rfl, rfl⟩ := hat
    rw [if_pos ⟨rfl, rfl⟩, if_pos ⟨rfl, rfl⟩, hown]
  · rw [if_neg hat, if_neg fun hkey => hat ⟨hkey.1.symm, hkey.2.symm⟩]

/-- Where the row of an output stays as it is all rows do. -/
lemma row?_eq_of_same
    (hown : f (store.row? output.kind output.outputId) = store.row? output.kind output.outputId) :
    store.row? kind id =
      if output.IsAt kind id then f (store.row? kind id) else store.row? kind id := by
  split
  · rename_i hat
    obtain ⟨rfl, rfl⟩ := hat
    rw [hown]
  · rfl

end Store

/-- A step makes of each row what its part makes of it. -/
lemma Step.row?_eq (h : Step writer part last) (hready : writer.Ready) (kind : OutputKind)
    (id : OutputId) :
    last.store.row? kind id = part.onRow kind id (writer.store.row? kind id) := by
  have hkeyed := hready.exact.keyed
  cases h with
  | settle slot => exact Writer.row?_settle hready slot kind id
  | @mark spent record hrow =>
    obtain ⟨hkind, hid⟩ := hkeyed _ _ _ hrow
    refine Store.row?_eq_of_put (f := spent.marked) ((record.kind_spentAt _).trans hkind)
      ((record.outputId_spentAt _).trans hid) (Writer.row?_putRecord writer _) ?_
    exact congrArg spent.marked hrow
  | @markSame spent record hrow hsame =>
    refine Store.row?_eq_of_same (f := spent.marked) ?_
    have hmarked : spent.marked (some record) = some record :=
      congrArg some (OutputRecord.spentAt_of_eq hsame)
    exact (congrArg spent.marked hrow).trans (hmarked.trans hrow.symm)
  | @markUnseen spent record hrow hrecord =>
    have hrecords := (OutputRecord.records_of_ok hrecord).spentAt spent.spentAt
    refine Store.row?_eq_of_put (f := spent.marked) hrecords.kind hrecords.outputId
      (Writer.row?_enter writer _ _) ?_
    have hmarked : spent.marked none = some (record.spentAt spent.spentAt) := by
      rw [LedgerSpent.marked, LedgerOutput.proposed, hrecord]
      rfl
    exact (congrArg spent.marked hrow).trans hmarked
  | remove spent =>
    rw [Writer.row?_leave]
    exact if_congr ⟨fun h => ⟨h.1.symm, h.2.symm⟩, fun h => ⟨h.1.symm, h.2.symm⟩⟩ rfl rfl
  | @proposeSeen output record hrow =>
    refine Store.row?_eq_of_same (f := output.proposed) ?_
    rw [hrow]
    rfl
  | @propose output record hrow hrecord =>
    have hrecords := OutputRecord.records_of_ok hrecord
    refine Store.row?_eq_of_put (f := output.proposed) hrecords.kind hrecords.outputId
      (Writer.row?_enter writer _ _) ?_
    rw [hrow, LedgerOutput.proposed, hrecord]
    rfl
  | @finalizeFinal output record hrow hfinal =>
    refine Store.row?_eq_of_same (f := output.takenOver) ?_
    rw [hrow, LedgerOutput.takenOver, OutputRecord.finalized_of_committed hfinal]
  | @finalizeSeen output record hrow =>
    obtain ⟨hkind, hid⟩ := hkeyed _ _ _ hrow
    refine Store.row?_eq_of_put (f := output.takenOver) (record.kind_finalized.trans hkind)
      (record.outputId_finalized.trans hid) (Writer.row?_putRecord writer _) ?_
    rw [hrow, LedgerOutput.takenOver]
  | @finalize output record hrow hrecord =>
    have hrecords := OutputRecord.records_of_ok hrecord
    refine Store.row?_eq_of_put (f := output.takenOver) hrecords.kind hrecords.outputId
      (Writer.row?_enter writer _ _) ?_
    rw [hrow, LedgerOutput.takenOver, hrecord]
    rfl
  | purge => exact (Store.sameRecords_purgeOrphans writer.store).row?_eq kind id

lemma Steps.row?_eq (h : Steps writer parts last) (hready : writer.Ready) (kind : OutputKind)
    (id : OutputId) :
    last.store.row? kind id = parts.foldl (Part.onRow kind id) (writer.store.row? kind id) := by
  induction h with
  | nil => rfl
  | cons hstep _ ih => rw [ih (hstep.ready hready), hstep.row?_eq hready, List.foldl_cons]

namespace Index

variable {index : Index} {operation : Operation} {operations : List Operation}

/-- The row of an output after an operation is what the parts of the operation make of it. -/
lemma row?_after (hexact : index.store.Exact) (hsucceeds : index.succeeds operation = true)
    (kind : OutputKind) (id : OutputId) :
    (index.after operation).store.row? kind id =
      operation.parts.foldl (Part.onRow kind id) (index.store.row? kind id) := by
  have hready := Writer.ready_start hexact index.fault
  cases operation with
  | accept update =>
    obtain ⟨-, writer, hsteps, hafter⟩ := steps_of_accept hsucceeds
    rw [hafter]
    exact hsteps.row?_eq hready kind id
  | commit update =>
    obtain ⟨status, writer, hcommits, hafter⟩ := commits_of_succeeds hsucceeds
    rw [hafter]
    exact (Steps.of_run hcommits.parts).row?_eq hready kind id
  | rollback =>
    obtain ⟨writer, hsteps, hafter⟩ := steps_of_rollback hsucceeds
    rw [hafter]
    exact hsteps.row?_eq hready kind id

/-- After a run of operations the row of an output is what the parts of those that succeed make of
it, one after another. -/
lemma row?_foldl_after (hexact : index.store.Exact) (kind : OutputKind) (id : OutputId) :
    (operations.foldl after index).store.row? kind id =
      ((index.successes operations).flatMap Operation.parts).foldl (Part.onRow kind id)
        (index.store.row? kind id) := by
  induction operations generalizing index with
  | nil => rfl
  | cons operation rest ih =>
    rw [List.foldl_cons, ih (exact_after hexact operation), successes]
    cases hsucceeds : index.succeeds operation with
    | false =>
      rw [after_eq_self hsucceeds]
      rfl
    | true =>
      rw [row?_after hexact hsucceeds, if_pos rfl, List.flatMap_cons, List.foldl_append]

end Index

/-! ## Through the parts of a commit -/

namespace Part

/-- A row stays taken out if its output is consumed. -/
lemma foldl_remove (consumed : List LedgerSpent) (row : Option OutputRecord) :
    (consumed.map remove).foldl (onRow kind id) row =
      if ∃ spent ∈ consumed, spent.output.IsAt kind id then none else row := by
  induction consumed generalizing row with
  | nil => simp
  | cons spent rest ih =>
    rw [List.map_cons, List.foldl_cons, ih, onRow]
    by_cases hat : spent.output.IsAt kind id
    · simp [hat]
    · simp [hat]

/-- Outputs that are created leave the rows of all others alone. -/
lemma foldl_finalize_of_forall_not {created : List LedgerOutput}
    (h : ∀ output ∈ created, ¬output.IsAt kind id) (row : Option OutputRecord) :
    (created.map finalize).foldl (onRow kind id) row = row := by
  induction created generalizing row with
  | nil => rfl
  | cons output rest ih =>
    rw [List.map_cons, List.foldl_cons, onRow, if_neg (h output List.mem_cons_self)]
    exact ih (fun o ho => h o (List.mem_cons_of_mem _ ho)) row

/-- A row that is final stays as it is, whatever is created. -/
lemma foldl_finalize_of_committed (created : List LedgerOutput)
    (h : record.about.committed = true) :
    (created.map finalize).foldl (onRow kind id) (some record) = some record := by
  induction created with
  | nil => rfl
  | cons output rest ih =>
    rw [List.map_cons, List.foldl_cons, onRow, LedgerOutput.takenOver,
      OutputRecord.finalized_of_committed h, ite_self]
    exact ih

/-! ## Through the parts of accepted updates -/

/-- The part belongs to an accepted update. -/
def IsSpeculative : Part → Prop
  | mark _ | propose _ => True
  | settle _ | remove _ | finalize _ | purge => False

lemma isSpeculative_of_mem_accept {update : LedgerUpdate}
    (h : part ∈ (Operation.accept update).parts) : part.IsSpeculative := by
  rcases List.mem_append.1 h with h | h
  all_goals
    obtain ⟨_, -, rfl⟩ := List.mem_map.1 h
    trivial

/-- The mark that a part puts on a row. -/
def mark? (kind : OutputKind) (id : OutputId) : Part → Option Slot
  | mark spent => if spent.output.IsAt kind id then some spent.spentAt else none
  | settle _ | remove _ | propose _ | finalize _ | purge => none

/-- The last mark that parts put on a row. -/
def lastMark? (kind : OutputKind) (id : OutputId) (parts : List Part) : Option Slot :=
  (parts.filterMap (mark? kind id)).getLast?

lemma lastMark?_cons (part : Part) (parts : List Part) :
    lastMark? kind id (part :: parts) = (lastMark? kind id parts).or (part.mark? kind id) := by
  rw [lastMark?, lastMark?, List.filterMap_cons]
  cases part.mark? kind id with
  | none => exact (Option.or_none).symm
  | some slot =>
    rw [List.getLast?_cons]
    cases (parts.filterMap (mark? kind id)).getLast? <;> rfl

lemma IsSpeculative.onRow_some (h : part.IsSpeculative) (record : OutputRecord) :
    part.onRow kind id (some record) =
      some (record.spentAt ((part.mark? kind id).getD record.about.deletedAtSlot)) := by
  cases part with
  | mark spent =>
    rw [onRow, mark?]
    split
    · rfl
    · exact congrArg some (OutputRecord.spentAt_deletedAtSlot record).symm
  | propose output =>
    rw [onRow, mark?, LedgerOutput.proposed, ite_self]
    exact congrArg some (OutputRecord.spentAt_deletedAtSlot record).symm
  | settle slot | remove spent | finalize output | purge => cases h

/-- Accepted updates keep every row but for its mark, and of their marks the last one holds. -/
lemma foldl_speculative_some (h : ∀ part ∈ parts, part.IsSpeculative) (record : OutputRecord) :
    parts.foldl (onRow kind id) (some record) =
      some (record.spentAt ((lastMark? kind id parts).getD record.about.deletedAtSlot)) := by
  induction parts generalizing record with
  | nil => exact congrArg some (OutputRecord.spentAt_deletedAtSlot record).symm
  | cons part rest ih =>
    have hpart := h part List.mem_cons_self
    rw [List.foldl_cons, hpart.onRow_some, ih fun p hp => h p (List.mem_cons_of_mem _ hp),
      OutputRecord.spentAt_spentAt, OutputRecord.about_spentAt, lastMark?_cons]
    cases lastMark? kind id rest <;> rfl

/-- Where the output of a part can be recorded, a row that comes with it has the part's mark. -/
lemma IsSpeculative.onRow_none (h : part.IsSpeculative)
    (hrecords : ∀ output ∈ part.outputs,
      ∃ record, OutputRecord.ofLedgerOutput output false = .ok record) :
    (part.onRow kind id none = none ∧ part.mark? kind id = none) ∨
      ∃ record, part.onRow kind id none = some record ∧
        record.about.deletedAtSlot = (part.mark? kind id).getD 0 := by
  cases part with
  | mark spent =>
    rw [onRow, mark?]
    by_cases hat : spent.output.IsAt kind id
    · obtain ⟨record, hrecord⟩ := hrecords spent.output (List.mem_singleton.2 rfl)
      rw [if_pos hat, if_pos hat, LedgerSpent.marked, LedgerOutput.proposed, hrecord]
      exact .inr ⟨_, rfl, by rw [OutputRecord.about_spentAt]; rfl⟩
    · exact .inl ⟨if_neg hat, if_neg hat⟩
  | propose output =>
    rw [onRow, mark?]
    by_cases hat : output.IsAt kind id
    · obtain ⟨record, hrecord⟩ := hrecords output (List.mem_singleton.2 rfl)
      rw [if_pos hat, LedgerOutput.proposed, hrecord]
      exact .inr ⟨record, rfl, by rw [OutputRecord.about_of_ok hrecord]; rfl⟩
    · exact .inl ⟨if_neg hat, rfl⟩
  | settle slot | remove spent | finalize output | purge => cases h

/-- A row that comes with accepted updates has the last of their marks, or none. -/
lemma deletedAtSlot_of_foldl_none (h : ∀ part ∈ parts, part.IsSpeculative)
    (hrecords : ∀ part ∈ parts, ∀ output ∈ part.outputs,
      ∃ record, OutputRecord.ofLedgerOutput output false = .ok record)
    (hrow : parts.foldl (onRow kind id) none = some record) :
    record.about.deletedAtSlot = (lastMark? kind id parts).getD 0 := by
  induction parts with
  | nil => cases hrow
  | cons part rest ih =>
    have hrest := fun p hp => h p (List.mem_cons_of_mem part hp)
    rw [List.foldl_cons] at hrow
    rw [lastMark?_cons]
    rcases (h part List.mem_cons_self).onRow_none (hrecords part List.mem_cons_self)
      with ⟨hnone, hmark⟩ | ⟨first, hfirst, hmark⟩
    · rw [hnone] at hrow
      rw [hmark, Option.or_none]
      exact ih hrest (fun p hp => hrecords p (List.mem_cons_of_mem part hp)) hrow
    · rw [hfirst, foldl_speculative_some hrest] at hrow
      rw [← Option.some.inj hrow, OutputRecord.about_spentAt, hmark]
      cases lastMark? kind id rest <;> rfl

/-- Accepted updates that are taken over again after a sweep make the same row again, if the sweep
takes back marks that they have put. -/
lemma foldl_speculative_unmarked (h : ∀ part ∈ parts, part.IsSpeculative)
    (hrecords : ∀ part ∈ parts, ∀ output ∈ part.outputs,
      ∃ record, OutputRecord.ofLedgerOutput output false = .ok record)
    (hrow : ∀ record, row = some record →
      record.about.deletedAtSlot = 0 ∨ slot < record.about.deletedAtSlot) :
    parts.foldl (onRow kind id) ((parts.foldl (onRow kind id) row).map (·.unmarked slot)) =
      parts.foldl (onRow kind id) row := by
  cases hlast : parts.foldl (onRow kind id) row with
  | none =>
    -- nothing has come, so nothing was there and nothing comes again
    cases row with
    | none => exact hlast
    | some record =>
      rw [foldl_speculative_some h] at hlast
      cases hlast
  | some last =>
    rw [Option.map_some, foldl_speculative_some h]
    have hmark : last.about.deletedAtSlot = (lastMark? kind id parts).getD
        (row.elim 0 (·.about.deletedAtSlot)) := by
      cases row with
      | none => exact deletedAtSlot_of_foldl_none h hrecords hlast
      | some record =>
        rw [foldl_speculative_some h] at hlast
        rw [← Option.some.inj hlast, OutputRecord.about_spentAt]
        rfl
    cases hlastMark : lastMark? kind id parts with
    | some mark =>
      -- the last mark is put again, whether the sweep has taken it back or not
      rw [hlastMark, Option.getD_some] at hmark
      rw [Option.getD_some, OutputRecord.spentAt_unmarked, OutputRecord.spentAt_of_eq hmark]
    | none =>
      have hkept : last.unmarked slot = last := by
        rw [hlastMark, Option.getD_none] at hmark
        refine OutputRecord.unmarked_eq_self ?_
        rw [hmark]
        cases row with
        | none => exact .inl rfl
        | some record => exact hrow record rfl
      rw [hkept, Option.getD_none, OutputRecord.spentAt_deletedAtSlot]

end Part

end OutputIndex
