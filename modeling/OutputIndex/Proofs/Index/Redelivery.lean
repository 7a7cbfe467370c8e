import OutputIndex.Proofs.Index.Commits
import OutputIndex.Proofs.Index.Definitions
import OutputIndex.Proofs.Index.Final
import OutputIndex.Proofs.Index.Follow

/-!
# Redelivery

A node may send its events again.  Events in slot order that have been followed to their end leave
the index as it is when they are followed once more (`Index.follow_again`).

Up to the last commit the events are stale by then.  The commit itself succeeds again, as what it
creates has final rows and what it consumes is gone (`Index.succeeds_commit_again`).  Its sweep
drops or unmarks some of what the events beyond it have brought: each row becomes again what it was
after the first commit, or it keeps what has been accepted but for marks of early slots
(`Index.row?_after_commit_again`).  Either way the updates beyond the commit make of it what they
had made of it before, since they bring the same rows and put the same last marks
(`Index.AcceptsOnly.again`).
-/

namespace OutputIndex

variable {known : Set LedgerOutput} {kind : OutputKind} {id : OutputId} {slot : Slot}
  {record : OutputRecord} {output : LedgerOutput} {update : LedgerUpdate}

/-! ## Rows after a commit -/

/-- A sweep leaves no mark up to its slot. -/
lemma OutputRecord.deletedAtSlot_of_swept {left : OutputRecord}
    (h : record.swept slot = some left) :
    left.about.deletedAtSlot = 0 ∨ slot < left.about.deletedAtSlot := by
  obtain ⟨-, rfl⟩ := swept_eq_some_iff.1 h
  rw [unmarked_eq_spentAt, about_spentAt]
  by_cases hle : record.about.deletedAtSlot ≤ slot
  · exact .inl (if_pos hle)
  · right
    show slot < if record.about.deletedAtSlot ≤ slot then 0 else record.about.deletedAtSlot
    rw [if_neg hle]
    exact UInt32.not_le.1 hle

/-- What a sweep leaves it leaves again. -/
lemma OutputRecord.swept_spentAt {left : OutputRecord} (h : record.swept slot = some left)
    (mark : Slot) : (left.spentAt mark).swept slot = some ((left.spentAt mark).unmarked slot) := by
  obtain ⟨hstays, rfl⟩ := swept_eq_some_iff.1 h
  refine swept_eq_some_iff.2 ⟨?_, rfl⟩
  rw [unmarked_eq_spentAt, spentAt_spentAt, Lapses, about_spentAt]
  exact hstays

lemma OutputRecord.eq_zero_or_marked (record : OutputRecord) :
    record.about.deletedAtSlot = 0 ∨ 0 < record.about.deletedAtSlot := by
  by_cases hzero : record.about.deletedAtSlot = 0
  · exact .inl hzero
  · exact .inr (UInt32.pos_iff_ne_zero.2 hzero)

namespace LedgerOutput

lemma committed_of_takenOver {row : Option OutputRecord} (h : output.takenOver row = some record) :
    record.about.committed = true := by
  cases row with
  | some row =>
    obtain rfl : row.finalized = record := Option.some.inj h
    rw [OutputRecord.about_finalized]
  | none =>
    rw [OutputRecord.about_of_ok (takenOver_none_eq_some_iff.1 h)]
    rfl

lemma deletedAtSlot_of_takenOver {row : Option OutputRecord}
    (hrow : ∀ left, row = some left →
      left.about.deletedAtSlot = 0 ∨ slot < left.about.deletedAtSlot)
    (h : output.takenOver row = some record) :
    record.about.deletedAtSlot = 0 ∨ slot < record.about.deletedAtSlot := by
  cases row with
  | some left =>
    obtain rfl : left.finalized = record := Option.some.inj h
    rw [OutputRecord.about_finalized]
    exact hrow left rfl
  | none =>
    rw [OutputRecord.about_of_ok (takenOver_none_eq_some_iff.1 h)]
    exact .inl rfl

end LedgerOutput

namespace Index

variable {index other last next : Index} {updates : List LedgerUpdate}
  {events : List LedgerEvent}

/-- After a commit the marks that are left are of later slots. -/
lemma deletedAtSlot_after_commit (hexact : index.store.Exact)
    (hsucceeds : index.succeeds (.commit update) = true)
    (hrow : (index.after (.commit update)).store.row? kind id = some record) :
    record.about.deletedAtSlot = 0 ∨ update.slot < record.about.deletedAtSlot := by
  have hleft : ∀ left, (index.store.row? kind id).bind (·.swept update.slot) = some left →
      left.about.deletedAtSlot = 0 ∨ update.slot < left.about.deletedAtSlot := by
    intro left hleft
    obtain ⟨before, -, hswept⟩ := Option.bind_eq_some_iff.1 hleft
    exact OutputRecord.deletedAtSlot_of_swept hswept
  rcases row?_after_commit hexact hsucceeds kind id with
    ⟨output, -, -, -, taken, htaken, htakenOver⟩ | ⟨-, hlast⟩
  · obtain rfl : taken = record := Option.some.inj (htaken.symm.trans hrow)
    exact LedgerOutput.deletedAtSlot_of_takenOver hleft htakenOver
  · rw [hrow] at hlast
    split at hlast
    · cases hlast
    · exact hleft record hlast.symm

/-- Accepted updates keep every row but for its mark. -/
lemma exists_row?_foldl_accept (hexact : index.store.Exact)
    (hrow : index.store.row? kind id = some record) :
    ∃ mark, ((updates.map .accept).foldl after index).store.row? kind id =
      some (record.spentAt mark) := by
  have hspeculative : ∀ part ∈ (index.successes (updates.map .accept)).flatMap Operation.parts,
      part.IsSpeculative := by
    intro part hpart
    obtain ⟨operation, hoperation, hpart⟩ := List.mem_flatMap.1 hpart
    obtain ⟨update, -, rfl⟩ := List.mem_map.1 (mem_of_mem_successes hoperation)
    exact Part.isSpeculative_of_mem_accept hpart
  rw [row?_foldl_after hexact, hrow, Part.foldl_speculative_some hspeculative]
  exact ⟨_, rfl⟩

/-! ## The commit succeeds again -/

/-- The output has a final row. -/
def HasFinalRow (store : Store) (output : LedgerOutput) : Prop :=
  ∃ record, store.row? output.kind output.outputId = some record ∧ record.about.committed = true

/-- What a commit creates in the end has a final row. -/
lemma hasFinalRow_after_commit (hexact : index.store.Exact)
    (hsucceeds : index.succeeds (.commit update) = true) (hcreated : output ∈ update.netCreated) :
    HasFinalRow (index.after (.commit update)).store output := by
  rcases row?_after_commit hexact hsucceeds output.kind output.outputId with
    ⟨other, -, -, -, record, hrow, htaken⟩ | ⟨hnone, -⟩
  · exact ⟨record, hrow, LedgerOutput.committed_of_takenOver htaken⟩
  · exact absurd ⟨rfl, rfl⟩ (hnone output hcreated)

lemma hasFinalRow_foldl_accept (hexact : index.store.Exact) (h : HasFinalRow index.store output) :
    HasFinalRow ((updates.map .accept).foldl after index).store output := by
  obtain ⟨record, hrow, hfinal⟩ := h
  obtain ⟨mark, hlast⟩ := exists_row?_foldl_accept hexact hrow
  exact ⟨_, hlast, by rw [OutputRecord.about_spentAt]; exact hfinal⟩

/-- The parts of a commit leave what it creates final. -/
lemma hasFinalRow_of_step {writer middle : Writer} {part : Part}
    (hpart : part ∈ (Operation.commit update).parts) (hcreated : output ∈ update.netCreated)
    (hready : writer.Ready) (hstep : Step writer part middle)
    (h : HasFinalRow writer.store output) : HasFinalRow middle.store output := by
  obtain ⟨record, hrow, hfinal⟩ := h
  have hmiddle := hstep.row?_eq hready output.kind output.outputId
  rw [hrow] at hmiddle
  rcases List.mem_cons.1 hpart with rfl | hpart
  · refine ⟨record.unmarked update.slot, ?_, (record.committed_unmarked update.slot).trans hfinal⟩
    exact hmiddle.trans (OutputRecord.swept_of_committed hfinal update.slot)
  · rcases List.mem_append.1 hpart with hpart | hpart
    · -- what is consumed in the end is not created
      obtain ⟨spent, hspent, rfl⟩ := List.mem_map.1 hpart
      have hother : ¬spent.output.IsAt output.kind output.outputId := by
        rintro ⟨-, hid⟩
        obtain ⟨-, hnot⟩ := LedgerUpdate.mem_netConsumed_iff.1 hspent
        exact hnot ⟨output, (LedgerUpdate.mem_netCreated_iff.1 hcreated).1, hid.symm⟩
      rw [Part.onRow, if_neg hother] at hmiddle
      exact ⟨record, hmiddle, hfinal⟩
    · obtain ⟨created, -, rfl⟩ := List.mem_map.1 hpart
      rw [Part.onRow, LedgerOutput.takenOver, OutputRecord.finalized_of_committed hfinal, ite_self]
        at hmiddle
      exact ⟨record, hmiddle, hfinal⟩

/-- Parts that go through one after another each succeed on some writer. -/
lemma exists_run_of_run_forM {parts : List Part} {writer middle : Writer}
    (h : (parts.forM Part.run).run writer = .ok ((), middle)) :
    ∀ part ∈ parts, ∃ start last, start.fault = writer.fault ∧
      part.run.run start = .ok ((), last) := by
  induction parts generalizing writer with
  | nil => exact nofun
  | cons part rest ih =>
    obtain ⟨_, second, hfirst, hrest⟩ := WriteM.run_bind_eq_ok_iff.1 h
    have hfault : second.fault = writer.fault := (Step.of_run hfirst).sameFrame.fault
    intro p hp
    rcases List.mem_cons.1 hp with rfl | hp
    · exact ⟨writer, second, rfl, hfirst⟩
    · obtain ⟨start, last, hsame, hrun⟩ := ih hrest p hp
      exact ⟨start, last, hsame.trans hfault, hrun⟩

/-- A part of a commit that has gone through once goes through again where everything that the
commit creates is final. -/
lemma exists_run_again {writer : Writer} {part : Part}
    (hpart : part ∈ (Operation.commit update).parts)
    (hran : ∃ start last, start.fault = writer.fault ∧ part.run.run start = .ok ((), last))
    (hfinal : ∀ output ∈ update.netCreated, HasFinalRow writer.store output) :
    ∃ middle, part.run.run writer = .ok ((), middle) := by
  rcases List.mem_cons.1 hpart with rfl | hmem
  · exact ⟨_, WriteM.run_removeUncommitted update.slot writer⟩
  · rcases List.mem_append.1 hmem with hmem | hmem
    · obtain ⟨spent, -, rfl⟩ := List.mem_map.1 hmem
      obtain ⟨start, last, hfault, hrun⟩ := hran
      rw [Part.run, WriteM.run_removeSpent] at hrun
      split at hrun
      · cases hrun
      · rename_i hnot
        refine ⟨writer.leave spent.output.kind spent.outputId, ?_⟩
        rw [Part.run, WriteM.run_removeSpent, if_neg (hfault ▸ hnot)]
    · -- nothing is written where the row is final
      obtain ⟨created, hcreated, rfl⟩ := List.mem_map.1 hmem
      obtain ⟨record, hrow, hcommitted⟩ := hfinal created hcreated
      refine ⟨writer, ?_⟩
      rw [Part.run, WriteM.run_insertOutput, hrow]
      simp [hcommitted]

/-- So all parts of a commit go through again. -/
lemma exists_run_forM_again {parts : List Part} {writer : Writer}
    (hparts : ∀ part ∈ parts, part ∈ (Operation.commit update).parts)
    (hran : ∀ part ∈ parts, ∃ start last, start.fault = writer.fault ∧
      part.run.run start = .ok ((), last)) (hready : writer.Ready)
    (hfinal : ∀ output ∈ update.netCreated, HasFinalRow writer.store output) :
    ∃ last, (parts.forM Part.run).run writer = .ok ((), last) := by
  induction parts generalizing writer with
  | nil => exact ⟨writer, rfl⟩
  | cons part rest ih =>
    have hpart := hparts part List.mem_cons_self
    obtain ⟨middle, hfirst⟩ := exists_run_again hpart (hran part List.mem_cons_self) hfinal
    have hstep := Step.of_run hfirst
    obtain ⟨last, hlast⟩ := ih (fun p hp => hparts p (List.mem_cons_of_mem part hp))
      (fun p hp => hstep.sameFrame.fault ▸ hran p (List.mem_cons_of_mem part hp))
      (hstep.ready hready)
      fun output houtput => hasFinalRow_of_step hpart houtput hready hstep (hfinal output houtput)
    exact ⟨last, (WriteM.run_bind_of_ok hfirst).trans hlast⟩

/-- A commit succeeds again after updates have been accepted, and the handle is where it was after
the first time. -/
lemma succeeds_commit_again (hexact : index.store.Exact)
    (hsucceeds : index.succeeds (.commit update) = true) (updates : List LedgerUpdate) :
    let last := (updates.map .accept).foldl after (index.after (.commit update))
    last.succeeds (.commit update) = true ∧
      SameFrame (index.after (.commit update)) (last.after (.commit update)) := by
  intro last
  have hexact' := exact_after hexact (.commit update)
  have hframe : SameFrame (index.after (.commit update)) last := sameFrame_foldl_accept _ updates
  obtain ⟨status, writer, hcommits, hafter⟩ := commits_of_succeeds hsucceeds
  have hslot := committedSlot_after_commit hsucceeds
  have hfault : last.fault = index.fault := by rw [hframe.fault, hafter, committed]
  have hready : (Writer.start last.store last.fault).Ready :=
    Writer.ready_start (exact_foldl_after hexact') last.fault
  obtain ⟨again, hparts⟩ : ∃ again, ((Operation.commit update).parts.forM Part.run).run
      (.start last.store last.fault) = .ok ((), again) := by
    refine exists_run_forM_again (fun _ hpart => hpart) ?_ hready fun output houtput => ?_
    · intro part hpart
      obtain ⟨start, next, hsame, hrun⟩ := exists_run_of_run_forM hcommits.parts part hpart
      exact ⟨start, next, hsame.trans hfault.symm, hrun⟩
    · exact hasFinalRow_foldl_accept hexact' (hasFinalRow_after_commit hexact hsucceeds houtput)
  have hstatus : last.store.status = some (status.advance update) := by
    rw [hframe.status, hafter]
    rfl
  have hagain : Commits last (status.advance update) update again := {
    known := (hframe.committedSlot.trans hslot).symm ▸ UInt32.le_refl _
    stored := hstatus
    behind := UInt32.le_refl _
    parts := hparts
    writeStatus := hfault ▸ hcommits.writeStatus
    commit := hfault ▸ hcommits.commit }
  refine ⟨hagain.succeeds.1, ?_⟩
  rw [hagain.succeeds.2]
  exact {
    status := by
      rw [← hframe.status, hstatus]
      rfl
    committedSlot := by
      show max last.committedSlot update.slot = (index.after (.commit update)).committedSlot
      rw [hframe.committedSlot, hslot]
      exact if_pos (UInt32.le_refl _)
    fault := hframe.fault }

/-- When a commit is applied again each row becomes what it was after the first time, or it stays as
it is but for a mark up to the slot. -/
lemma row?_after_commit_again (hexact : index.store.Exact)
    (hsucceeds : index.succeeds (.commit update) = true) (updates : List LedgerUpdate)
    (kind : OutputKind) (id : OutputId) :
    let last := (updates.map .accept).foldl after (index.after (.commit update))
    (last.after (.commit update)).store.row? kind id =
        (index.after (.commit update)).store.row? kind id ∨
      (last.after (.commit update)).store.row? kind id =
        (last.store.row? kind id).map (·.unmarked update.slot) := by
  intro last
  have hexact' := exact_after hexact (.commit update)
  have hexactLast : last.store.Exact := exact_foldl_after hexact'
  have hagain : last.succeeds (.commit update) = true :=
    (succeeds_commit_again hexact hsucceeds updates).1
  rcases row?_after_commit hexact hsucceeds kind id with
    ⟨output, houtput, rfl, rfl, record, hrow, htaken⟩ | ⟨hnone, hrow⟩
  · -- the row is final from the first time on, and the commit does not take it out
    obtain ⟨row, hlast, hfinal⟩ : HasFinalRow last.store output :=
      hasFinalRow_foldl_accept hexact' (hasFinalRow_after_commit hexact hsucceeds houtput)
    have hkept : ¬update.TakesOut output.kind output.outputId := fun htakes =>
      htakes.2 ⟨output, (LedgerUpdate.mem_netCreated_iff.1 houtput).1, rfl⟩
    right
    rw [row?_after hexactLast hagain, hlast]
    exact (Operation.foldl_commit_of_committed hfinal).2 hkept
  · rcases row?_after_commit hexactLast hagain kind id with
      ⟨output, houtput, hkind, hid, -⟩ | ⟨-, hrow'⟩
    · exact absurd ⟨hkind, hid⟩ (hnone output houtput)
    rw [hrow, hrow']
    by_cases hconsumed : ∃ spent ∈ update.netConsumed,
        spent.output.kind = kind ∧ spent.outputId = id
    · rw [if_pos hconsumed, if_pos hconsumed]
      exact .inl rfl
    · rw [if_neg hconsumed] at hrow
      rw [if_neg hconsumed, if_neg hconsumed]
      cases hleft : (index.store.row? kind id).bind (·.swept update.slot) with
      | some left =>
        -- what the first sweep has left the second one leaves as well
        rw [hleft] at hrow
        obtain ⟨mark, hlast⟩ : ∃ mark, last.store.row? kind id = some (left.spentAt mark) :=
          exists_row?_foldl_accept hexact' hrow
        obtain ⟨before, -, hswept⟩ := Option.bind_eq_some_iff.1 hleft
        right
        rw [hlast]
        exact OutputRecord.swept_spentAt hswept mark
      | none =>
        cases hlast : last.store.row? kind id with
        | none => exact .inl rfl
        | some row =>
          rw [Option.bind_some, OutputRecord.swept]
          split
          · exact .inl rfl
          · exact .inr rfl

/-! ## Updates are accepted again -/

/-- Where an update cannot write rows, accepting it changes nothing. -/
lemma after_accept_of_fault (hfault : index.fault = .writer .writeOutput) :
    index.after (.accept update) = index := by
  cases hsucceeds : index.succeeds (.accept update) with
  | false => exact after_eq_self hsucceeds
  | true =>
    obtain ⟨writer, haccepts, hafter⟩ := accepts_of_succeeds hsucceeds
    have hwriter : writer = .start index.store index.fault :=
      Part.eq_of_run_forM (fun part hpart => Part.isSpeculative_of_mem_accept hpart) hfault
        haccepts.parts
    rw [hafter, hwriter]
    rfl

lemma foldl_accept_of_fault (hfault : index.fault = .writer .writeOutput) :
    (updates.map .accept).foldl after index = index := by
  induction updates with
  | nil => rfl
  | cons update rest ih => rw [List.map_cons, List.foldl_cons, after_accept_of_fault hfault, ih]

lemma listed_ahead_subset (hknown : ∀ event ∈ events, ∀ output ∈ event.operation.outputs,
    output ∈ known) : LedgerUpdate.listed (index.ahead events) ⊆ known := by
  rintro output ⟨update, hupdate, houtput⟩
  obtain ⟨event, hevent, haccepted⟩ := List.mem_filterMap.1 (List.mem_filter.1 hupdate).1
  cases event with
  | accepted other =>
    obtain rfl : other = update := Option.some.inj haccepted
    exact hknown (.accepted other) hevent output houtput
  | committed other => cases haccepted

/-- Updates that all succeed one after another would each succeed at once. -/
lemma succeeds_of_successes_eq (hexact : index.store.Exact) (hconsistent : Consistent known)
    (hlisted : LedgerUpdate.listed updates ⊆ known)
    (h : index.successes (updates.map .accept) = updates.map .accept) :
    ∀ update ∈ updates, index.succeeds (.accept update) = true := by
  rw [successes_accept hexact hconsistent hlisted] at h
  have hlength := congrArg List.length h
  rw [List.length_map, List.length_map] at hlength
  exact List.length_filter_eq_length_iff.1 hlength

/-- An output that can be taken over by a reachable store can be recorded. -/
lemma exists_record_of_takes (hreachable : Store.Reachable known index.store)
    (hconsistent : Consistent known) (houtput : output ∈ known)
    (htakes : index.store.Takes output) :
    ∃ record, OutputRecord.ofLedgerOutput output false = .ok record := by
  rcases htakes with hsome | hrecord
  · -- the row that it has is a record of it
    obtain ⟨row, hrow⟩ := Option.isSome_iff_exists.1 hsome
    obtain ⟨other, hother, hrecords⟩ := hreachable.recorded _ _ _ hrow
    obtain ⟨-, hid⟩ := hreachable.exact.keyed _ _ _ hrow
    obtain rfl := hconsistent other hother output houtput (hrecords.outputId.symm.trans hid)
    exact hrecords.exists_ok false
  · exact hrecord

/-- Where rows can be written, an update that is accepted lists outputs that can be recorded. -/
lemma exists_record_of_succeeds (hreachable : Store.Reachable known index.store)
    (hconsistent : Consistent known)
    (hknown : ∀ output ∈ (Operation.accept update).outputs, output ∈ known)
    (hfault : index.fault ≠ .writer .writeOutput)
    (hsucceeds : index.succeeds (.accept update) = true) {part : Part}
    (hpart : part ∈ (Operation.accept update).parts) (houtput : output ∈ part.outputs) :
    ∃ record, OutputRecord.ofLedgerOutput output false = .ok record := by
  obtain ⟨-, -, hruns⟩ := (succeeds_accept_iff hreachable.exact hconsistent hknown).1 hsucceeds
  have htakes := ((Part.isSpeculative_of_mem_accept hpart).runs_iff hfault).1 (hruns part hpart)
  have hmem := Operation.mem_outputs_of_mem_parts hpart houtput
  exact exists_record_of_takes hreachable hconsistent (hknown output hmem) (htakes output houtput)

/-- So it is accepted on any index in the same frame. -/
lemma SameFrame.succeeds_accept (h : SameFrame index other)
    (hreachable : Store.Reachable known index.store)
    (hreachable' : Store.Reachable known other.store) (hconsistent : Consistent known)
    (hknown : ∀ output ∈ (Operation.accept update).outputs, output ∈ known)
    (hfault : index.fault ≠ .writer .writeOutput)
    (hsucceeds : index.succeeds (.accept update) = true) :
    other.succeeds (.accept update) = true := by
  obtain ⟨hahead, hcommit, -⟩ :=
    (succeeds_accept_iff hreachable.exact hconsistent hknown).1 hsucceeds
  have hfault' : other.fault ≠ .writer .writeOutput := fun hsame => hfault (h.fault ▸ hsame)
  refine (succeeds_accept_iff hreachable'.exact hconsistent hknown).2
    ⟨h.committedSlot ▸ hahead, h.fault ▸ hcommit, fun part hpart => ?_⟩
  refine ((Part.isSpeculative_of_mem_accept hpart).runs_iff hfault').2 fun output houtput => ?_
  exact .inr (exists_record_of_succeeds hreachable hconsistent hknown hfault hsucceeds hpart
    houtput)

/-- Reachable indexes in the same frame are equal if their stores have the same rows. -/
lemma SameFrame.eq_of_reachable (h : SameFrame index other)
    (hreachable : Store.Reachable known index.store)
    (hreachable' : Store.Reachable known other.store) (hconsistent : Consistent known)
    (hdigests : Store.DigestsDiffer (Store.definitionsOf known))
    (hrows : ∀ kind id, index.store.row? kind id = other.store.row? kind id) : index = other := by
  have hlinked := hreachable.linked hconsistent.sameOutputs
  have hlinked' := hreachable'.linked hconsistent.sameOutputs
  exact h.eq hreachable.exact hreachable'.exact hrows (hlinked.links_eq hlinked' hdigests hrows)

/-- What is different where updates are accepted again: nothing, or the rows that they have made
before have lost marks up to a slot. -/
structure Revisits (index last : Index) (slot : Slot) (other : Index) : Prop where
  frame : SameFrame index other
  marks : ∀ kind id record, index.store.row? kind id = some record →
    record.about.deletedAtSlot = 0 ∨ slot < record.about.deletedAtSlot
  rows : ∀ kind id, other.store.row? kind id = index.store.row? kind id ∨
    other.store.row? kind id = (last.store.row? kind id).map (·.unmarked slot)

/-- If the updates have changed nothing, nothing is different. -/
lemma Revisits.eq_of_same (h : Revisits index index slot other)
    (hreachable : Store.Reachable known index.store)
    (hreachable' : Store.Reachable known other.store) (hconsistent : Consistent known)
    (hdigests : Store.DigestsDiffer (Store.definitionsOf known)) : index = other := by
  refine h.frame.eq_of_reachable hreachable hreachable' hconsistent hdigests fun kind id => ?_
  rcases h.rows kind id with hrow | hrow
  · exact hrow.symm
  · rw [hrow]
    cases hbefore : index.store.row? kind id with
    | none => rfl
    | some record =>
      exact congrArg some (OutputRecord.unmarked_eq_self (h.marks kind id record hbefore)).symm

/-- Updates that have been accepted are accepted again, and make the same index. -/
lemma Revisits.foldl_accept
    (h : Revisits index ((updates.map .accept).foldl after index) slot other)
    (hreachable : Store.Reachable known index.store)
    (hreachable' : Store.Reachable known other.store) (hconsistent : Consistent known)
    (hdigests : Store.DigestsDiffer (Store.definitionsOf known))
    (hknown : LedgerUpdate.listed updates ⊆ known)
    (hall : index.successes (updates.map .accept) = updates.map .accept) :
    other.successes (updates.map .accept) = updates.map .accept ∧
      (updates.map .accept).foldl after other = (updates.map .accept).foldl after index := by
  have hlisted : ∀ update ∈ updates, ∀ output ∈ (Operation.accept update).outputs,
      output ∈ known := fun update hupdate output houtput => hknown ⟨update, hupdate, houtput⟩
  by_cases hfault : index.fault = .writer .writeOutput
  · -- no row can be written, so the updates have not changed and will not change anything
    rw [foldl_accept_of_fault hfault] at h
    obtain rfl := h.eq_of_same hreachable hreachable' hconsistent hdigests
    exact ⟨hall, rfl⟩
  have halone := succeeds_of_successes_eq hreachable.exact hconsistent hknown hall
  have hall' : other.successes (updates.map .accept) = updates.map .accept := by
    have halone' : ∀ update ∈ updates, other.succeeds (.accept update) = true :=
      fun update hupdate => h.frame.succeeds_accept hreachable hreachable' hconsistent
        (hlisted update hupdate) hfault (halone update hupdate)
    rw [successes_accept hreachable'.exact hconsistent hknown, List.filter_eq_self.2 halone']
  refine ⟨hall', ?_⟩
  have hparts : ∀ part ∈ (updates.map Operation.accept).flatMap Operation.parts,
      ∃ update ∈ updates, part ∈ (Operation.accept update).parts := by
    intro part hpart
    obtain ⟨_, hmem, hpart⟩ := List.mem_flatMap.1 hpart
    obtain ⟨update, hupdate, rfl⟩ := List.mem_map.1 hmem
    exact ⟨update, hupdate, hpart⟩
  have hrows : ∀ kind id, ((updates.map .accept).foldl after other).store.row? kind id =
      ((updates.map .accept).foldl after index).store.row? kind id := by
    intro kind id
    have hrow := h.rows kind id
    rw [row?_foldl_after hreachable.exact, hall] at hrow ⊢
    rw [row?_foldl_after hreachable'.exact, hall']
    rcases hrow with hrow | hrow
    · rw [hrow]
    · rw [hrow]
      refine Part.foldl_speculative_unmarked (fun part hpart => ?_) (fun part hpart => ?_)
        (h.marks kind id)
      · obtain ⟨update, -, hpart⟩ := hparts part hpart
        exact Part.isSpeculative_of_mem_accept hpart
      · obtain ⟨update, hupdate, hpart⟩ := hparts part hpart
        exact fun output => exists_record_of_succeeds hreachable hconsistent
          (hlisted update hupdate) hfault (halone update hupdate) hpart
  have hoperations : ∀ operation ∈ updates.map Operation.accept,
      ∀ output ∈ operation.outputs, output ∈ known := by
    intro operation hoperation
    obtain ⟨update, hupdate, rfl⟩ := List.mem_map.1 hoperation
    exact hlisted update hupdate
  have hframe : SameFrame ((updates.map .accept).foldl after other)
      ((updates.map .accept).foldl after index) := by
    have hbefore := sameFrame_foldl_accept index updates
    have hafter := sameFrame_foldl_accept other updates
    exact (hafter.symm.trans h.frame.symm).trans hbefore
  exact hframe.eq_of_reachable (hreachable'.foldl_after hoperations)
    (hreachable.foldl_after hoperations) hconsistent hdigests hrows

lemma AcceptsOnly.again (honly : AcceptsOnly index events last)
    (h : Revisits index last slot other) (hreachable : Store.Reachable known index.store)
    (hreachable' : Store.Reachable known other.store) (hconsistent : Consistent known)
    (hdigests : Store.DigestsDiffer (Store.definitionsOf known))
    (hknown : ∀ event ∈ events, ∀ output ∈ event.operation.outputs, output ∈ known) :
    AcceptsOnly other events last := by
  obtain ⟨hstale, hall, rfl⟩ := honly
  obtain ⟨hall', hsame⟩ := h.foldl_accept hreachable hreachable' hconsistent hdigests
    (listed_ahead_subset hknown) hall
  rw [← h.frame.ahead_eq events] at hall' hsame ⊢
  exact ⟨fun update hupdate => h.frame.stale_iff.2 (hstale update hupdate), hall', hsame⟩

/-! ## Following again -/

lemma AcceptsOnly.sameFrame (h : AcceptsOnly index events last) : SameFrame index last :=
  h.eq ▸ sameFrame_foldl_accept index (index.ahead events)

lemma Follows.reachable (h : Follows index events last)
    (hreachable : Store.Reachable known index.store)
    (hknown : ∀ event ∈ events, ∀ output ∈ event.operation.outputs, output ∈ known) :
    Store.Reachable known last.store := by
  induction h with
  | nil => exact hreachable
  | @applied _ _ event _ _ _ ih =>
    have hevent := hknown event List.mem_cons_self
    exact ih (.operation event.operation hevent hreachable)
      fun e he => hknown e (List.mem_cons_of_mem event he)
  | @skipped _ _ event _ _ _ ih =>
    exact ih hreachable fun e he => hknown e (List.mem_cons_of_mem event he)

/-- A commit and what is accepted after it may be applied again. -/
lemma AcceptsOnly.commit_again (honly : AcceptsOnly (index.after (.commit update)) events last)
    (hsucceeds : index.succeeds (.commit update) = true)
    (hreachable : Store.Reachable known index.store) (hconsistent : Consistent known)
    (hdigests : Store.DigestsDiffer (Store.definitionsOf known))
    (hcommit : ∀ output ∈ (Operation.commit update).outputs, output ∈ known)
    (hknown : ∀ event ∈ events, ∀ output ∈ event.operation.outputs, output ∈ known) :
    last.succeeds (.commit update) = true ∧
      AcceptsOnly (last.after (.commit update)) events last := by
  have hreachable' : Store.Reachable known (index.after (.commit update)).store :=
    .operation _ hcommit hreachable
  have hlast : Store.Reachable known (last.after (.commit update)).store :=
    .operation _ hcommit (honly.follows.reachable hreachable' hknown)
  have hagain := succeeds_commit_again hreachable.exact hsucceeds
    ((index.after (.commit update)).ahead events)
  have hrows := row?_after_commit_again hreachable.exact hsucceeds
    ((index.after (.commit update)).ahead events)
  rw [honly.eq] at hagain hrows
  have hrevisits : Revisits (index.after (.commit update)) last update.slot
      (last.after (.commit update)) := {
    frame := hagain.2
    marks := fun kind id record hrow => deletedAtSlot_after_commit hreachable.exact hsucceeds hrow
    rows := hrows }
  exact ⟨hagain.1, honly.again hrevisits hreachable' hlast hconsistent hdigests hknown⟩

/-- A run that has come to its end can be made again from there, and ends there again. -/
lemma Follows.again (h : Follows index events next) (horder : InSlotOrder events)
    (hreachable : Store.Reachable known index.store) (hconsistent : Consistent known)
    (hdigests : Store.DigestsDiffer (Store.definitionsOf known))
    (hknown : ∀ event ∈ events, ∀ output ∈ event.operation.outputs, output ∈ known) :
    Follows next events next := by
  have hnext := h.reachable hreachable hknown
  rcases h.acceptsOnly_or_commits with honly | ⟨first, update, rest, middle, rfl, hfirst, hcommit,
    honly⟩
  · -- nothing is committed, so nothing is swept
    have hrevisits : Revisits index next 0 next := {
      frame := honly.sameFrame
      marks := fun _ _ record _ => record.eq_zero_or_marked
      rows := fun kind id => by
        right
        cases next.store.row? kind id with
        | none => rfl
        | some record =>
          exact congrArg some (OutputRecord.unmarked_eq_self record.eq_zero_or_marked).symm }
    exact (honly.again hrevisits hreachable hnext hconsistent hdigests hknown).follows
  · have hknownFirst := fun e he => hknown e (List.mem_append_left _ he)
    have hknownCommit := hknown (.committed update) (List.mem_append_right _ List.mem_cons_self)
    have hknownRest := fun e he =>
      hknown e (List.mem_append_right _ (List.mem_cons_of_mem (LedgerEvent.committed update) he))
    have hmiddle := hfirst.reachable hreachable hknownFirst
    obtain ⟨hagain, hrest⟩ := honly.commit_again hcommit hmiddle hconsistent hdigests hknownCommit
      hknownRest
    have hslot : update.slot ≤ next.committedSlot := by
      rw [honly.sameFrame.committedSlot, committedSlot_after_commit hcommit]
      exact UInt32.le_refl _
    have hstale : ∀ event ∈ first, next.Stale event :=
      fun event hevent => horder.stale_of_mem hevent hslot
    exact (follows_of_stale hstale).append (.applied hagain hrest.follows)

/-- **Redelivery is harmless.**  Where every identifier stands for one output, booked in one slot,
and no two multi addresses have the same digest, a follower that has come to the end of events in
slot order comes to the end of the same events again, and the handle and its whole store are as they
were.  In particular a commit may be applied twice in a row: it succeeds both times or fails both
times, and the second time changes nothing. -/
theorem follow_again (known : Set LedgerOutput) (hconsistent : Consistent known)
    (hdigests : Store.DigestsDiffer (Store.definitionsOf known)) (index : Index)
    (hreachable : Store.Reachable known index.store) :
    (∀ (bridge : Bridge) (start : Slot) (events : List LedgerEvent),
      bridge.ledgerUpdates start = .ok (events.map .ok) → InSlotOrder events →
        (∀ event ∈ events, ∀ output ∈ event.operation.outputs, output ∈ known) →
          ∀ (count : ℕ) (next : Index), (follow bridge start).run.run index = (.ok count, next) →
            ∃ again, (follow bridge start).run.run next = (.ok again, next)) ∧
      ∀ update : LedgerUpdate, (∀ output ∈ (Operation.commit update).outputs, output ∈ known) →
        (index.after (.commit update)).succeeds (.commit update) =
            index.succeeds (.commit update) ∧
          (index.after (.commit update)).after (.commit update) =
            index.after (.commit update) := by
  constructor
  · intro bridge start events hevents horder hknown count next hrun
    have hfollows := (exists_run_follow_iff hevents).1 ⟨count, hrun⟩
    have hagain := hfollows.again horder hreachable hconsistent hdigests hknown
    exact (exists_run_follow_iff hevents).2 hagain
  · intro update hknown
    cases hsucceeds : index.succeeds (.commit update) with
    | false =>
      rw [after_eq_self hsucceeds, hsucceeds]
      exact ⟨rfl, after_eq_self hsucceeds⟩
    | true =>
      have honly : AcceptsOnly (index.after (.commit update)) [] (index.after (.commit update)) :=
        ⟨nofun, rfl, rfl⟩
      obtain ⟨hagain, honly'⟩ := honly.commit_again hsucceeds hreachable hconsistent hdigests
        hknown nofun
      exact ⟨hagain, honly'.eq⟩

/-- The sample update is accepted but slot 6 is committed without it, and then the output that it
would have created is spent. -/
def sampleEvents : List LedgerEvent :=
  [.accepted sampleUpdate, .committed ⟨6, [], []⟩, .accepted ⟨7, [⟨sampleCreated, 7⟩], []⟩]

/-- The second run drops the row of the spent output with the commit and records it again. -/
theorem follow_again_sampleEvents :
    let bridge := Bridge.ofLists (Sample.nodeInfo 6) [] sampleEvents
    Consistent sampleKnown ∧ Store.DigestsDiffer (Store.definitionsOf sampleKnown) ∧
      Store.Reachable sampleKnown sampleIndex.store ∧
      bridge.ledgerUpdates 6 = .ok (sampleEvents.map .ok) ∧ InSlotOrder sampleEvents ∧
      (∀ event ∈ sampleEvents, ∀ output ∈ event.operation.outputs, output ∈ sampleKnown) ∧
      ∃ count next, (follow bridge 6).run.run sampleIndex = (.ok count, next) ∧
        (next.store.row? .basic sampleCreated.outputId).isSome = true ∧
        ∃ again, (follow bridge 6).run.run next = (.ok again, next) := by
  intro bridge
  have hfilter : (sampleEvents.filter fun event => (6 : Slot) ≤ event.slot) = sampleEvents := by
    decide +kernel
  have hevents : bridge.ledgerUpdates 6 = .ok (sampleEvents.map .ok) :=
    congrArg (fun events : List LedgerEvent => Except.ok (events.map Except.ok)) hfilter
  have horder : InSlotOrder sampleEvents := ⟨by decide +kernel, by decide +kernel⟩
  have houtputs : ∀ event ∈ sampleEvents, ∀ output ∈ event.operation.outputs,
      output = sampleSpent ∨ output = sampleCreated := by
    decide +kernel
  obtain ⟨hfirst, hsecond, hthird, hrow⟩ : sampleIndex.succeeds (.accept sampleUpdate) = true ∧
      (sampleIndex.after (.accept sampleUpdate)).succeeds (.commit ⟨6, [], []⟩) = true ∧
      ((sampleIndex.after (.accept sampleUpdate)).after (.commit ⟨6, [], []⟩)).succeeds
        (.accept ⟨7, [⟨sampleCreated, 7⟩], []⟩) = true ∧
      ((((sampleIndex.after (.accept sampleUpdate)).after (.commit ⟨6, [], []⟩)).after
        (.accept ⟨7, [⟨sampleCreated, 7⟩], []⟩)).store.row? .basic
          sampleCreated.outputId).isSome = true := by
    decide +kernel
  have hfollows : Follows sampleIndex sampleEvents _ :=
    .applied hfirst (.applied hsecond (.applied hthird (.nil _)))
  obtain ⟨count, hrun⟩ := (exists_run_follow_iff hevents).2 hfollows
  obtain ⟨hagain, -⟩ := follow_again sampleKnown consistent_sampleKnown digestsDiffer_sampleKnown
    sampleIndex reachable_sampleIndex
  exact ⟨consistent_sampleKnown, digestsDiffer_sampleKnown, reachable_sampleIndex, hevents, horder,
    houtputs, count, _, hrun, hrow, hagain bridge 6 sampleEvents hevents horder houtputs _ _ hrun⟩

end Index

end OutputIndex
