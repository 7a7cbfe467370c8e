import OutputIndex.Proofs.Index.Residue
import OutputIndex.Proofs.Index.Rows
import OutputIndex.Proofs.Query.Found

/-!
# What a commit makes of a row

A commit sweeps the store up to its slot, takes out what it consumes and takes over what it creates.
Each part touches the row of one output only, so the row of an output after a commit follows from
its row before and from the update (`Index.row?_after_commit`): the sweep leaves the row or not; if
the update creates the output, a row that is left becomes final and one that is gone is recorded
anew; if the update consumes it, the row is gone.

The sweep goes by the slot in which a tentative row is booked, and this has two consequences that
the accepted updates of later slots can bring about.  A tentative row booked up to the slot goes
with its mark, even if the mark is of a later slot, so an output that the commit creates anew is
live again (`Index.isLive_after_commit_iff`).  A tentative row booked beyond the slot stays, so if
the commit creates its output the row becomes final as it is (`Index.row_after_commit_of_created`).
-/

namespace OutputIndex

variable {writer last : Writer} {kind : OutputKind} {id : OutputId}

/-! ## Rows of created outputs -/

lemma LedgerOutput.takenOver_none_eq_some_iff {output : LedgerOutput} {record : OutputRecord} :
    output.takenOver none = some record ↔ OutputRecord.ofLedgerOutput output true = .ok record := by
  rw [takenOver]
  cases OutputRecord.ofLedgerOutput output true <;> simp [Except.toOption]

/-- A created output that is taken over has a final row. -/
lemma Step.exists_takenOver {output : LedgerOutput} (h : Step writer (.finalize output) last) :
    ∃ record, output.takenOver (writer.store.row? output.kind output.outputId) = some record ∧
      record.about.committed = true := by
  cases h with
  | finalizeFinal hrow | finalizeSeen hrow =>
    rw [hrow]
    exact ⟨_, rfl, by rw [OutputRecord.about_finalized]⟩
  | finalize hrow hrecord =>
    rw [hrow]
    refine ⟨_, LedgerOutput.takenOver_none_eq_some_iff.2 hrecord, ?_⟩
    rw [OutputRecord.about_of_ok hrecord]
    rfl

/-! ## Rows after some parts -/

lemma Steps.exists_of_append {first second : List Part} (h : Steps writer (first ++ second) last) :
    ∃ middle, Steps writer first middle ∧ Steps middle second last := by
  induction first generalizing writer with
  | nil => exact ⟨writer, .nil writer, h⟩
  | cons part rest ih =>
    cases h with
    | cons hstep hrest =>
      obtain ⟨middle, hfirst, hsecond⟩ := ih hrest
      exact ⟨middle, .cons hstep hfirst, hsecond⟩

/-- Of the created outputs with the same kind and identifier the first one decides the row. -/
lemma Steps.exists_takenOver {created : List LedgerOutput}
    (h : Steps writer (created.map Part.finalize) last) (hready : writer.Ready)
    (hmem : ∃ output ∈ created, output.IsAt kind id) :
    ∃ output ∈ created, output.kind = kind ∧ output.outputId = id ∧
      ∃ record, last.store.row? kind id = some record ∧
        output.takenOver (writer.store.row? kind id) = some record := by
  induction created generalizing writer with
  | nil =>
    obtain ⟨output, houtput, -⟩ := hmem
    cases houtput
  | cons output rest ih =>
    cases h with
    | @cons _ middle _ _ _ hstep hrest =>
      have hready' := hstep.ready hready
      have hmiddle := hstep.row?_eq hready kind id
      by_cases hat : output.IsAt kind id
      · obtain ⟨record, htaken, hfinal⟩ := hstep.exists_takenOver
        rw [Part.onRow, if_pos hat] at hmiddle
        obtain ⟨rfl, rfl⟩ := hat
        refine ⟨output, List.mem_cons_self, rfl, rfl, record, ?_, htaken⟩
        -- the row is final by now, so what follows leaves it as it is
        rw [hrest.row?_eq hready', hmiddle, htaken, Part.foldl_finalize_of_committed _ hfinal]
      · rw [Part.onRow, if_neg hat] at hmiddle
        obtain ⟨other, hother, hother'⟩ := hmem
        have hmem' : other ∈ rest := by
          rcases List.mem_cons.1 hother with rfl | hother
          · exact absurd hother' hat
          · exact hother
        obtain ⟨found, hfound, hkind, hid, record, hlast, htaken⟩ :=
          ih hrest hready' ⟨other, hmem', hother'⟩
        rw [hmiddle] at htaken
        exact ⟨found, List.mem_cons_of_mem _ hfound, hkind, hid, record, hlast, htaken⟩

/-! ## Rows after a commit -/

namespace Index

variable {index : Index} {update : LedgerUpdate}

/-- A commit takes its parts in this order: the sweep, what is consumed, what is created. -/
lemma steps_of_commit (h : index.succeeds (.commit update) = true) :
    ∃ removed writer,
      Steps ((Writer.start index.store index.fault).settle update.slot)
        (update.netConsumed.map Part.remove) removed ∧
      Steps removed (update.netCreated.map Part.finalize) writer ∧
      ∀ kind id, (index.after (.commit update)).store.row? kind id =
        writer.store.row? kind id := by
  obtain ⟨status, writer, hcommits, hafter⟩ := commits_of_succeeds h
  have hsteps : Steps (.start index.store index.fault)
      (.settle update.slot :: (update.netConsumed.map Part.remove ++
        update.netCreated.map Part.finalize)) writer := Steps.of_run hcommits.parts
  cases hsteps with
  | cons hsettle hrest =>
    cases hsettle
    obtain ⟨removed, hremove, hfinalize⟩ := hrest.exists_of_append
    refine ⟨removed, writer, hremove, hfinalize, fun kind id => ?_⟩
    rw [hafter]
    rfl

/-- The row of an output after a commit.  What the commit creates has the row that taking it over
makes of what the sweep leaves; what it consumes has none; all else keeps what the sweep leaves. -/
lemma row?_after_commit (hexact : index.store.Exact)
    (hsucceeds : index.succeeds (.commit update) = true) (kind : OutputKind) (id : OutputId) :
    let left := (index.store.row? kind id).bind (·.swept update.slot)
    let row := (index.after (.commit update)).store.row? kind id
    (∃ output ∈ update.netCreated, output.kind = kind ∧ output.outputId = id ∧
      ∃ record, row = some record ∧ output.takenOver left = some record) ∨
    (∀ output ∈ update.netCreated, ¬(output.kind = kind ∧ output.outputId = id)) ∧
      row = if ∃ spent ∈ update.netConsumed, spent.output.kind = kind ∧ spent.outputId = id then
        none else left := by
  intro left row
  obtain ⟨removed, writer, hremove, hfinalize, hrow⟩ := steps_of_commit hsucceeds
  have hready := Writer.ready_start hexact index.fault
  have hsettled := hready.settle update.slot
  have hleft : ((Writer.start index.store index.fault).settle update.slot).store.row? kind id =
      left := Writer.row?_settle hready update.slot kind id
  have hremoved : removed.store.row? kind id =
      if ∃ spent ∈ update.netConsumed, spent.output.kind = kind ∧ spent.outputId = id then none
      else left := by
    rw [hremove.row?_eq hsettled, hleft]
    exact Part.foldl_remove update.netConsumed left
  by_cases hcreated : ∃ output ∈ update.netCreated, output.IsAt kind id
  · refine .inl ?_
    obtain ⟨output, houtput, rfl, rfl, record, hlast, htaken⟩ :=
      hfinalize.exists_takenOver (hremove.ready hsettled) hcreated
    -- nothing that is created is consumed as well
    have hkept : ¬∃ spent ∈ update.netConsumed,
        spent.output.kind = output.kind ∧ spent.outputId = output.outputId := by
      rintro ⟨spent, hspent, -, hid⟩
      obtain ⟨-, hnot⟩ := LedgerUpdate.mem_netConsumed_iff.1 hspent
      exact hnot ⟨output, (LedgerUpdate.mem_netCreated_iff.1 houtput).1, hid.symm⟩
    rw [if_neg hkept] at hremoved
    rw [hremoved] at htaken
    exact ⟨output, houtput, rfl, rfl, record, (hrow _ _).trans hlast, htaken⟩
  · have hne : ∀ output ∈ update.netCreated, ¬(output.kind = kind ∧ output.outputId = id) :=
      fun output houtput hkey => hcreated ⟨output, houtput, hkey⟩
    refine .inr ⟨hne, ?_⟩
    rw [← hremoved, ← Part.foldl_finalize_of_forall_not hne (removed.store.row? kind id),
      ← hfinalize.row?_eq (hremove.ready hsettled)]
    exact hrow kind id

/-- An output whose row a commit sweeps away, and which it creates and does not consume, is recorded
anew as the commit has it. -/
lemma exists_recorded_of_lapses {record : OutputRecord} (hexact : index.store.Exact)
    (hsucceeds : index.succeeds (.commit update) = true)
    (hrow : index.store.row? kind id = some record) (hlapses : record.Lapses update.slot)
    (hcreated : ∃ output ∈ update.created, output.kind = kind ∧ output.outputId = id)
    (hkept : ∀ spent ∈ update.consumed, spent.outputId ≠ id) :
    ∃ output ∈ update.created, output.kind = kind ∧ output.outputId = id ∧
      ∃ row, OutputRecord.ofLedgerOutput output true = .ok row ∧
        (index.after (.commit update)).store.row? kind id = some row := by
  have hswept : (index.store.row? kind id).bind (·.swept update.slot) = none := by
    rw [hrow, Option.bind_some, OutputRecord.swept, if_pos hlapses]
  rcases row?_after_commit hexact hsucceeds kind id with
    ⟨output, houtput, hkind, hid, row, hlast, htaken⟩ | ⟨hnone, -⟩
  · rw [hswept] at htaken
    exact ⟨output, (LedgerUpdate.mem_netCreated_iff.1 houtput).1, hkind, hid, row,
      LedgerOutput.takenOver_none_eq_some_iff.1 htaken, hlast⟩
  · obtain ⟨output, houtput, hkind, hid⟩ := hcreated
    have hnet : output ∈ update.netCreated := by
      rw [LedgerUpdate.mem_netCreated_iff, hid, LedgerUpdate.not_consumes_iff]
      exact ⟨houtput, hkept⟩
    exact absurd ⟨hkind, hid⟩ (hnone output hnet)

end Index

/-! ## Marks of later slots -/

section LaterMark

variable {record : OutputRecord} {output : LedgerOutput} {slot : Slot}

/-- A sweep leaves a mark of a later slot, unless it drops the row. -/
lemma OutputRecord.swept_of_lt (h : slot < record.about.deletedAtSlot) :
    record.swept slot = if record.Lapses slot then none else some record := by
  rw [swept, unmarked, if_neg (UInt32.not_le.2 h)]

lemma OutputRecord.isLive_eq_false_of_lt (h : slot < record.about.deletedAtSlot) :
    record.about.isLive = false := by
  rw [RecordMeta.isLive, beq_eq_false_iff_ne]
  intro hzero
  rw [hzero] at h
  exact UInt32.not_lt_zero h

/-- A row that a sweep leaves has its mark of a later slot, so it is not live. -/
lemma OutputRecord.isLive_eq_false_of_swept {left : OutputRecord}
    (h : slot < record.about.deletedAtSlot) (hleft : record.swept slot = some left) :
    left.about.isLive = false := by
  rw [swept_of_lt h] at hleft
  split at hleft
  · cases hleft
  · obtain rfl := Option.some.inj hleft
    exact isLive_eq_false_of_lt h

/-- Taking over a created output makes its row live only if the sweep has dropped the row. -/
lemma LedgerOutput.lapses_of_isLive_takenOver {last : OutputRecord}
    (h : slot < record.about.deletedAtSlot)
    (htaken : output.takenOver (record.swept slot) = some last) (hlive : last.about.isLive = true) :
    record.Lapses slot := by
  by_contra hstays
  rw [OutputRecord.swept_of_lt h, if_neg hstays] at htaken
  obtain rfl : record.finalized = last := Option.some.inj htaken
  rw [OutputRecord.about_finalized] at hlive
  have hdead : record.about.isLive = false := OutputRecord.isLive_eq_false_of_lt h
  exact Bool.false_ne_true (hdead.symm.trans hlive)

end LaterMark

/-- No query returns the row of an output.  Where its identifier is returned it is that of a live
row of another kind. -/
def Store.Unreturned (store : Store) (kind : OutputKind) (id : OutputId) : Prop :=
  ∀ (reader next : Index) (answer : QueryResult), reader.store = store →
    ((∃ filter page, (Index.query filter page).run.run reader = (.ok answer, next)) ∨
      ∃ identified key, (Index.findByIdentity identified key).run.run reader =
        (.ok answer, next)) →
    id ∈ answer.outputIds →
    ∃ other ∈ store.rowSet, other.kind ≠ kind ∧ other.about.isLive = true ∧ other.outputId = id

lemma Store.Exact.unreturned {store : Store} (h : store.Exact)
    (hdead : ∀ record, store.row? kind id = some record → record.about.isLive = false) :
    store.Unreturned kind id := by
  rintro reader next answer rfl hanswer hid
  have hlive : ∃ other ∈ reader.store.rowSet, other.about.isLive = true ∧ other.outputId = id := by
    rcases hanswer with ⟨filter, page, hquery⟩ | ⟨identified, key, hfind⟩
    · exact Index.exists_live_of_mem_query h hquery hid
    · exact Index.exists_live_of_mem_findByIdentity h hfind hid
  obtain ⟨other, hother, hlive, rfl⟩ := hlive
  refine ⟨other, hother, ?_, hlive, rfl⟩
  rintro rfl
  have hrow := h.keyed.mem_rowSet_iff.1 hother
  rw [hdead other hrow] at hlive
  cases hlive

namespace Index

/-- **A row with a mark of a later slot is live after a commit just if it was tentative and booked
up to the slot and the commit creates its output anew.**  The row is then that of an output that
the commit creates.  In every other case the output stays spent and no query returns it. -/
theorem isLive_after_commit_iff (index : Index) (hreachable : Store.Reachable Set.univ index.store)
    (update : LedgerUpdate) (hsucceeds : index.succeeds (.commit update) = true)
    (kind : OutputKind) (id : OutputId) (record : OutputRecord)
    (hrow : index.store.row? kind id = some record)
    (hlater : update.slot < record.about.deletedAtSlot) :
    let store := (index.after (.commit update)).store
    let renewed := (record.about.committed = false ∧ record.about.createdAtSlot ≤ update.slot) ∧
      (∃ output ∈ update.created, output.kind = kind ∧ output.outputId = id) ∧
        ∀ spent ∈ update.consumed, spent.outputId ≠ id
    ((∃ row, store.row? kind id = some row ∧ row.about.isLive = true) ↔ renewed) ∧
      (renewed → ∃ output ∈ update.created, output.kind = kind ∧ output.outputId = id ∧
        ∃ row, OutputRecord.ofLedgerOutput output true = .ok row ∧
          store.row? kind id = some row) ∧
      (¬renewed → store.Unreturned kind id) := by
  intro store renewed
  have hafter : store.Exact := exact_after hreachable.exact _
  have hrecorded : renewed → ∃ output ∈ update.created, output.kind = kind ∧
      output.outputId = id ∧ ∃ row, OutputRecord.ofLedgerOutput output true = .ok row ∧
        store.row? kind id = some row := fun ⟨hlapses, hcreated, hkept⟩ =>
    exists_recorded_of_lapses hreachable.exact hsucceeds hrow hlapses hcreated hkept
  have hiff : (∃ row, store.row? kind id = some row ∧ row.about.isLive = true) ↔ renewed := by
    constructor
    · rintro ⟨row, hrow', hrowLive⟩
      have hcases := row?_after_commit hreachable.exact hsucceeds kind id
      rw [hrow, Option.bind_some] at hcases
      rcases hcases with ⟨output, houtput, rfl, rfl, last, hlast, htaken⟩ | ⟨-, hlast⟩
      · obtain ⟨hcreated, hkept⟩ := LedgerUpdate.mem_netCreated_iff.1 houtput
        obtain rfl : last = row := Option.some.inj (hlast.symm.trans hrow')
        exact ⟨LedgerOutput.lapses_of_isLive_takenOver hlater htaken hrowLive,
          ⟨output, hcreated, rfl, rfl⟩, LedgerUpdate.not_consumes_iff.1 hkept⟩
      · -- the commit records nothing here, so the row is what the sweep has left
        have hleft : record.swept update.slot = some row := by
          have heq := hlast.symm.trans hrow'
          split at heq
          · cases heq
          · exact heq
        rw [OutputRecord.isLive_eq_false_of_swept hlater hleft] at hrowLive
        cases hrowLive
    · intro hrenewed
      obtain ⟨output, -, -, -, row, hrow', hlast⟩ := hrecorded hrenewed
      refine ⟨row, hlast, ?_⟩
      rw [OutputRecord.about_of_ok hrow']
      rfl
  refine ⟨hiff, hrecorded, fun hnot => hafter.unreturned fun row hrow' => ?_⟩
  exact Bool.eq_false_iff.2 fun hlive => hnot (hiff.1 ⟨row, hrow', hlive⟩)

/-- The output of the import stays spent when a slot before that of its consumption is committed. -/
theorem unreturned_after_commit_sampleSpent :
    let index := sampleIndex.after (.accept ⟨7, [⟨sampleSpent, 7⟩], []⟩)
    let update : LedgerUpdate := ⟨6, [], [sampleCreated]⟩
    Store.Reachable Set.univ index.store ∧ index.succeeds (.commit update) = true ∧
      (∃ record, index.store.row? .basic sampleSpent.outputId = some record ∧
        update.slot < record.about.deletedAtSlot) ∧
      (index.after (.commit update)).store.Unreturned .basic sampleSpent.outputId := by
  intro index update
  have hreachable : Store.Reachable Set.univ index.store :=
    .operation _ (fun _ _ => trivial) reachable_univ_sampleIndex
  obtain ⟨hsucceeds, record, hrow, hlater, hfinal⟩ :
      index.succeeds (.commit update) = true ∧
        ∃ record, index.store.row? .basic sampleSpent.outputId = some record ∧
          update.slot < record.about.deletedAtSlot ∧ record.about.committed = true := by
    decide +kernel
  obtain ⟨-, -, hunreturned⟩ := isLive_after_commit_iff index hreachable update hsucceeds .basic
    sampleSpent.outputId record hrow hlater
  refine ⟨hreachable, hsucceeds, ⟨record, hrow, hlater⟩, hunreturned ?_⟩
  rintro ⟨⟨htentative, -⟩, -⟩
  rw [hfinal] at htentative
  cases htentative

/-- The index when the accepted updates are two slots ahead: slot 6 creates an output and slot 7
consumes it. -/
def sampleAhead : Index :=
  (sampleIndex.after (.accept ⟨6, [], [sampleCreated]⟩)).after
    (.accept ⟨7, [⟨sampleCreated, 7⟩], []⟩)

lemma reachable_sampleAhead : Store.Reachable Set.univ sampleAhead.store :=
  .operation _ (fun _ _ => trivial) (.operation _ (fun _ _ => trivial) reachable_univ_sampleIndex)

/-- An output that is created in slot 6 and consumed in slot 7 is live again, and returned, once
slot 6 is committed. -/
theorem isLive_after_commit_sampleCreated :
    let index := sampleAhead
    let update : LedgerUpdate := ⟨6, [], [sampleCreated]⟩
    Store.Reachable Set.univ index.store ∧ index.succeeds (.commit update) = true ∧
      (∃ record, index.store.row? .basic sampleCreated.outputId = some record ∧
        update.slot < record.about.deletedAtSlot) ∧
      (∃ row, (index.after (.commit update)).store.row? .basic sampleCreated.outputId = some row ∧
        row.about.isLive = true) ∧
      ∃ answer, ((query (.basic {}) ⟨0, none⟩).run.run (index.after (.commit update))).1 =
        .ok answer ∧ sampleCreated.outputId ∈ answer.outputIds := by
  intro index update
  have hexact : (index.after (.commit update)).store.Exact :=
    exact_after reachable_sampleAhead.exact _
  obtain ⟨hsucceeds, hmarked, hfault, row, hrow, hlive, hadmits⟩ :
      index.succeeds (.commit update) = true ∧
        (∃ record, index.store.row? .basic sampleCreated.outputId = some record ∧
          update.slot < record.about.deletedAtSlot) ∧
        (index.after (.commit update)).fault ≠ .lookups ∧
        ∃ row, (index.after (.commit update)).store.row? .basic sampleCreated.outputId = some row ∧
          row.about.isLive = true ∧ (Filter.basic {}).admits row = true := by
    decide +kernel
  obtain ⟨answer, hquery, hid⟩ := Filter.exists_run_query_of_admits hexact hfault hrow hadmits
  exact ⟨reachable_sampleAhead, hsucceeds, hmarked, ⟨row, hrow, hlive⟩, answer,
    congrArg Prod.fst hquery, hid⟩

/-! ## Rows booked beyond the slot -/

/-- **A commit records what it creates as the committed update has it, unless a tentative row of
the output is booked beyond the slot: that row stays and becomes final as it is.** -/
theorem row_after_commit_of_created (index : Index)
    (hreachable : Store.Reachable Set.univ index.store) (update : LedgerUpdate)
    (hsucceeds : index.succeeds (.commit update) = true) (output : LedgerOutput)
    (hcreated : output ∈ update.created)
    (hkept : ∀ spent ∈ update.consumed, spent.outputId ≠ output.outputId)
    (honce : ∀ other ∈ update.created, other.outputId = output.outputId → other = output)
    (hnew : ∀ record, index.store.row? output.kind output.outputId = some record →
      record.about.committed = false) :
    let before := index.store.row? output.kind output.outputId
    let after := (index.after (.commit update)).store.row? output.kind output.outputId
    ((∀ row, before = some row → row.about.createdAtSlot ≤ update.slot) →
      ∃ record, OutputRecord.ofLedgerOutput output true = .ok record ∧ after = some record ∧
        record.about = OutputRecord.aboutOf output true) ∧
      ∀ row, before = some row → update.slot < row.about.createdAtSlot →
        after = some (row.unmarked update.slot).finalized := by
  intro before after
  have hnet : output ∈ update.netCreated := by
    rw [LedgerUpdate.mem_netCreated_iff, LedgerUpdate.not_consumes_iff]
    exact ⟨hcreated, hkept⟩
  obtain ⟨last, hlast, htaken⟩ : ∃ last, after = some last ∧
      output.takenOver (before.bind (·.swept update.slot)) = some last := by
    rcases row?_after_commit hreachable.exact hsucceeds output.kind output.outputId with
      ⟨other, hother, -, hid, last, hlast, htaken⟩ | ⟨hnone, -⟩
    · -- the output is listed once, so it is the one that decides the row
      obtain rfl := honce other (LedgerUpdate.mem_netCreated_iff.1 hother).1 hid
      exact ⟨last, hlast, htaken⟩
    · exact absurd ⟨rfl, rfl⟩ (hnone output hnet)
  rw [hlast]
  constructor
  · intro hbooked
    have hswept : before.bind (·.swept update.slot) = none := by
      refine Option.bind_eq_none_iff.2 fun row hrow => ?_
      rw [OutputRecord.swept, if_pos ⟨hnew row hrow, hbooked row hrow⟩]
    rw [hswept] at htaken
    have hrecorded := LedgerOutput.takenOver_none_eq_some_iff.1 htaken
    exact ⟨last, hrecorded, rfl, OutputRecord.about_of_ok hrecorded⟩
  · intro row hrow hbeyond
    have hstays : ¬row.Lapses update.slot := fun hlapses => UInt32.not_le.2 hbeyond hlapses.2
    rw [hrow, Option.bind_some, OutputRecord.swept, if_neg hstays] at htaken
    exact htaken.symm

/-- The output of the sample is recorded as committed, though it was accepted and spent before. -/
theorem row_after_commit_sampleCreated :
    let index := sampleAhead
    let update : LedgerUpdate := ⟨6, [], [sampleCreated]⟩
    Store.Reachable Set.univ index.store ∧ index.succeeds (.commit update) = true ∧
      sampleCreated ∈ update.created ∧
      (∀ spent ∈ update.consumed, spent.outputId ≠ sampleCreated.outputId) ∧
      (∀ other ∈ update.created, other.outputId = sampleCreated.outputId → other = sampleCreated) ∧
      (∀ record, index.store.row? sampleCreated.kind sampleCreated.outputId = some record →
        record.about.committed = false) ∧
      ∃ record, OutputRecord.ofLedgerOutput sampleCreated true = .ok record ∧
        (index.after (.commit update)).store.row? sampleCreated.kind sampleCreated.outputId =
          some record := by
  intro index update
  have hcreated : sampleCreated ∈ update.created := List.mem_singleton.2 rfl
  have hkept : ∀ spent ∈ update.consumed, spent.outputId ≠ sampleCreated.outputId := by
    rintro spent ⟨⟩
  have honce : ∀ other ∈ update.created,
      other.outputId = sampleCreated.outputId → other = sampleCreated :=
    fun other hother _ => List.mem_singleton.1 hother
  obtain ⟨hsucceeds, hrows⟩ : index.succeeds (.commit update) = true ∧
      ∀ record, index.store.row? sampleCreated.kind sampleCreated.outputId = some record →
        record.about.committed = false ∧ record.about.createdAtSlot ≤ update.slot := by
    decide +kernel
  obtain ⟨hrecorded, -⟩ := row_after_commit_of_created index reachable_sampleAhead update hsucceeds
    sampleCreated hcreated hkept honce fun record hrow => (hrows record hrow).1
  obtain ⟨record, hrecord, hafter, -⟩ := hrecorded fun record hrow => (hrows record hrow).2
  exact ⟨reachable_sampleAhead, hsucceeds, hcreated, hkept, honce,
    fun record hrow => (hrows record hrow).1, record, hrecord, hafter⟩

/-- The output of the sample, accepted as booked in slot 7, keeps that slot for good when slot 6 is
committed with it. -/
theorem row_after_commit_sampleRebooked :
    let index := sampleIndex.after (.accept ⟨7, [], [{ sampleCreated with bookedAt := 7 }]⟩)
    let update : LedgerUpdate := ⟨6, [], [sampleCreated]⟩
    Store.Reachable Set.univ index.store ∧ index.succeeds (.commit update) = true ∧
      (∀ record, index.store.row? sampleCreated.kind sampleCreated.outputId = some record →
        record.about.committed = false) ∧
      ∃ record row, OutputRecord.ofLedgerOutput sampleCreated true = .ok record ∧
        (index.after (.commit update)).store.row? sampleCreated.kind sampleCreated.outputId =
          some row ∧ row.about.committed = true ∧ row.about.createdAtSlot = 7 ∧ row ≠ record := by
  intro index update
  have hreachable : Store.Reachable Set.univ index.store :=
    .operation _ (fun _ _ => trivial) reachable_univ_sampleIndex
  obtain ⟨hsucceeds, hnew, row, hrow, hfinal, hbooked⟩ :
      index.succeeds (.commit update) = true ∧
        (∀ record, index.store.row? sampleCreated.kind sampleCreated.outputId = some record →
          record.about.committed = false) ∧
        ∃ row, (index.after (.commit update)).store.row? sampleCreated.kind
            sampleCreated.outputId = some row ∧
          row.about.committed = true ∧ row.about.createdAtSlot = 7 := by
    decide +kernel
  obtain ⟨record, hrecord⟩ :
      ∃ record, OutputRecord.ofLedgerOutput sampleCreated true = .ok record := ⟨_, rfl⟩
  refine ⟨hreachable, hsucceeds, hnew, record, row, hrecord, hrow, hfinal, hbooked, ?_⟩
  rintro rfl
  rw [OutputRecord.about_of_ok hrecord] at hbooked
  exact absurd hbooked (by decide +kernel)

end Index

end OutputIndex
