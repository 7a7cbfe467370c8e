import OutputIndex.Proofs.Index.Bootstrap
import OutputIndex.Proofs.Index.Commits
import OutputIndex.Proofs.Query.Combined

/-!
# What an accepted spend makes of a row

An accepted update that consumes an output, and does not create it as well, leaves a row of the
output with the mark of its last consumption in the update (`Index.exists_row_after_accept`), be
there a row before or not.

A row is live if its mark is zero, and the mark is the slot that the consumption says, whatever the
slot of the update.  So a consumption in slot 0 does not take the output out of sight: a row that
was there stays live or becomes live again, and an output never seen before comes up as live.
Queries return an output that has been consumed just if its last consumption is in slot 0, or a live
row of it is of a kind that the update does not list (`Index.returns_after_accept_iff`).
-/

namespace OutputIndex

variable {kind : OutputKind} {id : OutputId} {update : LedgerUpdate} {spent : LedgerSpent}

/-! ## Last consumptions -/

/-- The last consumption of an output that an update lists. -/
def LedgerUpdate.lastSpend? (update : LedgerUpdate) (kind : OutputKind) (id : OutputId) :
    Option LedgerSpent :=
  (update.consumed.filter fun spent => spent.output.IsAt kind id).getLast?

lemma LedgerUpdate.exists_lastSpend? (h : spent ∈ update.consumed) :
    ∃ last, update.lastSpend? spent.output.kind spent.outputId = some last := by
  have hlisted : spent ∈ update.consumed.filter fun other =>
      other.output.IsAt spent.output.kind spent.outputId :=
    List.mem_filter.2 ⟨h, decide_eq_true ⟨rfl, rfl⟩⟩
  exact ⟨_, List.getLast?_eq_some_getLast (List.ne_nil_of_mem hlisted)⟩

lemma LedgerUpdate.not_isAt_of_lastSpend?_eq_none (h : update.lastSpend? kind id = none)
    (hspent : spent ∈ update.consumed) : ¬spent.output.IsAt kind id := by
  have hempty := List.getLast?_eq_none_iff.1 h
  simpa using List.filter_eq_nil_iff.1 hempty spent hspent

/-- The marks that consumptions put on a row are those of the consumptions of its output. -/
lemma Part.filterMap_mark?_map_mark (consumed : List LedgerSpent) :
    (consumed.map mark).filterMap (mark? kind id) =
      (consumed.filter fun spent => spent.output.IsAt kind id).map (·.spentAt) := by
  induction consumed with
  | nil => rfl
  | cons spent rest ih =>
    rw [List.map_cons, List.filterMap_cons, mark?, List.filter_cons]
    by_cases hat : spent.output.IsAt kind id <;> simp [hat, ih]

/-- The last mark that an accepted update puts on a row is that of the last consumption. -/
lemma Part.lastMark?_accept (hkept : ¬update.Creates id) :
    lastMark? kind id (Operation.accept update).parts =
      (update.lastSpend? kind id).map (·.spentAt) := by
  have hproposed : (update.netCreated.map propose).filterMap (mark? kind id) = [] := by
    refine List.filterMap_eq_nil_iff.2 fun part hpart => ?_
    obtain ⟨output, -, rfl⟩ := List.mem_map.1 hpart
    rfl
  -- what the update leaves out of its consumptions is created, so it is another output
  have hnet : (update.netConsumed.filter fun spent => spent.output.IsAt kind id) =
      update.consumed.filter fun spent => spent.output.IsAt kind id := by
    rw [LedgerUpdate.netConsumed, List.filter_filter]
    refine List.filter_congr fun spent hspent => ?_
    by_cases hat : spent.output.IsAt kind id
    · have hid : spent.outputId = id := hat.2
      have hmem : spent ∈ update.netConsumed :=
        LedgerUpdate.mem_netConsumed_iff.2 ⟨hspent, hid ▸ hkept⟩
      simp only [hat, decide_true, Bool.true_and]
      exact (List.mem_filter.1 hmem).2
    · simp only [hat, decide_false, Bool.false_and]
  rw [lastMark?, Operation.parts, List.filterMap_append, hproposed, List.append_nil,
    filterMap_mark?_map_mark, hnet, List.getLast?_map, LedgerUpdate.lastSpend?]

/-! ## Rows after a consumption -/

section Steps

variable {writer last : Writer} {part : Part} {parts : List Part} {slot : Slot}

/-- A row that a step puts a mark on is there afterwards and has the mark. -/
lemma Step.exists_row_of_mark? (h : Step writer part last) (hready : writer.Ready)
    (hmark : part.mark? kind id = some slot) :
    ∃ row, last.store.row? kind id = some row ∧ row.about.deletedAtSlot = slot := by
  have hrow := h.row?_eq hready kind id
  cases part with
  | mark spent =>
    rw [Part.mark?] at hmark
    split at hmark <;> rename_i hat
    · obtain rfl := Option.some.inj hmark
      rw [Part.onRow, if_pos hat] at hrow
      obtain ⟨rfl, rfl⟩ := hat
      -- whether the row was there or is new, it is that of a record with the mark put on it
      obtain ⟨record, hproposed⟩ : ∃ record, spent.output.proposed
          (writer.store.row? spent.output.kind spent.output.outputId) = some record := by
        cases h with
        | mark hbefore | markSame hbefore =>
          exact ⟨_, congrArg spent.output.proposed hbefore⟩
        | @markUnseen _ record hbefore hrecord =>
          refine ⟨record, (congrArg spent.output.proposed hbefore).trans ?_⟩
          rw [LedgerOutput.proposed, hrecord]
          rfl
      rw [LedgerSpent.marked, hproposed] at hrow
      exact ⟨_, hrow, by rw [OutputRecord.about_spentAt]⟩
    · cases hmark
  | settle | remove | propose | finalize | purge => cases hmark

/-- A row that parts of accepted updates put marks on is there afterwards and has the last one. -/
lemma Steps.exists_row_of_lastMark? (h : Steps writer parts last) (hready : writer.Ready)
    (hparts : ∀ part ∈ parts, part.IsSpeculative)
    (hmark : Part.lastMark? kind id parts = some slot) :
    ∃ row, last.store.row? kind id = some row ∧ row.about.deletedAtSlot = slot := by
  induction h with
  | nil => cases hmark
  | @cons writer middle last part rest hstep hrest ih =>
    have hready' := hstep.ready hready
    have hrest' := fun p hp => hparts p (List.mem_cons_of_mem part hp)
    rw [Part.lastMark?_cons] at hmark
    cases hlater : Part.lastMark? kind id rest with
    | some mark =>
      rw [hlater, Option.some_or] at hmark
      exact ih hready' hrest' (hlater.trans hmark)
    | none =>
      -- the mark is put here, and nothing that follows puts another
      rw [hlater, Option.none_or] at hmark
      obtain ⟨row, hrow, hslot⟩ := hstep.exists_row_of_mark? hready hmark
      have hlast := hrest.row?_eq hready' kind id
      rw [hrow, Part.foldl_speculative_some hrest', hlater, Option.getD_none,
        OutputRecord.spentAt_deletedAtSlot] at hlast
      exact ⟨row, hlast, hslot⟩

end Steps

namespace Index

variable {index : Index}

/-- An output that an accepted update consumes, and does not create, has a row with the mark of its
last consumption. -/
lemma exists_row_after_accept (hexact : index.store.Exact)
    (hsucceeds : index.succeeds (.accept update) = true) (hkept : ¬update.Creates id)
    {last : LedgerSpent} (hlast : update.lastSpend? kind id = some last) :
    ∃ row, (index.after (.accept update)).store.row? kind id = some row ∧
      row.about.deletedAtSlot = last.spentAt := by
  obtain ⟨-, writer, hsteps, hafter⟩ := steps_of_accept hsucceeds
  have hmark : Part.lastMark? kind id (Operation.accept update).parts = some last.spentAt := by
    rw [Part.lastMark?_accept hkept, hlast, Option.map_some]
  rw [hafter]
  exact hsteps.exists_row_of_lastMark? (Writer.ready_start hexact index.fault)
    (fun part => Part.isSpeculative_of_mem_accept) hmark

/-- An accepted update leaves the row of an output alone that it neither consumes nor creates. -/
lemma row?_after_accept_of_not_listed (hexact : index.store.Exact)
    (hsucceeds : index.succeeds (.accept update) = true) (hkept : ¬update.Creates id)
    (hnone : update.lastSpend? kind id = none) :
    (index.after (.accept update)).store.row? kind id = index.store.row? kind id := by
  have hparts : ∀ part ∈ (Operation.accept update).parts, ∀ row,
      part.onRow kind id row = row := by
    intro part hpart row
    rcases List.mem_append.1 hpart with hpart | hpart
    · obtain ⟨spent, hspent, rfl⟩ := List.mem_map.1 hpart
      exact if_neg (LedgerUpdate.not_isAt_of_lastSpend?_eq_none hnone
        (LedgerUpdate.mem_netConsumed_iff.1 hspent).1)
    · obtain ⟨output, houtput, rfl⟩ := List.mem_map.1 hpart
      exact if_neg fun hat => hkept ⟨output, (LedgerUpdate.mem_netCreated_iff.1 houtput).1, hat.2⟩
  rw [row?_after hexact hsucceeds]
  refine List.foldlRecOn (motive := (· = index.store.row? kind id)) _ _ rfl ?_
  rintro _ rfl part hpart
  exact hparts part hpart _

end Index

/-! ## What is returned -/

/-- A filter without options selects every live row. -/
lemma CombinedFilter.selects_default_iff {record : OutputRecord} :
    CombinedFilter.Selects {} record ↔ record.about.isLive = true := by
  simp [selects_iff, SlotRange.contains_iff]

/-- An identifier is returned just if it is that of a live row. -/
lemma Store.Reachable.returns_iff {known : Set LedgerOutput} {store : Store}
    (h : Reachable known store) :
    store.Returns id ↔
      ∃ kind row, store.row? kind id = some row ∧ row.about.isLive = true := by
  have hkeyed := h.exact.keyed
  constructor
  · rintro ⟨reader, next, answer, rfl, hanswer, hid⟩
    have hlive : ∃ record ∈ reader.store.rowSet,
        record.about.isLive = true ∧ record.outputId = id := by
      rcases hanswer with ⟨filter, page, hquery⟩ | ⟨kind, key, hfind⟩
      · exact Index.exists_live_of_mem_query h.exact hquery hid
      · exact Index.exists_live_of_mem_findByIdentity h.exact hfind hid
    obtain ⟨record, hrecord, hlive, rfl⟩ := hlive
    exact ⟨_, record, hkeyed.mem_rowSet_iff.1 hrecord, hlive⟩
  · rintro ⟨kind, row, hrow, hlive⟩
    let reader : Index := ⟨store, 0, .none⟩
    have hselected : row ∈ store.selected {} :=
      mem_selected_iff.2
        ⟨mem_allRows_iff.2 ⟨_, _, hrow⟩, CombinedFilter.selects_default_iff.2 hlive⟩
    have hadmits : (Filter.combined {}).admits row = true := by
      rw [← h.found_combined, Filter.mem_found_iff hkeyed] at hselected
      exact hselected.1.2
    have hexact : reader.store.Exact := h.exact
    have hfault : reader.fault ≠ .lookups := nofun
    obtain ⟨answer, hquery, hid⟩ :=
      Filter.exists_run_query_of_admits hexact hfault hrow hadmits
    exact ⟨reader, reader, answer, rfl, .inl ⟨_, _, hquery⟩, hid⟩

namespace Index

/-- **An output that an accepted update consumes, and does not create, is out of sight afterwards
unless it is consumed in slot 0.**  Its row is there and has the mark of its last consumption in the
update.  Its identifier is returned just if the last consumption of a kind is in slot 0, or a live
row of it is of a kind that the update does not list. -/
theorem returns_after_accept_iff (index : Index)
    (hreachable : Store.Reachable Set.univ index.store) (update : LedgerUpdate)
    (hsucceeds : index.succeeds (.accept update) = true) (spent : LedgerSpent)
    (hspent : spent ∈ update.consumed)
    (hkept : ∀ output ∈ update.created, output.outputId ≠ spent.outputId) :
    let id := spent.outputId
    let store := (index.after (.accept update)).store
    (∃ last row, update.lastSpend? spent.output.kind id = some last ∧
      store.row? spent.output.kind id = some row ∧ row.about.deletedAtSlot = last.spentAt ∧
        (row.about.isLive = true ↔ last.spentAt = 0)) ∧
      (store.Returns id ↔
        (∃ kind last, update.lastSpend? kind id = some last ∧ last.spentAt = 0) ∨
          ∃ kind row, update.lastSpend? kind id = none ∧ index.store.row? kind id = some row ∧
            row.about.isLive = true) := by
  intro id store
  have hnot : ¬update.Creates id := fun ⟨output, houtput, hid⟩ => hkept output houtput hid
  have hafter : Store.Reachable Set.univ store :=
    .operation (.accept update) (fun _ _ => trivial) hreachable
  have hlisted : ∀ kind last, update.lastSpend? kind id = some last →
      ∃ row, store.row? kind id = some row ∧ row.about.deletedAtSlot = last.spentAt ∧
        (row.about.isLive = true ↔ last.spentAt = 0) := by
    intro kind last hlast
    obtain ⟨row, hrow, hmark⟩ := exists_row_after_accept hreachable.exact hsucceeds hnot hlast
    exact ⟨row, hrow, hmark, by rw [RecordMeta.isLive, beq_iff_eq, hmark]⟩
  constructor
  · obtain ⟨last, hlast⟩ := LedgerUpdate.exists_lastSpend? hspent
    obtain ⟨row, hrow⟩ := hlisted _ last hlast
    exact ⟨last, row, hlast, hrow⟩
  · rw [hafter.returns_iff]
    constructor
    · rintro ⟨kind, row, hrow, hlive⟩
      cases hlast : update.lastSpend? kind id with
      | some last =>
        obtain ⟨row', hrow', -, hzero⟩ := hlisted kind last hlast
        obtain rfl : row = row' := Option.some.inj (hrow.symm.trans hrow')
        exact .inl ⟨kind, last, hlast, hzero.1 hlive⟩
      | none =>
        -- the update does not list this kind of it, so the row is as it was
        rw [row?_after_accept_of_not_listed hreachable.exact hsucceeds hnot hlast] at hrow
        exact .inr ⟨kind, row, hlast, hrow, hlive⟩
    · rintro (⟨kind, last, hlast, hzero⟩ | ⟨kind, row, hnone, hrow, hlive⟩)
      · obtain ⟨row, hrow, -, hlive⟩ := hlisted kind last hlast
        exact ⟨kind, row, hrow, hlive.2 hzero⟩
      · refine ⟨kind, row, ?_, hlive⟩
        rw [row?_after_accept_of_not_listed hreachable.exact hsucceeds hnot hnone]
        exact hrow

/-- Consumed in the slot of the update, neither the output of the import nor one that was never seen
is returned. -/
theorem not_returned_after_accept_sample :
    let update : LedgerUpdate := ⟨6, [⟨sampleSpent, 6⟩, ⟨sampleCreated, 6⟩], []⟩
    Store.Reachable Set.univ sampleIndex.store ∧
      sampleIndex.succeeds (.accept update) = true ∧
      ∀ spent ∈ update.consumed,
        (∀ output ∈ update.created, output.outputId ≠ spent.outputId) ∧
          ¬(sampleIndex.after (.accept update)).store.Returns spent.outputId := by
  intro update
  have hsucceeds : sampleIndex.succeeds (.accept update) = true := by decide +kernel
  have hkinds : ∀ spent ∈ update.consumed, ∀ kind ∈ OutputKind.all,
      (∀ last ∈ update.lastSpend? kind spent.outputId, last.spentAt ≠ 0) ∧
        (update.lastSpend? kind spent.outputId = none →
          sampleIndex.store.row? kind spent.outputId = none) := by
    decide +kernel
  have hall : ∀ kind, kind ∈ OutputKind.all := by rintro ⟨⟩ <;> decide
  refine ⟨reachable_univ_sampleIndex, hsucceeds, fun spent hspent => ⟨nofun, fun hreturned => ?_⟩⟩
  obtain ⟨-, hiff⟩ := returns_after_accept_iff sampleIndex reachable_univ_sampleIndex update
    hsucceeds spent hspent nofun
  rcases hiff.1 hreturned with ⟨kind, last, hlast, hzero⟩ | ⟨kind, row, hnone, hrow, -⟩
  · exact (hkinds spent hspent kind (hall kind)).1 last hlast hzero
  · rw [(hkinds spent hspent kind (hall kind)).2 hnone] at hrow
    cases hrow

/-- Consumed in slot 0, both the output of the import and one that was never seen are live and
returned. -/
theorem returned_after_accept_sample :
    let update : LedgerUpdate := ⟨6, [⟨sampleSpent, 0⟩, ⟨sampleCreated, 0⟩], []⟩
    Store.Reachable Set.univ sampleIndex.store ∧
      sampleIndex.succeeds (.accept update) = true ∧
      ∀ spent ∈ update.consumed,
        (∀ output ∈ update.created, output.outputId ≠ spent.outputId) ∧
          (∃ row, (sampleIndex.after (.accept update)).store.row? spent.output.kind
              spent.outputId = some row ∧ row.about.isLive = true) ∧
          (sampleIndex.after (.accept update)).store.Returns spent.outputId := by
  intro update
  have hafter : Store.Reachable Set.univ (sampleIndex.after (.accept update)).store :=
    .operation _ (fun _ _ => trivial) reachable_univ_sampleIndex
  obtain ⟨hsucceeds, hlive⟩ : sampleIndex.succeeds (.accept update) = true ∧
      ∀ spent ∈ update.consumed, ∃ row, (sampleIndex.after (.accept update)).store.row?
        spent.output.kind spent.outputId = some row ∧ row.about.isLive = true := by
    decide +kernel
  refine ⟨reachable_univ_sampleIndex, hsucceeds, fun spent hspent => ?_⟩
  have hrow := hlive spent hspent
  exact ⟨nofun, hrow, hafter.returns_iff.2 ⟨_, hrow⟩⟩

end Index

end OutputIndex
