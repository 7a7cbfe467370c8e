import OutputIndex.Proofs.Address.Key
import OutputIndex.Proofs.Index.Ledger
import OutputIndex.Proofs.Index.References
import OutputIndex.Proofs.Index.Settled

/-!
# No tentative residue

Once everything tentative is taken back, nothing is left of what was accepted: the store is the one
that the commits alone would have made (`Index.eq_of_settled`).

The proof runs the commits on a second index, the shadow of the first (`Index.Shadows`).  Both agree
on the status and on what is unspent, and the rows of the shadow are settled at any time.  A commit
that succeeds on an index succeeds on its shadow (`Index.Shadows.commits`).  As soon as the rows of
the index are settled too, the unspent outputs determine the rows of both, and these determine all
else.
-/

namespace OutputIndex

lemma Consistent.sameOutputs {known : Set LedgerOutput} (h : Consistent known) :
    SameOutputs known :=
  fun output houtput other hother hid =>
    congrArg LedgerOutput.output (h output houtput other hother hid)

namespace Store

variable {known unspent : Set LedgerOutput} {store other : Store}

/-- The rows and the references are in line with what is unspent. -/
structure Tidy (known unspent : Set LedgerOutput) (store : Store) : Prop where
  reflects : Reflects known unspent store
  linked : Linked known store

lemma Tidy.seesRows (known : Set LedgerOutput) : SeesRows (Tidy known) :=
  fun unspent store other hrows hlinks h =>
    ⟨Reflects.seesRows known unspent store other hrows hlinks h.reflects,
      Linked.seesRows known unspent store other hrows hlinks h.linked⟩

lemma Tidy.stepsKeep {operation : Operation} (hconsistent : Consistent known)
    (hknown : ∀ output ∈ operation.outputs, output ∈ known) :
    Index.StepsKeep (Tidy known) operation := by
  intro part hpart unspent writer last hready hstep h
  have hreflects := Reflects.stepsKeep hconsistent hknown part hpart
  have hlinked := Linked.stepsKeep hconsistent.sameOutputs hknown part hpart
  exact ⟨hreflects unspent writer last hready hstep h.reflects,
    hlinked unspent writer last hready hstep h.linked⟩

lemma Tidy.empty (known : Set LedgerOutput) : Tidy known ∅ Store.empty :=
  ⟨Reflects.empty known, Linked.empty known⟩

/-- A final row may be entered for any known output. -/
lemma Tidy.enter_final {writer : Writer} {output : LedgerOutput} {record : OutputRecord}
    (h : Tidy known unspent writer.store) (hconsistent : Consistent known)
    (hknown : output ∈ known) (hrecord : OutputRecord.ofLedgerOutput output true = .ok record) :
    Tidy known (insert output unspent) (writer.enter record output).store := by
  have hrecords := OutputRecord.records_of_ok hrecord
  exact ⟨h.reflects.enter_final hknown hrecord,
    h.linked.enter hconsistent.sameOutputs hknown hrecords.kind hrecords.outputId⟩

lemma Reachable.exists_tidy (h : Reachable known store) (hconsistent : Consistent known) :
    ∃ unspent, Tidy known unspent store :=
  h.exists_unspent (Tidy.seesRows known) (Tidy.empty known)
    (fun _ hknown => Tidy.stepsKeep hconsistent hknown)
    fun _ houtput _ _ _ hrecord htidy => htidy.enter_final hconsistent houtput hrecord

/-! ## What is unspent determines a settled store -/

lemma row?_of_settled {kind : OutputKind} {id : OutputId} {record : OutputRecord}
    (h : Reflects known unspent store) (h' : Reflects known unspent other)
    (hconsistent : Consistent known) (hsettled : store.Settled) (hsettled' : other.Settled)
    (hrow : store.row? kind id = some record) : other.row? kind id = some record := by
  obtain ⟨output, hknown, rfl, rfl, hrecords, hunspent⟩ := h.records kind id record hrow
  obtain ⟨hfinal, hlive⟩ := hsettled _ _ _ hrow
  obtain ⟨-, row, hrow', hfinal'⟩ := h'.holds output (hunspent hfinal)
  have hrecords' := (h'.records_of_row? hconsistent hknown hrow').1
  have hlive' := (hsettled' _ _ _ hrow').2
  rw [hrow', hrecords'.eq hrecords (hfinal'.trans hfinal.symm) (hlive'.trans hlive.symm)]

/-- Where no two definitions have the same digest, the rows determine the multi addresses. -/
lemma Linked.links_eq (h : Linked known store) (h' : Linked known other)
    (hdigests : DigestsDiffer (definitionsOf known))
    (hrows : ∀ kind id, store.row? kind id = other.row? kind id) : store.links = other.links := by
  have hreferences : store.rowReferences known = other.rowReferences known := by
    simp only [rowReferences, hrows]
  have hlinks : store.Links (other.rowReferences known) (definitionsOf known) :=
    hreferences ▸ h.links
  exact hlinks.links_eq h'.links fun d hd e he => hdigests.toBytes_eq hd he

/-- Where the rows are settled, what is unspent and the status determine the store. -/
lemma Tidy.eq_of_settled (h : Tidy known unspent store) (h' : Tidy known unspent other)
    (hconsistent : Consistent known) (hdigests : DigestsDiffer (definitionsOf known))
    (hexact : store.Exact) (hexact' : other.Exact) (hsettled : store.Settled)
    (hsettled' : other.Settled) (hstatus : store.status = other.status) : store = other := by
  have hrows : ∀ kind id, store.row? kind id = other.row? kind id := by
    intro kind id
    ext record
    constructor
    · exact row?_of_settled h.reflects h'.reflects hconsistent hsettled hsettled'
    · exact row?_of_settled h'.reflects h.reflects hconsistent hsettled' hsettled
  have hlinks : store.links = other.links := h.linked.links_eq h'.linked hdigests hrows
  exact hexact.eq_of_row?_eq hexact' hrows hlinks hstatus

end Store

/-! ## Commits on a shadow -/

namespace Part

variable {known unspent : Set LedgerOutput} {writer last shadow : Writer} {part : Part}
  {parts : List Part}

/-- A part that commits consist of. -/
def OfCommit : Part → Prop
  | settle _ | remove _ | finalize _ => True
  | mark _ | propose _ | purge => False

/-- Taking over an output that was not unspent takes a record and the writing of a row. -/
lemma writes_of_run {output : LedgerOutput} (h : Store.Reflects known unspent writer.store)
    (hconsistent : Consistent known) (hknown : output ∈ known) (hnew : output ∉ unspent)
    (hrun : (finalize output).run.run writer = .ok ((), last)) :
    writer.fault ≠ .writer .writeOutput ∧
      ∃ record, OutputRecord.ofLedgerOutput output true = .ok record := by
  rw [run, WriteM.run_insertOutput] at hrun
  split at hrun
  · rename_i record hrow
    obtain ⟨hrecords, hunspent⟩ := h.records_of_row? hconsistent hknown hrow
    -- the row is tentative, as a final one would be that of an unspent output
    split at hrun
    · rw [WriteM.run_writeOutput] at hrun
      split at hrun
      · cases hrun
      · rename_i hfault
        exact ⟨hfault, hrecords.exists_ok true⟩
    · rename_i hfinal
      exact absurd (hunspent (by simpa using hfinal)) hnew
  · split at hrun
    · cases hrun
    · rename_i record hrecord
      split at hrun
      · cases hrun
      · rename_i hfault
        exact ⟨hfault, record, hrecord⟩

/-- What succeeds as part of a commit succeeds wherever the same outputs are unspent. -/
lemma exists_run (hreflects : Store.Reflects known unspent writer.store)
    (hshadow : Store.Reflects known unspent shadow.store) (hconsistent : Consistent known)
    (hknown : ∀ output ∈ part.outputs, output ∈ known) (hfault : shadow.fault = writer.fault)
    (hpart : part.OfCommit) (hrun : part.run.run writer = .ok ((), last)) :
    ∃ next, part.run.run shadow = .ok ((), next) := by
  cases part with
  | settle slot => exact ⟨_, WriteM.run_removeUncommitted slot shadow⟩
  | remove spent =>
    rw [run, WriteM.run_removeSpent] at hrun
    split at hrun
    · cases hrun
    · rename_i hnot
      refine ⟨shadow.leave spent.output.kind spent.outputId, ?_⟩
      rw [run, WriteM.run_removeSpent, hfault, if_neg hnot]
  | finalize output =>
    have houtput := hknown output (List.mem_singleton.2 rfl)
    by_cases hunspent : output ∈ unspent
    · -- its row is final on the shadow as well, so there is nothing to write
      obtain ⟨-, record, hrow, hfinal⟩ := hshadow.holds output hunspent
      refine ⟨shadow, ?_⟩
      rw [run, WriteM.run_insertOutput, hrow]
      simp [hfinal]
    · obtain ⟨hwrite, record, hrecord⟩ :=
        writes_of_run hreflects hconsistent houtput hunspent hrun
      exact WriteM.exists_run_insertOutput (hfault ▸ hwrite) hrecord
  | mark spent => cases hpart
  | propose output => cases hpart
  | purge => cases hpart

lemma exists_run_forM (hready : writer.Ready) (hready' : shadow.Ready)
    (hreflects : Store.Reflects known unspent writer.store)
    (hshadow : Store.Reflects known unspent shadow.store) (hconsistent : Consistent known)
    (hknown : ∀ part ∈ parts, ∀ output ∈ part.outputs, output ∈ known)
    (hfault : shadow.fault = writer.fault)
    (hparts : ∀ part ∈ parts, part.OfCommit)
    (hrun : (parts.forM run).run writer = .ok ((), last)) :
    ∃ next, (parts.forM run).run shadow = .ok ((), next) := by
  induction parts generalizing writer shadow unspent with
  | nil => exact ⟨shadow, rfl⟩
  | cons part rest ih =>
    obtain ⟨_, middle, hfirst, hrest⟩ := WriteM.run_bind_eq_ok_iff.1 hrun
    have hpart := hknown part List.mem_cons_self
    -- the first part succeeds on both, and both reflect the same outputs after it
    obtain ⟨middle', hfirst'⟩ := exists_run hreflects hshadow hconsistent hpart hfault
      (hparts part List.mem_cons_self) hfirst
    have hstep := Step.of_run hfirst
    have hstep' := Step.of_run hfirst'
    have hfault' : middle'.fault = middle.fault :=
      hstep'.sameFrame.fault.trans (hfault.trans hstep.sameFrame.fault.symm)
    obtain ⟨next, hnext⟩ := ih (hstep.ready hready) (hstep'.ready hready')
      (hreflects.step hconsistent hpart hready hstep)
      (hshadow.step hconsistent hpart hready' hstep')
      (fun p hp => hknown p (List.mem_cons_of_mem _ hp)) hfault'
      (fun p hp => hparts p (List.mem_cons_of_mem _ hp)) hrest
    exact ⟨next, (WriteM.run_bind_of_ok hfirst').trans hnext⟩

lemma ofCommit_of_mem {update : LedgerUpdate} (h : part ∈ (Operation.commit update).parts) :
    part.OfCommit := by
  rcases List.mem_cons.1 h with rfl | h
  · trivial
  · rcases List.mem_append.1 h with h | h
    all_goals
      obtain ⟨_, -, rfl⟩ := List.mem_map.1 h
      trivial

end Part

/-! ## The shadow of an index -/

namespace Index

variable {known : Set LedgerOutput} {index shadow : Index} {operation : Operation}
  {operations : List Operation} {update : LedgerUpdate}

/-- The other index has the same status and handle, reflects the same unspent outputs, and has
nothing that is not settled. -/
structure Shadows (known : Set LedgerOutput) (index shadow : Index) : Prop where
  committedSlot : shadow.committedSlot = index.committedSlot
  fault : shadow.fault = index.fault
  status : shadow.store.status = index.store.status
  exact : index.store.Exact
  shadowExact : shadow.store.Exact
  tidy : ∃ unspent, Store.Tidy known unspent index.store ∧ Store.Tidy known unspent shadow.store
  settled : shadow.store.Settled

namespace Shadows

/-- A commit that succeeds on an index succeeds on its shadow. -/
lemma commits (h : Shadows known index shadow) (hconsistent : Consistent known)
    (hknown : ∀ output ∈ (Operation.commit update).outputs, output ∈ known) {status : Status}
    {writer : Writer} (hcommits : Commits index status update writer) :
    ∃ next, Commits shadow status update next := by
  obtain ⟨unspent, htidy, htidy'⟩ := h.tidy
  have hready := Writer.ready_start h.exact index.fault
  have hready' := Writer.ready_start h.shadowExact shadow.fault
  obtain ⟨next, hnext⟩ := Part.exists_run_forM hready hready' htidy.reflects htidy'.reflects
    hconsistent
    (fun part hpart output houtput =>
      hknown output (Operation.mem_outputs_of_mem_parts hpart houtput))
    h.fault (fun part hpart => Part.ofCommit_of_mem hpart) hcommits.parts
  exact ⟨next, {
    known := h.committedSlot ▸ hcommits.known
    stored := h.status.trans hcommits.stored
    behind := hcommits.behind
    parts := hnext
    writeStatus := h.fault ▸ hcommits.writeStatus
    commit := h.fault ▸ hcommits.commit }⟩

/-- The index may go on by what is not a commit. -/
lemma after_left (h : Shadows known index shadow) (hconsistent : Consistent known)
    (hknown : ∀ output ∈ operation.outputs, output ∈ known)
    (hsucceeds : index.succeeds operation = true) (hnone : operation.committed? = none) :
    Shadows known (index.after operation) shadow := by
  obtain ⟨unspent, htidy, htidy'⟩ := h.tidy
  obtain ⟨hexact, hafter⟩ := after_preserves _ (Store.Tidy.seesRows known) hsucceeds
    (Store.Tidy.stepsKeep hconsistent hknown) h.exact htidy
  have hunspent : unspentAfter unspent [operation] = unspent := by
    rw [unspentAfter, List.filterMap_cons, hnone]
    rfl
  obtain ⟨hfault, hslot⟩ := handle_after hsucceeds
  have hstatus := status_after hsucceeds
  rw [hnone] at hslot hstatus
  rw [hunspent] at hafter
  exact {
    committedSlot := h.committedSlot.trans hslot.symm
    fault := h.fault.trans hfault.symm
    status := h.status.trans hstatus.symm
    exact := hexact
    shadowExact := h.shadowExact
    tidy := ⟨unspent, hafter, htidy'⟩
    settled := h.settled }

/-- Both may go on by the same commit. -/
lemma after_both (h : Shadows known index shadow) (hconsistent : Consistent known)
    (hknown : ∀ output ∈ (Operation.commit update).outputs, output ∈ known)
    (hsucceeds : index.succeeds (.commit update) = true) :
    Shadows known (index.after (.commit update)) (shadow.after (.commit update)) := by
  obtain ⟨status, writer, hcommits, -⟩ := commits_of_succeeds hsucceeds
  obtain ⟨next, hcommits'⟩ := h.commits hconsistent hknown hcommits
  have hsucceeds' := hcommits'.succeeds.1
  obtain ⟨unspent, htidy, htidy'⟩ := h.tidy
  have hkeep := Store.Tidy.stepsKeep hconsistent hknown
  obtain ⟨hexact, hafter⟩ :=
    after_preserves _ (Store.Tidy.seesRows known) hsucceeds hkeep h.exact htidy
  obtain ⟨hexact', hafter'⟩ :=
    after_preserves _ (Store.Tidy.seesRows known) hsucceeds' hkeep h.shadowExact htidy'
  obtain ⟨hfault, hslot⟩ := handle_after hsucceeds
  obtain ⟨hfault', hslot'⟩ := handle_after hsucceeds'
  exact {
    committedSlot := by rw [hslot, hslot', h.committedSlot]
    fault := by rw [hfault, hfault', h.fault]
    status := by rw [status_after hsucceeds, status_after hsucceeds', h.status]
    exact := hexact
    shadowExact := hexact'
    tidy := ⟨_, hafter, hafter'⟩
    -- a settled store lies within any slot, so each commit leaves the shadow settled
    settled := settled_after_commit h.shadowExact (h.settled.within update.slot) hsucceeds' }

/-- The operations that succeed take an index along, and their commits alone take its shadow
along. -/
lemma foldl_after (h : Shadows known index shadow) (hconsistent : Consistent known)
    (hknown : ∀ operation ∈ operations, ∀ output ∈ operation.outputs, output ∈ known) :
    Shadows known (operations.foldl after index)
      ((((index.successes operations).filterMap Operation.committed?).map .commit).foldl after
        shadow) := by
  induction operations generalizing index shadow with
  | nil => exact h
  | cons operation rest ih =>
    have hfirst := hknown operation List.mem_cons_self
    have hrest := fun o ho => hknown o (List.mem_cons_of_mem operation ho)
    rw [List.foldl_cons, successes]
    cases hsucceeds : index.succeeds operation with
    | false =>
      rw [after_eq_self hsucceeds, if_neg Bool.false_ne_true]
      exact ih h hrest
    | true =>
      rw [if_pos rfl, List.filterMap_cons]
      cases operation with
      | accept update => exact ih (h.after_left hconsistent hfirst hsucceeds rfl) hrest
      | commit update => exact ih (h.after_both hconsistent hfirst hsucceeds) hrest
      | rollback => exact ih (h.after_left hconsistent hfirst hsucceeds rfl) hrest

/-- Once the rows of an index are settled it is the same as its shadow. -/
lemma eq_of_settled (h : Shadows known index shadow) (hconsistent : Consistent known)
    (hdigests : Store.DigestsDiffer (Store.definitionsOf known))
    (hsettled : index.store.Settled) : index = shadow := by
  obtain ⟨unspent, htidy, htidy'⟩ := h.tidy
  have hstore := htidy.eq_of_settled htidy' hconsistent hdigests h.exact h.shadowExact hsettled
    h.settled h.status.symm
  cases index
  cases shadow
  rw [mk.injEq]
  exact ⟨hstore, h.committedSlot.symm, h.fault.symm⟩

end Shadows

/-! ## The end of a run -/

/-- The operation takes back all that was accepted: it is a rollback, or it commits a slot that is
not below that of any accepted update, none of which lists anything beyond its own slot. -/
def Closes (accepted : List LedgerUpdate) : Operation → Prop
  | .rollback => True
  | .commit update => ∀ other ∈ accepted, other.slot ≤ update.slot ∧ other.Timely other.slot
  | .accept _ => False

lemma settled_after {last : Operation} (hexact : index.store.Exact)
    (hsettled : index.store.Settled)
    (hsucceeds : (operations.foldl after index).succeeds last = true)
    (hcloses : Closes ((index.successes operations).filterMap Operation.accepted?) last) :
    ((operations.foldl after index).after last).store.Settled := by
  cases last with
  | accept update => cases hcloses
  | rollback =>
    obtain ⟨writer, hsteps, hafter⟩ := steps_of_rollback hsucceeds
    rw [hafter]
    exact Store.settled_of_rollback (Writer.ready_start (exact_foldl_after hexact) _) hsteps
  | commit update =>
    -- all that was accepted is timely, so the store lies within the slot of the commit
    have hkeep : ∀ operation ∈ index.successes operations,
        StepsKeep (fun _ => Store.Within update.slot) operation := by
      intro operation hoperation
      refine Store.Within.stepsKeep fun other haccepted => ?_
      obtain ⟨hle, htimely⟩ := hcloses other
        (List.mem_filterMap.2 ⟨operation, hoperation, haccepted⟩)
      exact htimely.mono hle
    obtain ⟨hexact', hwithin⟩ := foldl_after_preserves ∅
      (Store.AllRows.seesRows _) hkeep hexact (hsettled.within update.slot)
    exact settled_after_commit hexact' hwithin hsucceeds

/-- **No tentative residue.**  From a reachable store in which every row is final and live, any run
of operations that ends by taking back all that it accepted leads to the same index as the commits
alone that succeeded in it: no row, mark, place, definition or reference is left of the rest. -/
theorem foldl_after_eq_commits (known : Set LedgerOutput) (hconsistent : Consistent known)
    (hdigests : Store.DigestsDiffer (Store.definitionsOf known)) (index : Index)
    (hreachable : Store.Reachable known index.store) (hsettled : index.store.Settled)
    (operations : List Operation) (last : Operation)
    (hknown : ∀ operation ∈ operations ++ [last], ∀ output ∈ operation.outputs, output ∈ known)
    (hsucceeds : (operations.foldl after index).succeeds last = true)
    (hcloses : Closes ((index.successes operations).filterMap Operation.accepted?) last) :
    (operations ++ [last]).foldl after index =
      (((index.successes (operations ++ [last])).filterMap Operation.committed?).map
        .commit).foldl after index := by
  obtain ⟨unspent, htidy⟩ := hreachable.exists_tidy hconsistent
  have hshadows : Shadows known index index := {
    committedSlot := rfl
    fault := rfl
    status := rfl
    exact := hreachable.exact
    shadowExact := hreachable.exact
    tidy := ⟨unspent, htidy, htidy⟩
    settled := hsettled }
  -- the index is its own shadow at the start, and as it ends settled it is that of its commits
  refine (hshadows.foldl_after hconsistent hknown).eq_of_settled hconsistent hdigests ?_
  rw [List.foldl_append]
  exact settled_after hreachable.exact hsettled hsucceeds hcloses

lemma digestsDiffer_sampleKnown : Store.DigestsDiffer (Store.definitionsOf sampleKnown) := by
  have hmulti : ∀ d ∈ Store.definitionsOf sampleKnown,
      d.toAddress = Sample.multiAddress [.alice, .bob] 2 := by
    rintro d ⟨output, rfl | rfl, hd⟩
    · cases hd
    · obtain rfl := List.mem_singleton.1 hd
      rfl
  intro d hd e he _
  rw [MultiAddress.toBytes, MultiAddress.toBytes, hmulti d hd, hmulti e he]

lemma reachable_sampleIndex : Store.Reachable sampleKnown sampleIndex.store := by
  refine .load ?_ run_sampleImport .empty
  intro call hcall output houtput
  obtain rfl := List.mem_singleton.1 hcall
  exact .inl (List.mem_singleton.1 houtput)

lemma reachable_univ_sampleIndex : Store.Reachable Set.univ sampleIndex.store :=
  reachable_sampleIndex.mono (Set.subset_univ _)

/-- The slot of the sample update is committed without it. -/
def sampleClosing : Operation := .commit ⟨6, [], []⟩

theorem foldl_after_sampleClosing :
    Consistent sampleKnown ∧ Store.DigestsDiffer (Store.definitionsOf sampleKnown) ∧
      Store.Reachable sampleKnown sampleIndex.store ∧ sampleIndex.store.Settled ∧
      [.accept sampleUpdate, sampleClosing].foldl after sampleIndex =
        [sampleClosing].foldl after sampleIndex := by
  have hsettled : sampleIndex.store.Settled := by
    obtain ⟨-, hindex⟩ := Import.run_finalize_eq_ok run_sampleImport
    rw [hindex]
    have hempty : (attach .empty .none).store.Settled := Store.AllRows.empty
    exact hempty.finished (Import.loads_taken _ _) _
  have hknown : ∀ operation ∈ [Operation.accept sampleUpdate] ++ [sampleClosing],
      ∀ output ∈ operation.outputs, output ∈ sampleKnown := by
    simp [Operation.outputs, sampleClosing, sampleUpdate, sampleKnown]
  have haccepted : (sampleIndex.successes [.accept sampleUpdate]).filterMap Operation.accepted? =
      [sampleUpdate] := by decide +kernel
  have hcommitted : (sampleIndex.successes
      ([.accept sampleUpdate] ++ [sampleClosing])).filterMap Operation.committed? =
      [⟨6, [], []⟩] := by decide +kernel
  have hsucceeds : ([Operation.accept sampleUpdate].foldl after sampleIndex).succeeds
      sampleClosing = true := by decide +kernel
  have hcloses : Closes [sampleUpdate] sampleClosing := by
    intro other hother
    obtain rfl := List.mem_singleton.1 hother
    refine ⟨by decide, fun spent hspent => ?_, fun output houtput => ?_⟩
    · obtain rfl := List.mem_singleton.1 hspent
      decide
    · obtain rfl := List.mem_singleton.1 houtput
      decide
  have hsame := foldl_after_eq_commits sampleKnown consistent_sampleKnown
    digestsDiffer_sampleKnown sampleIndex reachable_sampleIndex hsettled [.accept sampleUpdate]
    sampleClosing hknown hsucceeds (haccepted ▸ hcloses)
  rw [hcommitted] at hsame
  exact ⟨consistent_sampleKnown, digestsDiffer_sampleKnown, reachable_sampleIndex, hsettled, hsame⟩

end Index

end OutputIndex
