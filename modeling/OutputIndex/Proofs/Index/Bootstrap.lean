import OutputIndex.Proofs.Index.Follow
import OutputIndex.Proofs.Index.Handle
import OutputIndex.Proofs.Index.Snapshot
import OutputIndex.Proofs.Query.Found

/-!
# Bootstraps

A bootstrap that succeeds goes one of three ways (`Index.Bootstraps`): without a status it loads the
node's unspent outputs into the store as it is, with one that does not agree with the node it
empties the store first, and otherwise it takes back what is tentative.

The store should be clean after each (`Store.Clean`): all that is left is final and live.  The
second way and the third see to it.  The first relies on the store being empty, and it is not if
updates have been accepted before there was a status: what they have put and the node does not list
stays as it is (`Import.Loads.row?_finished`).  So a bootstrap leaves a clean store just if there
was a status or the node lists every output that has a row (`Index.clean_after_bootstrap_iff`).

A bootstrap does nothing that a handle could not do by itself, whether it succeeds or not
(`Index.stays_bootstrap`).
-/

namespace OutputIndex

/-! ## What an import makes of the rows -/

namespace Import

variable {index : Index} {state last : Import} {outputs : List LedgerOutput}

/-- Loading outputs makes the rows of these outputs those of what is loaded, and leaves all others
as they are. -/
lemma Loads.row?_eq (h : Loads state outputs last) (kind : OutputKind) (id : OutputId) :
    (∃ output ∈ outputs, output.IsAt kind id ∧ ∃ record,
        OutputRecord.ofLedgerOutput output true = .ok record ∧
          last.writer.store.row? kind id = some record) ∨
      (∀ output ∈ outputs, ¬output.IsAt kind id) ∧
        last.writer.store.row? kind id = state.writer.store.row? kind id := by
  induction h with
  | nil => exact .inr ⟨nofun, rfl⟩
  | @cons state last output record rest hrecord hrest ih =>
    rcases ih with ⟨other, hother, hat⟩ | ⟨hnot, hrow⟩
    · exact .inl ⟨other, List.mem_cons_of_mem _ hother, hat⟩
    · -- nothing that is loaded later is about the row, so the first output decides
      have hrecords := OutputRecord.records_of_ok hrecord
      have hloaded := Writer.row?_enter state.writer record output kind id
      rw [hrecords.kind, hrecords.outputId] at hloaded
      rw [load, hloaded] at hrow
      by_cases hat : output.IsAt kind id
      · rw [if_pos ⟨hat.1.symm, hat.2.symm⟩] at hrow
        exact .inl ⟨output, List.mem_cons_self, hat, record, hrecord, hrow⟩
      · rw [if_neg fun hkey => hat ⟨hkey.1.symm, hkey.2.symm⟩] at hrow
        exact .inr ⟨List.forall_mem_cons.2 ⟨hat, hnot⟩, hrow⟩

/-- An import puts final and live rows of the outputs it is given, and leaves all others as they
are. -/
lemma Loads.row?_finished (h : Loads (start index) outputs last) (status : Status)
    (kind : OutputKind) (id : OutputId) :
    (∃ output ∈ outputs, output.IsAt kind id ∧ ∃ record,
        (last.finished status).row? kind id = some record ∧ record.about.committed = true ∧
          record.about.deletedAtSlot = 0) ∨
      (∀ output ∈ outputs, ¬output.IsAt kind id) ∧
        (last.finished status).row? kind id = index.store.row? kind id := by
  have hfinished : (last.finished status).row? kind id = last.writer.store.row? kind id :=
    last.writer.store.row?_buildIndexes kind id
  have hstart : (start index).writer.store.row? kind id = index.store.row? kind id :=
    index.store.row?_dropIndexes kind id
  rw [hfinished, ← hstart]
  rcases h.row?_eq kind id with ⟨output, houtput, hat, record, hrecord, hrow⟩ | hkept
  · have habout := OutputRecord.about_of_ok hrecord
    exact .inl ⟨output, houtput, hat, record, hrow, by rw [habout]; rfl, by rw [habout]; rfl⟩
  · exact .inr hkept

end Import

namespace Index

variable {index next : Index} {bridge : Bridge} {status : Status} {outputs : List LedgerOutput}

/-! ## The ways of a bootstrap -/

/-- How a bootstrap succeeds. -/
inductive Bootstraps (bridge : Bridge) (index : Index) (status : Status) (next : Index) :
    Prop where
  | imported (hstatus : index.store.status = none)
      (himport : (importSnapshot bridge).run.run index = (.ok status, next))
  | reimported {stored : Status} {node : NodeInfo} (hstatus : index.store.status = some stored)
      (hnode : bridge.nodeInfo = .ok node) (hreset : (stored.resetReason? node).isSome = true)
      (himport : (importSnapshot bridge).run.run (clear.run.run index).2 = (.ok status, next))
  | resumed {stored : Status} {node : NodeInfo} (hstatus : index.store.status = some stored)
      (hnode : bridge.nodeInfo = .ok node) (hagrees : stored.resetReason? node = none)
      (hsucceeds : index.succeeds .rollback = true) (hnext : next = index.after .rollback)
      (hstored : next.store.status = some status)

lemma run_bootstrap (bridge : Bridge) (index : Index) :
    (bootstrap bridge).run.run index =
      match bridge.nodeInfo with
      | .error cause => (.error cause, index)
      | .ok node =>
        match index.store.status with
        | none => (importSnapshot bridge).run.run index
        | some stored =>
          if (stored.resetReason? node).isSome then
            (importSnapshot bridge).run.run (clear.run.run index).2
          else
            (do toBridge removeUncommittedChanges
                toBridge Index.status : BridgeM Status).run.run index := by
  rw [bootstrap]
  cases bridge.nodeInfo with
  | error cause => exact run_bind_of_error (run_lift (.error cause) index)
  | ok node =>
    have hget : (get : BridgeM Index).run.run index = (.ok index, index) := rfl
    rw [run_bind_of_ok (run_lift (.ok node) index), run_bind_of_ok hget]
    cases index.store.status with
    | none => rfl
    | some stored =>
      dsimp only
      split
      · exact run_bind_of_ok (run_toBridge clear index)
      · rfl

lemma bootstraps_of_run (h : (bootstrap bridge).run.run index = (.ok status, next)) :
    Bootstraps bridge index status next := by
  rw [run_bootstrap] at h
  split at h
  · cases h
  · rename_i node hnode
    split at h
    · exact .imported ‹_› h
    · rename_i stored hstatus
      split at h
      · exact .reimported hstatus hnode ‹_› h
      · rename_i hagrees
        obtain ⟨_, middle, hrollback, hread⟩ := run_bind_eq_ok_iff.1 h
        rw [run_toBridge_eq_ok_iff] at hrollback hread
        have hrun : Operation.rollback.run.run.run index = (.ok (), middle) := hrollback
        obtain ⟨hsucceeds, hafter⟩ := run_eq_ok_iff.1 hrun
        rw [run_status] at hread
        split at hread <;> cases hread
        exact .resumed hstatus hnode (Option.not_isSome_iff_eq_none.1 hagrees) hsucceeds hafter ‹_›

/-! ## What one handle does with a bridge -/

/-- What is done keeps to what one handle can come to. -/
def Stays {α : Type} (body : BridgeM α) : Prop :=
  ∀ index, Reachable index → Reachable (body.run.run index).2

section Stays

variable {α β : Type} {body : BridgeM α} {f : α → BridgeM β}

lemma Stays.bind (h : Stays body) (hf : ∀ result, Stays (f result)) : Stays (body >>= f) := by
  intro index hreachable
  have hbody := h index hreachable
  rcases hrun : body.run.run index with ⟨cause | result, next⟩
  · rw [hrun] at hbody
    rw [run_bind_of_error hrun]
    exact hbody
  · rw [hrun] at hbody
    rw [run_bind_of_ok hrun]
    exact hf result next hbody

lemma stays_lift (value : Except BridgeError α) : Stays (liftM value : BridgeM α) :=
  fun _ h => h

lemma stays_toBridge {operation : IndexM α}
    (h : ∀ index, Reachable index → Reachable (operation.run.run index).2) :
    Stays (toBridge operation) := by
  intro index hreachable
  have hoperation := h index hreachable
  rw [run_toBridge]
  rcases hrun : operation.run.run index with ⟨_ | _, next⟩
  all_goals
    rw [hrun] at hoperation
    exact hoperation

lemma stays_status : Stays (toBridge Index.status) := by
  refine stays_toBridge fun index h => ?_
  rw [run_status]
  split <;> exact h

lemma stays_rollback : Stays (toBridge removeUncommittedChanges) :=
  stays_toBridge fun _ h => h.operation .rollback

lemma stays_importSnapshot (bridge : Bridge) : Stays (importSnapshot bridge) := by
  intro index h
  rcases hrun : (importSnapshot bridge).run.run index with ⟨cause | status, next⟩
  · rw [eq_of_run_importSnapshot_error hrun]
    exact h
  · obtain ⟨node, outputs, state, himports, hfinalize⟩ := exists_imports_of_run hrun
    obtain ⟨calls, rfl⟩ := himports.calls
    exact .load hfinalize h

lemma stays_bootstrap (bridge : Bridge) : Stays (bootstrap bridge) := by
  refine (stays_lift _).bind fun node => Stays.bind (fun _ h => h) fun index => ?_
  cases index.store.status with
  | none => exact stays_importSnapshot bridge
  | some stored =>
    dsimp only
    split
    · exact (stays_toBridge fun _ h => .clear h).bind fun _ => stays_importSnapshot bridge
    · exact stays_rollback.bind fun _ => stays_status

end Stays

end Index

/-! ## Clean stores -/

namespace Store

variable {store : Store}

/-- A query or a look-up by identity returns the identifier. -/
def Returns (store : Store) (id : OutputId) : Prop :=
  ∃ (reader next : Index) (answer : QueryResult), reader.store = store ∧
    ((∃ filter page, (Index.query filter page).run.run reader = (.ok answer, next)) ∨
      ∃ kind key, (Index.findByIdentity kind key).run.run reader = (.ok answer, next)) ∧
    id ∈ answer.outputIds

/-- All that is stored is final and live, nothing is noted as tentative or as spent, and what is
returned is final and live. -/
structure Clean (store : Store) : Prop where
  settled : store.Settled
  uncommitted : store.uncommitted = some .empty
  spent : store.spent = some .empty
  returned : ∀ id, store.Returns id → ∃ record ∈ store.rowSet, record.outputId = id ∧
    record.about.committed = true ∧ record.about.deletedAtSlot = 0

/-- The tables beside the rows and the answers follow the rows. -/
lemma Exact.clean_iff (h : store.Exact) : store.Clean ↔ store.Settled := by
  refine ⟨Clean.settled, fun hsettled => ?_⟩
  have hrows : ∀ record ∈ store.rowSet,
      record.about.committed = true ∧ record.about.deletedAtSlot = 0 := by
    intro record hrecord
    obtain ⟨kind, id, hrow⟩ := mem_allRows_iff.1 hrecord
    exact hsettled kind id record hrow
  refine ⟨hsettled, ?_, ?_, ?_⟩
  · refine h.finds.uncommitted.eq_empty ?_
    rintro place ⟨record, hrecord, htentative, -⟩
    rw [(hrows record hrecord).1] at htentative
    cases htentative
  · refine h.finds.spent.eq_empty ?_
    rintro place ⟨record, hrecord, hspent, -⟩
    exact hspent (hrows record hrecord).2
  · rintro id ⟨reader, next, answer, rfl, hanswer, hid⟩
    have hlive : ∃ record ∈ reader.store.rowSet,
        record.about.isLive = true ∧ record.outputId = id := by
      rcases hanswer with ⟨filter, page, hquery⟩ | ⟨kind, key, hfind⟩
      · exact Index.exists_live_of_mem_query h hquery hid
      · exact Index.exists_live_of_mem_findByIdentity h hfind hid
    obtain ⟨record, hrecord, -, hrecordId⟩ := hlive
    exact ⟨record, hrecord, hrecordId, hrows record hrecord⟩

end Store

/-- The bridge lists every output that has a row. -/
def Bridge.ListsRows (bridge : Bridge) (store : Store) : Prop :=
  ∀ outputs : List LedgerOutput, bridge.unspentOutputs = .ok (outputs.map .ok) →
    ∀ kind id record, store.row? kind id = some record → ∃ output ∈ outputs, output.IsAt kind id

lemma Bridge.listsRows_empty (bridge : Bridge) : bridge.ListsRows .empty := by
  intro outputs _ kind id record hrow
  rw [Store.row?_empty] at hrow
  cases hrow

namespace Index

variable {index next : Index} {bridge : Bridge} {status : Status}

lemma status_of_run_importSnapshot
    (hrun : (importSnapshot bridge).run.run index = (.ok status, next)) :
    next.store.status = some status := by
  obtain ⟨node, outputs, state, -, hfinalize⟩ := exists_imports_of_run hrun
  obtain ⟨-, rfl⟩ := Import.run_finalize_eq_ok hfinalize
  rfl

/-- Into a store without a status an import brings nothing but settled rows, but it takes nothing
out.  So the store is settled just if all that was there is listed. -/
lemma settled_importSnapshot_iff (htentative : index.store.Tentative)
    (hrun : (importSnapshot bridge).run.run index = (.ok status, next)) :
    next.store.Settled ↔ bridge.ListsRows index.store := by
  obtain ⟨node, outputs, state, himports, hfinalize⟩ := exists_imports_of_run hrun
  obtain ⟨-, rfl⟩ := Import.run_finalize_eq_ok hfinalize
  have hrows := himports.loads.row?_finished status
  constructor
  · intro hsettled listed hlisted kind id record hrow
    obtain rfl : outputs = listed := by
      have heq := Except.ok.inj (himports.snapshot.symm.trans hlisted)
      exact List.map_injective_iff.2 (fun _ _ => Except.ok.inj) heq
    rcases hrows kind id with ⟨output, houtput, hat, -⟩ | ⟨-, hkept⟩
    · exact ⟨output, houtput, hat⟩
    · -- what is not listed is still there, and still tentative
      have hfinal := (hsettled kind id record (hkept.trans hrow)).1
      rw [htentative kind id record hrow] at hfinal
      cases hfinal
  · intro hlists kind id record hrow
    rcases hrows kind id with ⟨output, -, -, row, hput, hsettled⟩ | ⟨hnot, hkept⟩
    · obtain rfl : row = record := Option.some.inj (hput.symm.trans hrow)
      exact hsettled
    · obtain ⟨output, houtput, hat⟩ :=
        hlists outputs himports.snapshot kind id record (hkept.symm.trans hrow)
      exact absurd hat (hnot output houtput)

/-- **A bootstrap that succeeds leaves a clean store just if there was a status before it, or else
the bridge lists every output that was accepted.**  The status it returns is that of the store, and
the handle knows its slot. -/
theorem clean_after_bootstrap_iff (index : Index) (hreachable : Reachable index) (bridge : Bridge)
    (status : Status) (next : Index)
    (hrun : (bootstrap bridge).run.run index = (.ok status, next)) :
    next.store.status = some status ∧ next.committedSlot = status.committedSlot ∧
      (next.store.Clean ↔ (index.store.status = none → bridge.ListsRows index.store)) := by
  have hnext : Reachable next := by
    have hstays := stays_bootstrap bridge index hreachable
    rw [hrun] at hstays
    exact hstays
  have hclean := hnext.store.exact.clean_iff
  obtain ⟨hstored, hiff⟩ : next.store.status = some status ∧
      (next.store.Settled ↔ (index.store.status = none → bridge.ListsRows index.store)) := by
    cases bootstraps_of_run hrun with
    | imported hstatus himport =>
      refine ⟨status_of_run_importSnapshot himport, ?_⟩
      rw [settled_importSnapshot_iff (hreachable.tentative hstatus) himport]
      exact ⟨fun h _ => h, fun h => h hstatus⟩
    | reimported hstatus _ _ himport =>
      have hempty : (clear.run.run index).2.store.Tentative := .empty
      have hsettled := (settled_importSnapshot_iff hempty himport).2 bridge.listsRows_empty
      refine ⟨status_of_run_importSnapshot himport, iff_of_true hsettled fun hnone => ?_⟩
      rw [hstatus] at hnone
      cases hnone
    | resumed hstatus _ _ hsucceeds hafter hstored =>
      obtain ⟨writer, hsteps, hwritten⟩ := steps_of_rollback hsucceeds
      have hready := Writer.ready_start hreachable.store.exact index.fault
      have hsettled : next.store.Settled := by
        rw [hafter, hwritten]
        exact Store.settled_of_rollback hready hsteps
      refine ⟨hstored, iff_of_true hsettled fun hnone => ?_⟩
      rw [hstatus] at hnone
      cases hnone
  refine ⟨hstored, ?_, hclean.trans hiff⟩
  rw [hnext.committedSlot_eq, hstored]
  rfl

/-- The index of the sample agrees with a node that is five slots ahead, so what it has accepted is
taken back. -/
theorem clean_after_bootstrap_sampleIndex :
    let index := sampleIndex.after (.accept sampleUpdate)
    let bridge := Bridge.ofLists (Sample.nodeInfo 10) [] []
    Reachable index ∧ ∃ next, (bootstrap bridge).run.run index = (.ok (Sample.status 5), next) ∧
      next.store.status = some (Sample.status 5) ∧ next.store.Clean := by
  intro index bridge
  have hreachable : Reachable index := .operation _ .sampleIndex
  have hresult : ((bootstrap bridge).run.run index).1 = .ok (Sample.status 5) := by decide +kernel
  rcases hrun : (bootstrap bridge).run.run index with ⟨result, next⟩
  obtain rfl : result = .ok (Sample.status 5) := by
    rw [hrun] at hresult
    exact hresult
  obtain ⟨hstored, -, hclean⟩ :=
    clean_after_bootstrap_iff index hreachable bridge (Sample.status 5) next hrun
  refine ⟨hreachable, next, rfl, hstored, hclean.2 fun hnone => ?_⟩
  have hsome : index.store.status = some (Sample.status 5) := by decide +kernel
  rw [hsome] at hnone
  cases hnone

/-- An output that is accepted into an empty store is still there after a bootstrap with a node that
has no outputs: it is tentative, and queries return it. -/
theorem not_clean_after_bootstrap_sampleCreated :
    let index := (attach .empty .none).after (.accept ⟨6, [], [sampleCreated]⟩)
    let bridge := Bridge.ofLists (Sample.nodeInfo 10) [] []
    let next := ((bootstrap bridge).run.run index).2
    Reachable index ∧ (bootstrap bridge).run.run index = (.ok (Sample.status 10), next) ∧
      (∃ record, next.store.row? .basic sampleCreated.outputId = some record ∧
        record.about.committed = false) ∧
      next.store.Returns sampleCreated.outputId ∧ ¬next.store.Clean := by
  intro index bridge next
  have hreachable : Reachable index := .operation _ (.attach .none)
  have hexact : next.store.Exact := (stays_bootstrap bridge index hreachable).store.exact
  have hresult : ((bootstrap bridge).run.run index).1 = .ok (Sample.status 10) := by decide +kernel
  have hrun : (bootstrap bridge).run.run index = (.ok (Sample.status 10), next) :=
    Prod.ext hresult (Eq.refl next)
  obtain ⟨hfault, record, hrow, htentative, hadmits⟩ : next.fault ≠ .lookups ∧ ∃ record,
      next.store.row? .basic sampleCreated.outputId = some record ∧
        record.about.committed = false ∧ (Filter.basic {}).admits record = true := by
    decide +kernel
  obtain ⟨answer, hquery, hid⟩ := Filter.exists_run_query_of_admits hexact hfault hrow hadmits
  refine ⟨hreachable, hrun, ⟨record, hrow, htentative⟩,
    ⟨next, next, answer, rfl, .inl ⟨_, _, hquery⟩, hid⟩, fun hclean => ?_⟩
  have hfinal := (hclean.settled _ _ _ hrow).1
  rw [htentative] at hfinal
  cases hfinal

end Index

end OutputIndex
