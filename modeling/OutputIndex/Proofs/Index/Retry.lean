import OutputIndex.Proofs.Index.Bootstrap
import OutputIndex.Proofs.Index.Shared

/-!
# Bootstraps that are tried again

A bootstrap is several writes, and any of them may fail.  What one that fails can have done by then
is to empty the store, and it does so only where the status does not agree with the node
(`Index.eq_of_run_bootstrap_error`).  So after any number of attempts that fail, through any
handles, the store and the handles are as they were, or the store is empty where a bootstrap would
have emptied it anyway (`SharedStore.Leaves`).

The import of a snapshot looks at the store, not at what the handle knows, and if it succeeds the
handle knows the slot that is stored (`Index.run_importSnapshot_committedSlot`).  So a bootstrap
that is tried again comes to the same as if it had been the first one
(`SharedStore.bootstrap_again_iff`).
-/

namespace OutputIndex

/-! ## A bootstrap that fails -/

namespace Bridge

variable {bridge : Bridge} {fault : Fault} {node : NodeInfo}

/-- With faults a bridge tells nothing else about the node. -/
lemma nodeInfo_of_withFault (h : (bridge.withFault fault).nodeInfo = .ok node) :
    bridge.nodeInfo = .ok node := by
  rw [withFault] at h
  dsimp only at h
  split at h
  · cases h
  · exact h

end Bridge

namespace Index

variable {index next : Index} {bridge : Bridge} {status : Status} {cause : BridgeError}

/-- The bridge gives a reason to empty the store. -/
def Resets (bridge : Bridge) (store : Store) : Prop :=
  ∃ stored node, store.status = some stored ∧ bridge.nodeInfo = .ok node ∧
    (stored.resetReason? node).isSome = true

lemma Resets.of_withFault {store : Store} {fault : Fault}
    (h : Resets (bridge.withFault fault) store) : Resets bridge store := by
  obtain ⟨stored, node, hstored, hnode, hreset⟩ := h
  exact ⟨stored, node, hstored, Bridge.nodeInfo_of_withFault hnode, hreset⟩

lemma not_resets_empty : ¬Resets bridge .empty := by
  rintro ⟨stored, node, hstored, -⟩
  cases hstored

/-- What is to take back everything tentative fails as a whole. -/
lemma eq_of_run_resume_error {stored : Status} (hstatus : index.store.status = some stored)
    (h : (do toBridge removeUncommittedChanges
             toBridge Index.status : BridgeM Status).run.run index = (.error cause, next)) :
    next = index := by
  have hrun := run_toBridge removeUncommittedChanges index
  rcases hrollback : removeUncommittedChanges.run.run index with ⟨cause' | ⟨⟩, middle⟩
  · rw [hrollback] at hrun
    rw [run_bind_of_error hrun] at h
    obtain rfl : middle = next := congrArg Prod.snd h
    exact eq_of_run_transact_error hrollback
  · -- the status is still there, so it can be read
    rw [hrollback] at hrun
    rw [run_bind_of_ok hrun] at h
    have hrollback' : Operation.rollback.run.run.run index = (.ok (), middle) := hrollback
    obtain ⟨hsucceeds, rfl⟩ := run_eq_ok_iff.1 hrollback'
    have hkept : (index.after .rollback).store.status = some stored :=
      (status_after hsucceeds).trans hstatus
    rw [run_toBridge, run_status, hkept] at h
    cases h

/-- A bootstrap that fails changes nothing, or it empties a store that does not agree with the
node. -/
lemma eq_of_run_bootstrap_error (h : (bootstrap bridge).run.run index = (.error cause, next)) :
    next = index ∨ Resets bridge index.store ∧ next = (clear.run.run index).2 := by
  rw [run_bootstrap] at h
  split at h
  · exact .inl (congrArg Prod.snd h).symm
  · rename_i node hnode
    split at h
    · exact .inl (eq_of_run_importSnapshot_error h)
    · rename_i stored hstatus
      split at h
      · rename_i hreset
        exact .inr ⟨⟨stored, node, hstatus, hnode, hreset⟩, eq_of_run_importSnapshot_error h⟩
      · exact .inl (eq_of_run_resume_error hstatus h)

/-! ## Imports look at the store only -/

lemma run_finalize_committedSlot {state : Import} {ledgerSlot slot : Slot}
    {protocolVersion : UInt8} {networkName : String} :
    (state.finalize ledgerSlot protocolVersion networkName).run.run
        { index with committedSlot := slot } = (.ok status, next) ↔
      (state.finalize ledgerSlot protocolVersion networkName).run.run index =
        (.ok status, next) := by
  unfold Import.finalize
  dsimp only
  split
  · exact iff_of_false nofun nofun
  · exact Iff.rfl

/-- Whether a snapshot can be imported, and what comes of it, does not depend on what the handle
knows. -/
lemma run_importSnapshot_committedSlot (index : Index) (slot : Slot) :
    (importSnapshot bridge).run.run { index with committedSlot := slot } = (.ok status, next) ↔
      (importSnapshot bridge).run.run index = (.ok status, next) := by
  rw [run_importSnapshot, run_importSnapshot]
  have hstart : Import.start { index with committedSlot := slot } = .start index := rfl
  rw [hstart]
  split
  · exact iff_of_false nofun nofun
  · split
    · exact iff_of_false nofun nofun
    · split
      · exact iff_of_false nofun nofun
      · rw [run_toBridge_eq_ok_iff, run_toBridge_eq_ok_iff, run_finalize_committedSlot]

/-- Where a bootstrap empties the store, it may as well be empty before. -/
lemma run_bootstrap_of_resets (index : Index) (h : Resets bridge index.store) (slot : Slot) :
    (bootstrap bridge).run.run ⟨.empty, slot, index.fault⟩ = (.ok status, next) ↔
      (bootstrap bridge).run.run index = (.ok status, next) := by
  obtain ⟨stored, node, hstored, hnode, hreset⟩ := h
  have hempty : Store.empty.status = none := rfl
  rw [run_bootstrap, run_bootstrap, hnode]
  dsimp only
  rw [hempty, hstored]
  dsimp only
  rw [if_pos hreset]
  exact run_importSnapshot_committedSlot (clear.run.run index).2 slot

end Index

/-! ## Attempts -/

namespace SharedStore

/-- A bootstrap through a handle of a shared store, with faults of its own. -/
structure Attempt where
  /-- The number of the handle. -/
  position : ℕ
  /-- What is made to fail in the store. -/
  fault : Fault
  /-- What is made to fail in the bridge. -/
  bridgeFault : Fault
deriving DecidableEq

/-- What an attempt answers, and what it makes of the store as the handle sees it. -/
def Attempt.run (attempt : Attempt) (bridge : Bridge) (shared : SharedStore) (handle : Handle) :
    Except BridgeError Status × Index :=
  (Index.bootstrap (bridge.withFault attempt.bridgeFault)).run.run
    (shared.view { handle with fault := attempt.fault })

/-- The shared store after an attempt. -/
def afterAttempt (shared : SharedStore) (bridge : Bridge) (attempt : Attempt) (handle : Handle) :
    SharedStore :=
  let index := (attempt.run bridge shared handle).2
  { shared with
    store := index.store
    handles := shared.handles.set attempt.position
      { handle with committedSlot := index.committedSlot } }

/-- Some attempts fail, one after another. -/
inductive Fails (bridge : Bridge) : SharedStore → List Attempt → SharedStore → Prop where
  | nil (shared : SharedStore) : Fails bridge shared [] shared
  | cons {shared last : SharedStore} {attempt : Attempt} {rest : List Attempt} {handle : Handle}
      {cause : BridgeError} (hhandle : shared.handles[attempt.position]? = some handle)
      (hfails : (attempt.run bridge shared handle).1 = .error cause)
      (hrest : Fails bridge (shared.afterAttempt bridge attempt handle) rest last) :
      Fails bridge shared (attempt :: rest) last

/-- What attempts that fail leave of a shared store: all of it, or an empty store where one that
does not agree with the node was.  The faults of the handles stay. -/
inductive Leaves (bridge : Bridge) (shared last : SharedStore) : Prop where
  | all (hstore : last.store = shared.store) (hhandles : last.handles = shared.handles)
  | emptied (hresets : Index.Resets bridge shared.store) (hstore : last.store = .empty)
      (hfaults : last.handles.map (·.fault) = shared.handles.map (·.fault))

variable {bridge : Bridge} {shared middle last : SharedStore} {attempt : Attempt}
  {attempts : List Attempt} {handle : Handle} {cause : BridgeError} {position : ℕ}

lemma set_handle_eq_self (hhandle : shared.handles[position]? = some handle) :
    shared.handles.set position handle = shared.handles := by
  obtain ⟨hlt, rfl⟩ := List.getElem?_eq_some_iff.1 hhandle
  exact List.set_getElem_self hlt

lemma leaves_of_fails (hhandle : shared.handles[attempt.position]? = some handle)
    (hfails : (attempt.run bridge shared handle).1 = .error cause) :
    Leaves bridge shared (shared.afterAttempt bridge attempt handle) := by
  have hrun : (Index.bootstrap (bridge.withFault attempt.bridgeFault)).run.run
      (shared.view { handle with fault := attempt.fault }) =
        (.error cause, (attempt.run bridge shared handle).2) := Prod.ext hfails rfl
  rcases Index.eq_of_run_bootstrap_error hrun with hsame | ⟨hresets, hempty⟩
  · refine .all (by rw [afterAttempt, hsame]; rfl) ?_
    rw [afterAttempt, hsame]
    exact set_handle_eq_self hhandle
  · refine .emptied hresets.of_withFault (by rw [afterAttempt, hempty]; rfl) ?_
    -- what the handle knows is forgotten, its fault is not
    have hfault : (shared.handles.set attempt.position handle).map (·.fault) =
        shared.handles.map (·.fault) := by rw [set_handle_eq_self hhandle]
    rw [List.map_set] at hfault
    rw [afterAttempt, List.map_set]
    exact hfault

lemma Leaves.trans (h : Leaves bridge shared middle) (h' : Leaves bridge middle last) :
    Leaves bridge shared last := by
  cases h' with
  | all hstore hhandles =>
    cases h with
    | all hstore' hhandles' => exact .all (hstore.trans hstore') (hhandles.trans hhandles')
    | emptied hresets hstore' hfaults =>
      exact .emptied hresets (hstore.trans hstore') (by rw [hhandles, hfaults])
  | emptied hresets hstore hfaults =>
    cases h with
    | all hstore' hhandles' =>
      rw [hstore'] at hresets
      rw [hhandles'] at hfaults
      exact .emptied hresets hstore hfaults
    | emptied _ hstore' _ =>
      -- there is nothing left to disagree with the node
      rw [hstore'] at hresets
      exact absurd hresets Index.not_resets_empty

lemma Fails.leaves (h : Fails bridge shared attempts last) : Leaves bridge shared last := by
  induction h with
  | nil => exact .all rfl rfl
  | cons hhandle hfails _ ih => exact (leaves_of_fails hhandle hfails).trans ih

/-- Through any handle a bootstrap comes to the same before and after. -/
lemma Leaves.bootstrap_iff (h : Leaves bridge shared last)
    (hhandle : shared.handles[position]? = some handle) :
    ∃ handle', last.handles[position]? = some handle' ∧ ∀ status next,
      (Index.bootstrap bridge).run.run (last.view handle') = (.ok status, next) ↔
        (Index.bootstrap bridge).run.run (shared.view handle) = (.ok status, next) := by
  cases h with
  | all hstore hhandles =>
    refine ⟨handle, by rw [hhandles, hhandle], fun status next => ?_⟩
    rw [view, view, hstore]
  | emptied hresets hstore hfaults =>
    have hfault := congrArg (·[position]?) hfaults
    simp only [List.getElem?_map, hhandle, Option.map_some, Option.map_eq_some_iff] at hfault
    obtain ⟨handle', hhandle', hfault⟩ := hfault
    refine ⟨handle', hhandle', fun status next => ?_⟩
    have hview : last.view handle' = ⟨.empty, handle'.committedSlot, handle.fault⟩ := by
      rw [view, hstore, hfault]
    rw [hview]
    exact Index.run_bootstrap_of_resets (shared.view handle) hresets _

/-- Through a handle that is opened for it a bootstrap comes to the same as well. -/
lemma Leaves.bootstrap_attach_iff (h : Leaves bridge shared last) {fault : Fault} {status : Status}
    {next : Index} :
    (Index.bootstrap bridge).run.run (.attach last.store fault) = (.ok status, next) ↔
      (Index.bootstrap bridge).run.run (.attach shared.store fault) = (.ok status, next) := by
  cases h with
  | all hstore => rw [hstore]
  | emptied hresets hstore =>
    rw [hstore]
    exact Index.run_bootstrap_of_resets (.attach shared.store fault) hresets 0

/-- **A bootstrap can be tried again.**  After any number of attempts that fail, through any handles
and with any faults, one more that fails leaves the store as it is or empty; and a bootstrap through
a handle that was there, or that is opened for it, succeeds just if it would have succeeded in the
first place, with the same status, the same tables and the same slot that the handle knows. -/
theorem bootstrap_again_iff (bridge : Bridge) (shared last : SharedStore) (attempts : List Attempt)
    (hfails : Fails bridge shared attempts last) :
    (∀ (attempt : Attempt) (handle : Handle) (cause : BridgeError),
      last.handles[attempt.position]? = some handle →
      (attempt.run bridge last handle).1 = .error cause →
      (last.afterAttempt bridge attempt handle).store = last.store ∨
        (last.afterAttempt bridge attempt handle).store = .empty) ∧
      (∀ (position : ℕ) (handle : Handle), shared.handles[position]? = some handle →
        ∃ handle', last.handles[position]? = some handle' ∧
          ∀ (status : Status) (next : Index),
            (Index.bootstrap bridge).run.run (last.view handle') = (.ok status, next) ↔
              (Index.bootstrap bridge).run.run (shared.view handle) = (.ok status, next)) ∧
      ∀ (fault : Fault) (status : Status) (next : Index),
        (Index.bootstrap bridge).run.run (.attach last.store fault) = (.ok status, next) ↔
          (Index.bootstrap bridge).run.run (.attach shared.store fault) = (.ok status, next) := by
  refine ⟨?_, ?_, fun fault status next => hfails.leaves.bootstrap_attach_iff⟩
  · intro attempt handle cause hhandle hfails
    cases leaves_of_fails hhandle hfails with
    | all hstore => exact .inl hstore
    | emptied _ hstore => exact .inr hstore
  · exact fun position handle hhandle => hfails.leaves.bootstrap_iff hhandle

/-- The store of the sample with two handles. -/
def sampleShared : SharedStore := ⟨Index.sampleIndex.store, [⟨5, .none⟩, ⟨5, .none⟩], [], []⟩

/-- The node has gone over to another version of the protocol, and has one output. -/
def sampleBridge : Bridge :=
  .ofLists { Sample.nodeInfo 10 with protocolVersion := 4 } [Index.sampleCreated] []

/-- The store is emptied through one handle, and then two more attempts fail through the other. -/
def sampleAttempts : List Attempt :=
  [⟨1, .writer .commit, .none⟩, ⟨0, .none, .snapshot⟩, ⟨0, .none, .nodeInfo⟩]

theorem bootstrap_again_sample :
    ∃ last next, Fails sampleBridge sampleShared sampleAttempts last ∧ last.store = .empty ∧
      last.handles = [⟨5, .none⟩, ⟨0, .none⟩] ∧
      (Index.bootstrap sampleBridge).run.run (last.view ⟨5, .none⟩) =
        (.ok { Sample.status 10 with protocolVersion := 4 }, next) ∧
      (Index.bootstrap sampleBridge).run.run (sampleShared.view ⟨5, .none⟩) =
        (.ok { Sample.status 10 with protocolVersion := 4 }, next) := by
  let first := sampleShared.afterAttempt sampleBridge ⟨1, .writer .commit, .none⟩ ⟨5, .none⟩
  let second := first.afterAttempt sampleBridge ⟨0, .none, .snapshot⟩ ⟨5, .none⟩
  let last := second.afterAttempt sampleBridge ⟨0, .none, .nodeInfo⟩ ⟨5, .none⟩
  have hcommit : (Attempt.run ⟨1, .writer .commit, .none⟩ sampleBridge sampleShared
      ⟨5, .none⟩).1 = .error (.index (.storage (.injected (.writer .commit)))) := by
    decide +kernel
  have hsnapshot : (Attempt.run ⟨0, .none, .snapshot⟩ sampleBridge first ⟨5, .none⟩).1 =
      .error (.io (.injected .snapshot)) := by
    decide +kernel
  have hnodeInfo : (Attempt.run ⟨0, .none, .nodeInfo⟩ sampleBridge second ⟨5, .none⟩).1 =
      .error (.io (.injected .nodeInfo)) := by
    decide +kernel
  have hfails : Fails sampleBridge sampleShared sampleAttempts last :=
    .cons rfl hcommit (.cons rfl hsnapshot (.cons rfl hnodeInfo (.nil last)))
  obtain ⟨hstatus, hstatus', hhandles, hresult⟩ : last.store.status = none ∧
      sampleShared.store.status ≠ none ∧ last.handles = [⟨5, .none⟩, ⟨0, .none⟩] ∧
      ((Index.bootstrap sampleBridge).run.run (sampleShared.view ⟨5, .none⟩)).1 =
        .ok { Sample.status 10 with protocolVersion := 4 } := by
    decide +kernel
  have hempty : last.store = .empty := by
    cases hfails.leaves with
    | all hstore =>
      rw [hstore] at hstatus
      exact absurd hstatus hstatus'
    | emptied _ hstore => exact hstore
  let next := ((Index.bootstrap sampleBridge).run.run (sampleShared.view ⟨5, .none⟩)).2
  have hrun : (Index.bootstrap sampleBridge).run.run (sampleShared.view ⟨5, .none⟩) =
      (.ok { Sample.status 10 with protocolVersion := 4 }, next) := Prod.ext hresult rfl
  obtain ⟨-, hagain, -⟩ :=
    bootstrap_again_iff sampleBridge sampleShared last sampleAttempts hfails
  obtain ⟨handle, hhandle, hiff⟩ := hagain 0 ⟨5, .none⟩ rfl
  obtain rfl : (⟨5, .none⟩ : Handle) = handle := by
    rw [hhandles] at hhandle
    exact Option.some.inj hhandle
  exact ⟨last, next, hfails, hempty, hhandles, (hiff _ next).2 hrun, hrun⟩

end SharedStore

end OutputIndex
