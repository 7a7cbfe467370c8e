import OutputIndex.Program
import OutputIndex.Proofs.Bridge.Files
import OutputIndex.Proofs.Index.Settled

/-!
# Replays

A replay takes back what is tentative and follows the bridge from a start slot
(`Index.run_replay`).  What it does to the index is to apply, one by one, the events that the
follower neither skips nor fails at (`Index.applied`, `Index.run_applyAll_snd`).  None of these is
behind the slot that the handle knows of, wherever the replay starts, but a commit of that very
slot goes through (`Index.ahead_of_mem_applied`).

By default a replay starts at the slot after the committed one, so that no slot is committed a
second time.  This slot is worked out in any case, also if another one is asked for, and the last
slot has none after it: the replay then panics, when it has taken back what is tentative and before
it applies anything.  So a replay applies later events only, and applies any at all, just if the
committed slot is not the last one (`Index.replay_applies_later_iff`).
-/

namespace OutputIndex

namespace Index

variable {index next : Index} {event : LedgerEvent} {status : Status} {bridge : Bridge}
  {stream : List (Except BridgeError LedgerEvent)}

/-! ## What a follower applies -/

/-- The events of a stream that a follower applies with success, up to the first failure. -/
def applied (index : Index) : List (Except BridgeError LedgerEvent) → List LedgerEvent
  | [] | .error _ :: _ => []
  | .ok event :: rest =>
    match (applyUnlessStale event).run.run index with
    | (.ok true, next) => event :: applied next rest
    | (.ok false, next) => applied next rest
    | (.error _, _) => []

/-- The events that a follower applies with success, of those a bridge gives from a slot on. -/
def followed (index : Index) (bridge : Bridge) (start : Slot) : List LedgerEvent :=
  match bridge.ledgerUpdates start with
  | .error _ => []
  | .ok stream => index.applied stream

/-- The steps of a follower: an event is applied with success, it is stale, or it fails. -/
lemma run_applyUnlessStale_cases (event : LedgerEvent) (index : Index) :
    (index.succeeds event.operation = true ∧
        (applyUnlessStale event).run.run index = (.ok true, index.after event.operation)) ∨
      (index.Stale event ∧ (applyUnlessStale event).run.run index = (.ok false, index)) ∨
      ∃ cause, (applyUnlessStale event).run.run index = (.error cause, index) := by
  rcases hrun : (applyUnlessStale event).run.run index with ⟨cause | applied, next⟩
  · refine .inr (.inr ⟨cause, ?_⟩)
    rw [run_applyUnlessStale] at hrun
    split at hrun
    · cases hrun
    · cases hrun
    · rename_i hoperation
      cases hrun
      rw [eq_of_run_error hoperation]
  · rcases run_applyUnlessStale_eq_ok_iff.1 hrun with
      ⟨rfl, hsucceeds, rfl⟩ | ⟨rfl, hstale, rfl⟩
    · exact .inl ⟨hsucceeds, rfl⟩
    · exact .inr (.inl ⟨hstale, rfl⟩)

/-- Counting changes nothing. -/
lemma run_add_snd (body : BridgeM ℕ) (number : ℕ) (index : Index) :
    ((do return (← body) + number : BridgeM ℕ).run.run index).2 = (body.run.run index).2 := by
  rcases hrun : body.run.run index with ⟨cause | count, next⟩
  · rw [run_bind_of_error hrun]
  · rw [run_bind_of_ok hrun]
    rfl

/-- All that a follower does is to apply these events, whether it comes to the end of the stream or
not. -/
lemma run_applyAll_snd (stream : List (Except BridgeError LedgerEvent)) (index : Index) :
    ((applyAll stream).run.run index).2 =
      ((index.applied stream).map LedgerEvent.operation).foldl after index := by
  induction stream generalizing index with
  | nil => rfl
  | cons first rest ih =>
    cases first with
    | error cause => rfl
    | ok event =>
      rw [applyAll_ok_cons]
      rcases run_applyUnlessStale_cases event index with
        ⟨-, hrun⟩ | ⟨-, hrun⟩ | ⟨cause, hrun⟩
      · rw [run_bind_of_ok hrun, applied, hrun]
        exact (run_add_snd _ _ _).trans (ih _)
      · rw [run_bind_of_ok hrun, applied, hrun]
        exact (run_add_snd _ _ _).trans (ih _)
      · rw [run_bind_of_error hrun, applied, hrun]
        rfl

lemma successes_applied (stream : List (Except BridgeError LedgerEvent)) (index : Index) :
    index.successes ((index.applied stream).map LedgerEvent.operation) =
      (index.applied stream).map LedgerEvent.operation := by
  induction stream generalizing index with
  | nil => rfl
  | cons first rest ih =>
    cases first with
    | error cause => rfl
    | ok event =>
      rcases run_applyUnlessStale_cases event index with
        ⟨hsucceeds, hrun⟩ | ⟨-, hrun⟩ | ⟨cause, hrun⟩
      · rw [applied, hrun]
        exact successes_cons_eq_self_iff.2 ⟨hsucceeds, ih _⟩
      · rw [applied, hrun]
        exact ih _
      · rw [applied, hrun]
        rfl

lemma ok_mem_of_mem_applied (h : event ∈ index.applied stream) : .ok event ∈ stream := by
  induction stream generalizing index with
  | nil => cases h
  | cons first rest ih =>
    cases first with
    | error cause => cases h
    | ok other =>
      rw [applied] at h
      split at h
      · rcases List.mem_cons.1 h with rfl | h
        · exact List.mem_cons_self
        · exact List.mem_cons_of_mem _ (ih h)
      · exact List.mem_cons_of_mem _ (ih h)
      · cases h

/-- An event that is applied is not behind the slot that the handle knows of, and if it is of that
slot itself it is a commit. -/
lemma ahead_of_succeeds (h : index.succeeds event.operation = true) :
    index.committedSlot < event.slot ∨
      ∃ update, event = .committed update ∧ update.slot = index.committedSlot := by
  cases event with
  | accepted update =>
    obtain ⟨hahead, -⟩ := steps_of_accept h
    exact .inl hahead
  | committed update =>
    obtain ⟨status, writer, hcommits, -⟩ := commits_of_succeeds h
    rcases UInt32.lt_or_eq_of_le hcommits.known with hlt | heq
    · exact .inl hlt
    · exact .inr ⟨update, rfl, heq.symm⟩

/-- The handle never forgets a slot. -/
lemma committedSlot_le_after (h : index.succeeds event.operation = true) :
    index.committedSlot ≤ (index.after event.operation).committedSlot := by
  cases event with
  | accepted update => exact UInt32.le_of_eq (handle_after h).2.symm
  | committed update =>
    obtain ⟨status, writer, hcommits, -⟩ := commits_of_succeeds h
    exact (committedSlot_after_commit h).symm ▸ hcommits.known

/-- As the handle never forgets, no event of a whole stream is behind where the handle started. -/
lemma ahead_of_mem_applied (h : event ∈ index.applied stream) :
    index.committedSlot < event.slot ∨
      ∃ update, event = .committed update ∧ update.slot = index.committedSlot := by
  induction stream generalizing index with
  | nil => cases h
  | cons first rest ih =>
    cases first with
    | error cause => cases h
    | ok other =>
      rcases run_applyUnlessStale_cases other index with
        ⟨hsucceeds, hrun⟩ | ⟨-, hrun⟩ | ⟨cause, hrun⟩
      · rw [applied, hrun] at h
        rcases List.mem_cons.1 h with rfl | h
        · exact ahead_of_succeeds hsucceeds
        · have hle := committedSlot_le_after hsucceeds
          rcases ih h with hlt | ⟨update, rfl, heq⟩
          · exact .inl (UInt32.lt_of_le_of_lt hle hlt)
          · rw [← heq] at hle
            exact (UInt32.lt_or_eq_of_le hle).imp id fun hsame => ⟨update, rfl, hsame.symm⟩
      · rw [applied, hrun] at h
        exact ih h
      · rw [applied, hrun] at h
        cases h

lemma ahead_of_mem_followed {start : Slot} (h : event ∈ index.followed bridge start) :
    index.committedSlot < event.slot ∨
      ∃ update, event = .committed update ∧ update.slot = index.committedSlot := by
  rw [followed] at h
  split at h
  · cases h
  · exact ahead_of_mem_applied h

/-! ## Replays -/

/-- A rollback succeeds unless its write is made to fail at its end. -/
lemma succeeds_rollback (hfault : index.fault ≠ .writer .commit) :
    index.succeeds .rollback = true := by
  obtain ⟨writer, hbody⟩ : ∃ writer,
      rollbackWrite.run (.start index.store index.fault) = .ok ((), writer) :=
    ⟨_, (WriteM.run_bind_of_ok (WriteM.run_removeUncommitted _ _)).trans rfl⟩
  have hsame : writer.fault = index.fault := by
    rw [rollbackWrite_eq] at hbody
    exact (Steps.of_run hbody).sameFrame.fault
  have hrun : Operation.rollback.run.run.run index =
      (.ok (), { index with store := writer.store }) :=
    run_transact_eq_ok_iff.2 ⟨writer, hbody, hsame ▸ hfault, rfl⟩
  exact (run_eq_ok_iff.1 hrun).1

/-- A replay is a rollback and then what a follower does, if there is a slot after the committed
one. -/
lemma run_replay (hstatus : index.store.status = some status)
    (hsucceeds : index.succeeds .rollback = true) (bridge : Bridge) (start : Option Slot) :
    (replay bridge start).run.run index =
      match replayStart status with
      | .error cause => (.error cause, index.after .rollback)
      | .ok slot =>
        ((follow bridge (start.getD slot)).adapt ReplayError.bridge).run.run
          (index.after .rollback) := by
  have hread : ((toBridge Index.status).adapt ReplayError.bridge).run.run index =
      (.ok status, index) := by
    rw [run_adapt_eq_ok_iff, run_toBridge, run_status, hstatus]
  have hrollback : ((toBridge removeUncommittedChanges).adapt ReplayError.bridge).run.run index =
      (.ok (), index.after .rollback) :=
    run_adapt_eq_ok_iff.2 (run_toBridge_eq_ok_iff.2 (succeeds_iff.1 hsucceeds))
  rw [replay, run_bind_of_ok hread, run_bind_of_ok hrollback]
  cases replayStart status with
  | error cause => exact run_bind_of_error (run_lift (.error cause) _)
  | ok slot => exact run_bind_of_ok (run_lift (.ok slot) _)

/-- The command does a replay, and panics or fails if that does. -/
lemma run_perform_replay (settings : Settings) (events : Option String) (bridge : Bridge)
    (start : Option Slot) (index : Index) :
    (Program.perform settings bridge (.replay events start)).run index =
      match (replay bridge start).run.run index with
      | (.ok _, next) => (.done, next)
      | (.error (.bridge _), next) => (.failed, next)
      | (.error .overflow, next) => (.panicked, next) := by
  simp only [Program.perform, StateT.run_bind]
  rcases (replay bridge start).run.run index with ⟨(_ | _) | count, next⟩ <;> rfl

/-- What a follower leaves is what the events that it applies leave. -/
lemma run_follow_snd (bridge : Bridge) (start : Slot) (index : Index) :
    ((follow bridge start).run.run index).2 =
      ((index.followed bridge start).map LedgerEvent.operation).foldl after index := by
  rw [follow, followed]
  cases bridge.ledgerUpdates start with
  | error cause => rw [run_bind_of_error (run_lift _ _)]; rfl
  | ok stream =>
    rw [run_bind_of_ok (run_lift _ _)]
    exact run_applyAll_snd stream index

/-- Of a log, only events from the start on are applied. -/
lemma le_slot_of_mem_followed {nodeInfo snapshot log : FileSource} {start : Slot}
    (h : event ∈ index.followed (.ofFiles nodeInfo snapshot log) start) : start ≤ event.slot := by
  cases log with
  | notConfigured => cases h
  | unreadable cause => cases h
  | content bytes =>
    have hmem := ok_mem_of_mem_applied h
    simpa [Bridge.isDue] using (List.mem_filter.1 hmem).2

/-- The handle of a store that is opened and rolled back is where the store is. -/
lemma opened_after_rollback {store : Store} (hstatus : store.status = some status) :
    let cleared := (attach store .none).after .rollback
    (attach store .none).succeeds .rollback = true ∧ cleared.store.status = some status ∧
      cleared.committedSlot = status.committedSlot := by
  intro cleared
  have hsucceeds : (attach store .none).succeeds .rollback = true := succeeds_rollback nofun
  obtain ⟨-, hslot⟩ := handle_after hsucceeds
  refine ⟨hsucceeds, ?_, ?_⟩
  · exact (status_after hsucceeds).trans hstatus
  · have hopened : (attach store .none).committedSlot = status.committedSlot := by
      rw [attach, hstatus]
      rfl
    exact hslot.trans hopened

/-! ## The default start -/

lemma replayStart_eq_ok_iff {slot : Slot} :
    replayStart status = .ok slot ↔ slot.toNat = status.committedSlot.toNat + 1 := by
  rw [← Slot.next?_eq_some_iff, replayStart]
  cases status.committedSlot.next? <;> simp

/-- After the last slot there is none, and after any other there is one. -/
lemma exists_replayStart_iff :
    (∃ slot, replayStart status = .ok slot) ↔ status.committedSlot ≠ Slot.last := by
  rw [replayStart, Slot.next?]
  by_cases hlast : status.committedSlot = Slot.last <;> simp [hlast]

/-- At the last slot the command takes back what is tentative and panics, wherever it should
start. -/
lemma run_perform_replay_last (hstatus : index.store.status = some status)
    (hsucceeds : index.succeeds .rollback = true) (hlast : status.committedSlot = Slot.last)
    (settings : Settings) (events : Option String) (bridge : Bridge) (start : Option Slot) :
    (Program.perform settings bridge (.replay events start)).run index =
      (.panicked, index.after .rollback) := by
  have hstart : replayStart status = .error .overflow := by
    rw [replayStart, hlast]
    rfl
  rw [run_perform_replay, run_replay hstatus hsucceeds, hstart]

/-- Before the last slot the command applies what the follower applies to the index that is rolled
back. -/
lemma run_perform_replay_next (hstatus : index.store.status = some status)
    (hsucceeds : index.succeeds .rollback = true) {slot : Slot}
    (hstart : replayStart status = .ok slot) (settings : Settings) (events : Option String)
    (bridge : Bridge) (start : Option Slot) :
    let cleared := index.after .rollback
    (Program.perform settings bridge (.replay events start)).run index =
      (if ((follow bridge (start.getD slot)).run.run cleared).1.isOk then .done else .failed,
        ((cleared.followed bridge (start.getD slot)).map LedgerEvent.operation).foldl after
          cleared) := by
  intro cleared
  rw [run_perform_replay, run_replay hstatus hsucceeds, hstart, ← run_follow_snd]
  dsimp only
  rw [run_adapt]
  rcases (follow bridge (start.getD slot)).run.run cleared with ⟨cause | count, next⟩ <;> rfl

lemma outcome_ne_panicked (succeeds : Bool) :
    (if succeeds then Outcome.done else .failed) ≠ .panicked := by
  intro h
  have hcode := congrArg Outcome.exitCode h
  cases succeeds <;> cases hcode

/-- **A replay takes back what is tentative and applies what comes after the committed slot, unless
that is the last slot.**  At the last slot the command panics, wherever it should start, and leaves
the index as it is rolled back.  Otherwise it leaves the rolled back index with the events applied
that go through, and none of them is behind the committed slot.  There is a default start, which is
the next slot, and all events that a log makes a replay from there apply are later than the
committed slot, just if that slot is not the last one. -/
theorem replay_applies_later_iff (settings : Settings) (events : Option String) (store : Store)
    (status : Status) (hstatus : store.status = some status) :
    let opened := attach store .none
    let cleared := opened.after .rollback
    let run (bridge : Bridge) (start : Option Slot) :=
      (Program.perform settings bridge (.replay events start)).run opened
    opened.succeeds .rollback = true ∧ cleared.store.status = some status ∧
    (∀ bridge start, run bridge start = (.panicked, cleared) ↔
      status.committedSlot = Slot.last) ∧
    (∀ slot, replayStart status = .ok slot → ∀ bridge start,
      let first := start.getD slot
      let applied := cleared.followed bridge first
      run bridge start =
          (if ((follow bridge first).run.run cleared).1.isOk then .done else .failed,
            (applied.map LedgerEvent.operation).foldl after cleared) ∧
        cleared.successes (applied.map LedgerEvent.operation) =
          applied.map LedgerEvent.operation ∧
        ∀ event ∈ applied, status.committedSlot < event.slot ∨
          ∃ update, event = .committed update ∧ update.slot = status.committedSlot) ∧
    ((∃ slot, replayStart status = .ok slot ∧ slot.toNat = status.committedSlot.toNat + 1 ∧
        ∀ nodeInfo snapshot log,
          ∀ event ∈ cleared.followed (.ofFiles nodeInfo snapshot log) slot,
            status.committedSlot < event.slot) ↔ status.committedSlot ≠ Slot.last) := by
  intro opened cleared run
  obtain ⟨hsucceeds, hcleared, hslot⟩ := opened_after_rollback hstatus
  have hopened : opened.store.status = some status := hstatus
  refine ⟨hsucceeds, hcleared, fun bridge start => ⟨fun hrun => ?_, fun hlast => ?_⟩,
    fun slot hstart bridge start => ⟨?_, ?_, fun event hevent => ?_⟩, ?_⟩
  · by_contra hlast
    obtain ⟨slot, hstart⟩ := exists_replayStart_iff.2 hlast
    have hnext := run_perform_replay_next hopened hsucceeds hstart settings events bridge start
    exact outcome_ne_panicked _ (congrArg Prod.fst (hnext.symm.trans hrun))
  · exact run_perform_replay_last hopened hsucceeds hlast settings events bridge start
  · exact run_perform_replay_next hopened hsucceeds hstart settings events bridge start
  · rw [followed]
    split
    · rfl
    · exact successes_applied _ _
  · rw [← hslot]
    exact ahead_of_mem_followed hevent
  · refine ⟨fun ⟨slot, hstart, _⟩ => exists_replayStart_iff.1 ⟨slot, hstart⟩, fun hlast => ?_⟩
    obtain ⟨slot, hstart⟩ := exists_replayStart_iff.2 hlast
    have hnumber := replayStart_eq_ok_iff.1 hstart
    refine ⟨slot, hstart, hnumber, fun nodeInfo snapshot log event hevent => ?_⟩
    have hle := UInt32.le_iff_toNat_le.1 (le_slot_of_mem_followed hevent)
    exact UInt32.lt_iff_toNat_lt.2 (by omega)

/-- The store of the sample has come to slot five, so a replay starts at slot six: of two commits it
applies the later one only, and whatever the log it applies later events only. -/
theorem replay_applies_later_sampleIndex :
    let opened := attach sampleIndex.store .none
    let cleared := opened.after .rollback
    let bridge := Bridge.ofLists (Sample.nodeInfo 10) []
      [.committed ⟨5, [], []⟩, .committed ⟨6, [], []⟩]
    let result := (Program.perform {} bridge (.replay none none)).run opened
    sampleIndex.store.status = some (Sample.status 5) ∧
      replayStart (Sample.status 5) = .ok 6 ∧
      result = (.done, cleared.after (.commit ⟨6, [], []⟩)) ∧
      cleared.succeeds (.commit ⟨6, [], []⟩) = true ∧ result.2.committedSlot = 6 ∧
      ∀ nodeInfo snapshot log, ∀ event ∈ cleared.followed (.ofFiles nodeInfo snapshot log) 6,
        5 < event.slot := by
  intro opened cleared bridge result
  have hstatus : sampleIndex.store.status = some (Sample.status 5) := by decide +kernel
  have hstart : replayStart (Sample.status 5) = .ok 6 := by decide
  obtain ⟨-, -, -, hruns, hlater⟩ := replay_applies_later_iff {} none sampleIndex.store
    (Sample.status 5) hstatus
  obtain ⟨slot, hslot, -, hevents⟩ := hlater.2 (by decide)
  obtain rfl : slot = 6 := Except.ok.inj (hslot.symm.trans hstart)
  obtain ⟨hrun, -, -⟩ := hruns 6 hstart bridge none
  have hok : ((follow bridge 6).run.run cleared).1.isOk = true := by decide +kernel
  have hfollowed : cleared.followed bridge 6 = [.committed ⟨6, [], []⟩] := by decide +kernel
  have hresult : result = (.done, cleared.after (.commit ⟨6, [], []⟩)) := by
    rw [show result = _ from hrun, Option.getD_none, hok, hfollowed]
    rfl
  refine ⟨hstatus, hstart, hresult, by decide +kernel, ?_, hevents⟩
  rw [hresult]
  decide +kernel

/-- An output of the last slot. -/
def sampleLate : LedgerOutput :=
  ⟨.ofParts (.replicate 32 0xcd) Slot.last 0, Json.sampleOutput, Slot.last⟩

/-- The commit of the output. -/
def sampleLateCommit : LedgerEvent := .committed ⟨Slot.last, [], [sampleLate]⟩

/-- A store into which a snapshot of the last slot was imported. -/
def sampleLastStore : Store :=
  let bridge := Bridge.ofLists (Sample.nodeInfo Slot.last) [] []
  ((importSnapshot bridge).run.run (.attach .empty .none)).2.store

/-- After an import at the last slot a replay panics with any start and with none, and a commit of
the last slot in the log is not applied. -/
theorem replay_panics_sampleLastStore :
    let opened := attach sampleLastStore .none
    let bridge := Bridge.ofFiles .notConfigured .notConfigured
      (.content sampleLateCommit.toJson.compactBytes)
    let run (start : Option Slot) := (Program.perform {} bridge (.replay none start)).run opened
    sampleLastStore.status = some (Sample.status Slot.last) ∧
      ∀ start, (run start).1.exitCode = 101 ∧
        (run start).2.store.row? .basic sampleLate.outputId = none := by
  intro opened bridge run
  have hstatus : sampleLastStore.status = some (Sample.status Slot.last) := by decide +kernel
  refine ⟨hstatus, fun start => ?_⟩
  have hrun : run start = (.panicked, opened.after .rollback) :=
    run_perform_replay_last hstatus (succeeds_rollback nofun) rfl {} none bridge start
  rw [hrun]
  refine ⟨rfl, ?_⟩
  decide +kernel

end Index

end OutputIndex
