import OutputIndex.Index.Bootstrap
import OutputIndex.Proofs.Index.Accepts

/-!
# Following a node

A follower applies events one by one and goes on past those that are skipped.  An event is skipped
just if its slot counts as committed (`Index.Stale`): no part of a write fails as one that is
skipped does.  So a follower that comes to the end has applied some of the events with success, and
those it has not applied were stale when their turn came (`Index.run_follow_eq_ok_iff`).

After its last commit a run only accepts updates (`Index.AcceptsOnly`), and so does all of a run
without a commit (`Index.Follows.acceptsOnly_or_commits`).
-/

namespace OutputIndex

/-- The operation that applies an event. -/
def LedgerEvent.operation : LedgerEvent → Operation
  | .accepted update => .accept update
  | .committed update => .commit update

/-- The update that an event accepts. -/
def LedgerEvent.accepted? (event : LedgerEvent) : Option LedgerUpdate := event.operation.accepted?

/-- The update that an event commits. -/
def LedgerEvent.committed? (event : LedgerEvent) : Option LedgerUpdate :=
  event.operation.committed?

/-! ## Parts do not skip -/

lemma WriteM.run_writeOutput_ne_skipped {record : OutputRecord} {writer : Writer}
    {slot committedSlot : Slot} :
    (writeOutput record).run writer ≠ .error (.updateSkipped slot committedSlot) := by
  intro h
  rw [run_writeOutput] at h
  split at h <;> cases h

/-- A part that fails does not fail as an update that is skipped. -/
lemma Part.run_ne_skipped (part : Part) (writer : Writer) (slot committedSlot : Slot) :
    part.run.run writer ≠ .error (.updateSkipped slot committedSlot) := by
  intro h
  cases part with
  | settle s =>
    rw [run, WriteM.run_removeUncommitted] at h
    cases h
  | mark spent =>
    rw [run, WriteM.run_markSpent] at h
    split at h
    · split at h
      · exact WriteM.run_writeOutput_ne_skipped h
      · cases h
    · split at h
      · cases h
      · split at h <;> cases h
  | remove spent =>
    rw [run, WriteM.run_removeSpent] at h
    split at h <;> cases h
  | propose output | finalize output =>
    rw [run, WriteM.run_insertOutput] at h
    split at h
    · split at h
      · exact WriteM.run_writeOutput_ne_skipped h
      · cases h
    · split at h
      · cases h
      · split at h <;> cases h
  | purge => cases h

lemma Part.run_forM_ne_skipped (parts : List Part) (writer : Writer) (slot committedSlot : Slot) :
    (parts.forM run).run writer ≠ .error (.updateSkipped slot committedSlot) := by
  induction parts generalizing writer with
  | nil => exact nofun
  | cons part rest ih =>
    intro h
    have hforM : ((part :: rest).forM run).run writer =
        (do part.run; rest.forM run : WriteM Unit).run writer := rfl
    rw [hforM] at h
    cases hpart : part.run.run writer with
    | error cause =>
      rw [WriteM.run_bind_of_error hpart] at h
      cases h
      exact part.run_ne_skipped writer slot committedSlot hpart
    | ok result =>
      rw [WriteM.run_bind_of_ok hpart] at h
      exact ih result.2 h

namespace Index

variable {index next last middle : Index} {event : LedgerEvent} {events : List LedgerEvent}
  {update : LedgerUpdate} {slot committedSlot : Slot}

/-! ## Stale events -/

/-- The slot of the event counts as committed: to the handle, or, for a commit, in the store. -/
def Stale (index : Index) : LedgerEvent → Prop
  | .accepted update => update.slot ≤ index.committedSlot
  | .committed update => update.slot < index.committedSlot ∨
      ∃ status, index.store.status = some status ∧ update.slot < status.committedSlot

lemma run_transact_ne_skipped {body : WriteM Unit}
    (h : body.run (.start index.store index.fault) ≠ .error (.updateSkipped slot committedSlot)) :
    (transact body).run.run index ≠ (.error (.updateSkipped slot committedSlot), next) := by
  intro hrun
  rw [run_transact] at hrun
  split at hrun
  · rename_i cause hbody
    cases hrun
    exact h hbody
  · split at hrun <;> cases hrun

lemma run_commitWrite_skipped {writer : Writer}
    (h : (commitWrite update).run writer = .error (.updateSkipped slot committedSlot)) :
    ∃ status, writer.store.status = some status ∧ update.slot < status.committedSlot := by
  rw [run_commitWrite] at h
  split at h
  · cases h
  · rename_i status hstatus
    split at h
    · rename_i hslot
      exact ⟨status, hstatus, hslot⟩
    · -- what comes after the look at the slot does not skip
      exfalso
      cases hparts : ((Operation.commit update).parts.forM Part.run).run writer with
      | error cause =>
        rw [WriteM.run_bind_of_error hparts] at h
        cases h
        exact Part.run_forM_ne_skipped _ writer slot committedSlot hparts
      | ok result =>
        rw [WriteM.run_bind_of_ok hparts, WriteM.run_writeStatus] at h
        split at h <;> cases h

/-- An event that is skipped is stale. -/
lemma stale_of_skipped
    (h : event.operation.run.run.run index =
      (.error (.updateSkipped slot committedSlot), next)) : index.Stale event := by
  cases event with
  | accepted update =>
    rw [LedgerEvent.operation, Operation.run, run_accept] at h
    split at h
    · rename_i hslot
      exact hslot
    · refine absurd h (run_transact_ne_skipped ?_)
      rw [acceptWrite_eq]
      exact Part.run_forM_ne_skipped _ _ slot committedSlot
  | committed update =>
    rw [LedgerEvent.operation, Operation.run, run_commit] at h
    split at h
    · rename_i hslot
      exact .inl hslot
    · split at h
      · rename_i htransact
        cases h
        refine .inr (by_contra fun hnot => run_transact_ne_skipped (fun hwrite => ?_) htransact)
        exact hnot (run_commitWrite_skipped hwrite)
      · cases h

/-- A commit of a slot that is behind is skipped for the sake of a later slot, and changes
nothing. -/
lemma run_commit_of_behind (h : index.Stale (.committed update)) :
    ∃ known, update.slot < known ∧
      (commit update).run.run index = (.error (.updateSkipped update.slot known), index) := by
  rw [run_commit]
  by_cases hslot : update.slot < index.committedSlot
  · exact ⟨index.committedSlot, hslot, by rw [if_pos hslot]⟩
  · rcases h with h | ⟨status, hstatus, hbehind⟩
    · exact absurd h hslot
    · refine ⟨status.committedSlot, hbehind, ?_⟩
      have hwrite := run_commitWrite update (.start index.store index.fault)
      rw [show (Writer.start index.store index.fault).store.status = some status from hstatus]
        at hwrite
      dsimp only at hwrite
      rw [if_pos hbehind] at hwrite
      rw [if_neg hslot, run_transact, hwrite]

/-- A stale event is skipped, and changes nothing. -/
lemma run_of_stale (h : index.Stale event) :
    ∃ slot committedSlot, event.operation.run.run.run index =
      (.error (.updateSkipped slot committedSlot), index) := by
  cases event with
  | accepted update =>
    have hslot : update.slot ≤ index.committedSlot := h
    refine ⟨update.slot, index.committedSlot, ?_⟩
    rw [LedgerEvent.operation, Operation.run, run_accept, if_pos hslot]
  | committed update =>
    obtain ⟨known, -, hrun⟩ := run_commit_of_behind h
    exact ⟨update.slot, known, hrun⟩

/-! ## Runs -/

/-- The run of a follower over some events.  Each event is applied with success, or it is stale. -/
inductive Follows : Index → List LedgerEvent → Index → Prop where
  | nil (index : Index) : Follows index [] index
  | applied {index last : Index} {event : LedgerEvent} {events : List LedgerEvent}
      (hsucceeds : index.succeeds event.operation = true)
      (hrest : Follows (index.after event.operation) events last) :
      Follows index (event :: events) last
  | skipped {index last : Index} {event : LedgerEvent} {events : List LedgerEvent}
      (hstale : index.Stale event) (hrest : Follows index events last) :
      Follows index (event :: events) last

lemma Follows.append {first second : List LedgerEvent} (h : Follows index first middle)
    (h' : Follows middle second last) : Follows index (first ++ second) last := by
  induction h with
  | nil => exact h'
  | applied hsucceeds _ ih => exact .applied hsucceeds (ih h')
  | skipped hstale _ ih => exact .skipped hstale (ih h')

lemma follows_of_stale (h : ∀ event ∈ events, index.Stale event) : Follows index events index := by
  induction events with
  | nil => exact .nil index
  | cons event rest ih =>
    exact .skipped (h event List.mem_cons_self) (ih fun e he => h e (List.mem_cons_of_mem _ he))

lemma run_applyUnlessStale (event : LedgerEvent) (index : Index) :
    (applyUnlessStale event).run.run index =
      match event.operation.run.run.run index with
      | (.ok (), next) => (.ok true, next)
      | (.error (.updateSkipped _ _), next) => (.ok false, next)
      | (.error cause, next) => (.error (.index cause), next) := by
  have hget : (get : BridgeM Index).run.run index = (.ok index, index) := rfl
  have happly : (apply event).run.run index = event.operation.run.run.run index := by
    cases event <;> rfl
  rw [applyUnlessStale, run_bind_of_ok hget, happly]
  rcases event.operation.run.run.run index with ⟨cause | _, next⟩
  · cases cause <;> rfl
  · rfl

lemma run_applyUnlessStale_eq_ok_iff {applied : Bool} :
    (applyUnlessStale event).run.run index = (.ok applied, next) ↔
      (applied = true ∧ index.succeeds event.operation = true ∧
          next = index.after event.operation) ∨
        (applied = false ∧ index.Stale event ∧ next = index) := by
  rw [run_applyUnlessStale]
  constructor
  · intro h
    split at h
    · rename_i hrun
      cases h
      exact .inl ⟨rfl, run_eq_ok_iff.1 hrun⟩
    · rename_i slot committedSlot _ hrun
      cases h
      refine .inr ⟨rfl, stale_of_skipped hrun, ?_⟩
      obtain ⟨_, _, hrun'⟩ := run_of_stale (stale_of_skipped hrun)
      exact congrArg Prod.snd (hrun.symm.trans hrun')
    · cases h
  · rintro (⟨rfl, happlied⟩ | ⟨rfl, hstale, rfl⟩)
    · rw [run_eq_ok_iff.2 happlied]
    · obtain ⟨_, _, hrun⟩ := run_of_stale hstale
      rw [hrun]

lemma applyAll_ok_cons (event : LedgerEvent) (stream : List (Except BridgeError LedgerEvent)) :
    applyAll (.ok event :: stream) = do
      let applied ← applyUnlessStale event
      return (← applyAll stream) + if applied then 1 else 0 := rfl

lemma exists_run_applyAll_iff :
    (∃ count, (applyAll (events.map .ok)).run.run index = (.ok count, last)) ↔
      Follows index events last := by
  induction events generalizing index with
  | nil =>
    constructor
    · rintro ⟨count, hrun⟩
      cases hrun
      exact .nil _
    · rintro ⟨⟩
      exact ⟨0, rfl⟩
  | cons event rest ih =>
    rw [List.map_cons, applyAll_ok_cons]
    constructor
    · rintro ⟨count, hrun⟩
      obtain ⟨applied, next, hfirst, hrun⟩ := run_bind_eq_ok_iff.1 hrun
      obtain ⟨number, final, hnumber, hrun⟩ := run_bind_eq_ok_iff.1 hrun
      cases hrun
      have hrest : Follows next rest last := ih.1 ⟨number, hnumber⟩
      rcases run_applyUnlessStale_eq_ok_iff.1 hfirst with
        ⟨-, hsucceeds, rfl⟩ | ⟨-, hstale, rfl⟩
      · exact .applied hsucceeds hrest
      · exact .skipped hstale hrest
    · intro h
      cases h with
      | applied hsucceeds hrest =>
        have hfirst := run_applyUnlessStale_eq_ok_iff.2 (.inl ⟨rfl, hsucceeds, rfl⟩)
        obtain ⟨number, hrun⟩ := ih.2 hrest
        refine ⟨number + 1, ?_⟩
        rw [run_bind_of_ok hfirst, run_bind_of_ok hrun]
        rfl
      | skipped hstale hrest =>
        have hfirst := run_applyUnlessStale_eq_ok_iff.2 (.inr ⟨rfl, hstale, rfl⟩)
        obtain ⟨number, hrun⟩ := ih.2 hrest
        refine ⟨number + 0, ?_⟩
        rw [run_bind_of_ok hfirst, run_bind_of_ok hrun]
        rfl

/-- A follower comes to the end of the node's events just if each of them is applied with success or
is stale when its turn comes. -/
lemma exists_run_follow_iff {bridge : Bridge} {start : Slot}
    (hevents : bridge.ledgerUpdates start = .ok (events.map .ok)) :
    (∃ count, (follow bridge start).run.run index = (.ok count, last)) ↔
      Follows index events last := by
  have hfollow : (follow bridge start).run.run index =
      (applyAll (events.map .ok)).run.run index := by
    rw [follow, hevents]
    rfl
  rw [hfollow, exists_run_applyAll_iff]

/-! ## Runs that only accept -/

lemma SameFrame.stale_iff (h : SameFrame index next) : next.Stale event ↔ index.Stale event := by
  cases event with
  | accepted update => rw [Stale, Stale, h.committedSlot]
  | committed update => rw [Stale, Stale, h.committedSlot, h.status]

lemma successes_sublist (index : Index) (operations : List Operation) :
    (index.successes operations).Sublist operations := by
  induction operations generalizing index with
  | nil => exact .refl _
  | cons operation rest ih =>
    rw [successes]
    split
    · exact (ih _).cons_cons operation
    · exact (ih _).cons operation

lemma successes_cons_eq_self_iff {operation : Operation} {operations : List Operation} :
    index.successes (operation :: operations) = operation :: operations ↔
      index.succeeds operation = true ∧
        (index.after operation).successes operations = operations := by
  rw [successes]
  split
  · rename_i hsucceeds
    rw [List.cons_inj_right, and_iff_right hsucceeds]
  · rename_i hfails
    refine iff_of_false (fun h => ?_) fun h => hfails h.1
    have hlength := (successes_sublist (index.after operation) operations).length_le
    rw [h, List.length_cons] at hlength
    omega

/-- The updates among some events that the handle does not take to be committed. -/
def ahead (index : Index) (events : List LedgerEvent) : List LedgerUpdate :=
  (events.filterMap LedgerEvent.accepted?).filter fun update =>
    decide (index.committedSlot < update.slot)

/-- A run in which nothing is committed and all updates that are not stale are accepted. -/
structure AcceptsOnly (index : Index) (events : List LedgerEvent) (last : Index) : Prop where
  stale : ∀ update, .committed update ∈ events → index.Stale (.committed update)
  succeeds : index.successes ((index.ahead events).map .accept) =
    (index.ahead events).map .accept
  eq : ((index.ahead events).map .accept).foldl after index = last

lemma ahead_cons_of_stale (h : index.Stale event) :
    index.ahead (event :: events) = index.ahead events := by
  cases event with
  | accepted update =>
    have hslot : ¬index.committedSlot < update.slot := UInt32.not_lt.2 h
    simp [ahead, LedgerEvent.accepted?, LedgerEvent.operation, Operation.accepted?, hslot]
  | committed update => rfl

lemma ahead_cons_of_lt (h : index.committedSlot < update.slot) :
    index.ahead (.accepted update :: events) = update :: index.ahead events := by
  simp [ahead, LedgerEvent.accepted?, LedgerEvent.operation, Operation.accepted?, h]

lemma SameFrame.ahead_eq (h : SameFrame index next) (events : List LedgerEvent) :
    next.ahead events = index.ahead events := by
  rw [ahead, ahead, h.committedSlot]

namespace AcceptsOnly

lemma skip (hstale : index.Stale event) (h : AcceptsOnly index events last) :
    AcceptsOnly index (event :: events) last where
  stale update hmem := by
    rcases List.mem_cons.1 hmem with rfl | hmem
    · exact hstale
    · exact h.stale update hmem
  succeeds := by
    rw [ahead_cons_of_stale hstale]
    exact h.succeeds
  eq := by
    rw [ahead_cons_of_stale hstale]
    exact h.eq

lemma accept (hahead : index.committedSlot < update.slot)
    (hsucceeds : index.succeeds (.accept update) = true)
    (h : AcceptsOnly (index.after (.accept update)) events last) :
    AcceptsOnly index (.accepted update :: events) last := by
  have hframe := sameFrame_after_accept index update
  have hsame := hframe.ahead_eq events
  refine ⟨fun u hmem => ?_, ?_, ?_⟩
  · rcases List.mem_cons.1 hmem with hmem | hmem
    · cases hmem
    · exact hframe.stale_iff.1 (h.stale u hmem)
  · rw [ahead_cons_of_lt hahead, List.map_cons, successes_cons_eq_self_iff]
    exact ⟨hsucceeds, hsame ▸ h.succeeds⟩
  · rw [ahead_cons_of_lt hahead]
    exact hsame ▸ h.eq

lemma follows (h : AcceptsOnly index events last) : Follows index events last := by
  induction events generalizing index with
  | nil =>
    obtain rfl : index = last := h.eq
    exact .nil index
  | cons event rest ih =>
    have hstale : index.Stale event → Follows index (event :: rest) last := by
      intro hstale
      have hahead : index.ahead (event :: rest) = index.ahead rest := ahead_cons_of_stale hstale
      refine .skipped hstale (ih ⟨fun u hmem => h.stale u (List.mem_cons_of_mem _ hmem), ?_, ?_⟩)
      · exact hahead ▸ h.succeeds
      · exact hahead ▸ h.eq
    cases event with
    | committed update => exact hstale (h.stale update List.mem_cons_self)
    | accepted update =>
      by_cases hslot : index.committedSlot < update.slot
      · have hsame := (sameFrame_after_accept index update).ahead_eq rest
        have hall := h.succeeds
        have heq := h.eq
        rw [ahead_cons_of_lt hslot, List.map_cons] at hall heq
        obtain ⟨hsucceeds, hrest⟩ := successes_cons_eq_self_iff.1 hall
        refine .applied hsucceeds (ih ⟨fun u hmem => ?_, ?_, ?_⟩)
        · exact (sameFrame_after_accept index update).stale_iff.2
            (h.stale u (List.mem_cons_of_mem _ hmem))
        · exact hsame.symm ▸ hrest
        · exact hsame.symm ▸ heq
      · exact hstale (UInt32.not_lt.1 hslot)

end AcceptsOnly

/-- A run commits nothing, or there is a last event that it commits. -/
lemma Follows.acceptsOnly_or_commits (h : Follows index events last) :
    AcceptsOnly index events last ∨
      ∃ first update rest middle, events = first ++ .committed update :: rest ∧
        Follows index first middle ∧ middle.succeeds (.commit update) = true ∧
        AcceptsOnly (middle.after (.commit update)) rest last := by
  induction h with
  | nil index => exact .inl ⟨nofun, rfl, rfl⟩
  | @applied index last event events hsucceeds hrest ih =>
    rcases ih with honly | ⟨first, update, rest, middle, rfl, hfirst, hcommit, honly⟩
    · cases event with
      | accepted update =>
        obtain ⟨writer, haccepts, -⟩ := accepts_of_succeeds hsucceeds
        exact .inl (honly.accept haccepts.ahead hsucceeds)
      | committed update =>
        exact .inr ⟨[], update, events, index, rfl, .nil index, hsucceeds, honly⟩
    · exact .inr ⟨event :: first, update, rest, middle, rfl, .applied hsucceeds hfirst, hcommit,
        honly⟩
  | @skipped index last event events hstale hrest ih =>
    rcases ih with honly | ⟨first, update, rest, middle, rfl, hfirst, hcommit, honly⟩
    · exact .inl (honly.skip hstale)
    · exact .inr ⟨event :: first, update, rest, middle, rfl, .skipped hstale hfirst, hcommit,
        honly⟩

end Index

/-! ## Slot order -/

/-- Slots do not go down from event to event, and they go up from commit to commit. -/
structure InSlotOrder (events : List LedgerEvent) : Prop where
  slots : (events.map LedgerEvent.slot).Pairwise (· ≤ ·)
  commits : ((events.filterMap LedgerEvent.committed?).map LedgerUpdate.slot).Pairwise (· < ·)

/-- What comes before an event that is committed is stale once it is. -/
lemma InSlotOrder.stale_of_mem {first rest : List LedgerEvent} {update : LedgerUpdate}
    {event : LedgerEvent} (h : InSlotOrder (first ++ .committed update :: rest))
    (hevent : event ∈ first) {index : Index} (hslot : update.slot ≤ index.committedSlot) :
    index.Stale event := by
  cases event with
  | accepted other =>
    have hslots := h.slots
    rw [List.map_append, List.pairwise_append] at hslots
    have hle : other.slot ≤ update.slot :=
      hslots.2.2 _ (List.mem_map_of_mem hevent) _ List.mem_cons_self
    exact UInt32.le_trans hle hslot
  | committed other =>
    have hcommits := h.commits
    rw [List.filterMap_append, List.map_append, List.pairwise_append] at hcommits
    have hlt : other.slot < update.slot := by
      refine hcommits.2.2 _ (List.mem_map_of_mem ?_) _ List.mem_cons_self
      exact List.mem_filterMap.2 ⟨.committed other, hevent, rfl⟩
    exact .inl (UInt32.lt_of_lt_of_le hlt hslot)

end OutputIndex
