import OutputIndex.Proofs.Index.Follow
import OutputIndex.Proofs.Index.Handle

/-!
# Several handles on a store

Any number of handles may be opened on a store at any time, and calls through them may overlap
(`SharedStore.Action`).  A call looks at the slot that its handle knows of, later it makes its one
write on what the store has become meanwhile, and later still its handle learns of it.  Each of the
three may happen at any distance from the others, so what a call has seen may be arbitrarily old.

The committed slot of the store only goes up, and no handle, no call and nothing that a handle is
yet to learn is ahead of it (`SharedStore.Behind`), as a commit looks at the status of the store
once more in its write.  The write of an accepted update does not: it is refused by what its handle
knew alone.  A handle knows the slot of the store as long as nobody else commits
(`SharedStore.Tracks`), and only such a handle refuses all that is stale.
-/

namespace OutputIndex

/-! ## Slots that operations store -/

namespace Index

variable {index : Index}

/-- An operation that commits nothing leaves the committed slot of the store. -/
lemma stored_after_eq_self {operation : Operation}
    (h : index.succeeds operation = true → operation.committed? = none) :
    (index.after operation).store.committedSlot = index.store.committedSlot := by
  cases hsucceeds : index.succeeds operation with
  | false => rw [after_eq_self hsucceeds]
  | true =>
    rw [Store.committedSlot, status_after hsucceeds, h hsucceeds]
    rfl

/-- A commit that succeeds stores the slot of its update, which is not behind. -/
lemma stored_after_commit {update : LedgerUpdate}
    (hsucceeds : index.succeeds (.commit update) = true) :
    (index.after (.commit update)).store.committedSlot = update.slot ∧
      index.store.committedSlot ≤ update.slot := by
  obtain ⟨status, writer, hcommits, -⟩ := commits_of_succeeds hsucceeds
  rw [Store.committedSlot, Store.committedSlot, status_after hsucceeds, hcommits.stored]
  exact ⟨rfl, hcommits.behind⟩

/-- An operation leaves a handle behind its store, or at the slot that it commits. -/
lemma after_committedSlot_le (h : index.committedSlot ≤ index.store.committedSlot)
    (operation : Operation) :
    (index.after operation).committedSlot ≤ (index.after operation).store.committedSlot := by
  cases hsucceeds : index.succeeds operation with
  | false =>
    rw [after_eq_self hsucceeds]
    exact h
  | true =>
    cases operation with
    | accept update | rollback =>
      rw [(handle_after hsucceeds).2, stored_after_eq_self fun _ => rfl]
      exact h
    | commit update =>
      rw [committedSlot_after_commit hsucceeds, (stored_after_commit hsucceeds).1]
      exact UInt32.le_refl _

end Index

/-! ## Handles and calls -/

namespace SharedStore

/-- A handle on a store that is shared. -/
structure Handle where
  /-- The last committed slot that the handle knows of. -/
  committedSlot : Slot
  /-- What is made to fail. -/
  fault : Fault
deriving DecidableEq

/-- A call that has looked at its handle and is yet to write. -/
structure Call where
  /-- The number of the handle. -/
  position : ℕ
  /-- The handle as the call has seen it. -/
  seen : Handle
  operation : Operation
deriving DecidableEq

/-- What a handle is yet to learn of a call that has written. -/
structure Note where
  /-- The number of the handle. -/
  position : ℕ
  slot : Slot
deriving DecidableEq

/-- A commit that has gone through. -/
structure Commit where
  /-- The number of the handle. -/
  position : ℕ
  update : LedgerUpdate
deriving DecidableEq

/-- What happens on a store that is shared. -/
inductive Action where
  /-- A handle is opened. -/
  | attach (fault : Fault)
  /-- A call begins, through the handle of a number. -/
  | look (position : ℕ) (operation : Operation)
  /-- A call that has begun makes its write. -/
  | write (number : ℕ)
  /-- A handle learns of a call that has written. -/
  | learn (number : ℕ)
deriving DecidableEq

end SharedStore

/-- A store with the handles on it, numbered as they were opened. -/
structure SharedStore where
  store : Store
  handles : List SharedStore.Handle
  calls : List SharedStore.Call
  notes : List SharedStore.Note

namespace SharedStore

/-- A store on which there is no handle yet. -/
def start (store : Store) : SharedStore := ⟨store, [], [], []⟩

/-- The last committed slot. -/
def committedSlot (shared : SharedStore) : Slot := shared.store.committedSlot

/-- The store as a call finds it that has seen a handle. -/
def view (shared : SharedStore) (seen : Handle) : Index :=
  ⟨shared.store, seen.committedSlot, seen.fault⟩

/-- What a call answers if it writes now. -/
def answer (shared : SharedStore) (call : Call) : Except IndexError Unit :=
  (call.operation.run.run.run (shared.view call.seen)).1

/-- A handle learns of a slot.  It never knows of less than before. -/
def Handle.advance (handle : Handle) (slot : Slot) : Handle :=
  { handle with committedSlot := max handle.committedSlot slot }

/-- What an action makes of a store and its handles. -/
def after (shared : SharedStore) : Action → SharedStore
  | .attach fault =>
    let handle : Handle := ⟨(Index.attach shared.store fault).committedSlot, fault⟩
    { shared with handles := shared.handles ++ [handle] }
  | .look position operation =>
    match shared.handles[position]? with
    | none => shared
    | some handle => { shared with calls := shared.calls ++ [⟨position, handle, operation⟩] }
  | .write number =>
    match shared.calls[number]? with
    | none => shared
    | some call =>
      let index := (shared.view call.seen).after call.operation
      { shared with
        store := index.store
        calls := shared.calls.eraseIdx number
        notes := shared.notes ++ [⟨call.position, index.committedSlot⟩] }
  | .learn number =>
    match shared.notes[number]? with
    | none => shared
    | some note =>
      { shared with
        handles := shared.handles.modify note.position (·.advance note.slot)
        notes := shared.notes.eraseIdx number }

/-- The commit that goes through with an action, if there is one. -/
def commit? (shared : SharedStore) : Action → Option Commit
  | .write number => do
    let call ← shared.calls[number]?
    let update ← call.operation.committed?
    if (shared.view call.seen).succeeds call.operation then some ⟨call.position, update⟩ else none
  | .attach _ | .look _ _ | .learn _ => none

/-- The commits that go through in the course of some actions. -/
def commits (shared : SharedStore) : List Action → List Commit
  | [] => []
  | action :: rest => (shared.commit? action).toList ++ commits (shared.after action) rest

variable {shared : SharedStore} {call : Call} {note : Note} {number position : ℕ}
  {update : LedgerUpdate}

lemma after_write (hcall : shared.calls[number]? = some call) :
    shared.after (.write number) =
      { shared with
        store := ((shared.view call.seen).after call.operation).store
        calls := shared.calls.eraseIdx number
        notes := shared.notes ++
          [⟨call.position, ((shared.view call.seen).after call.operation).committedSlot⟩] } := by
  rw [after, hcall]

lemma after_learn (hnote : shared.notes[number]? = some note) :
    shared.after (.learn number) =
      { shared with
        handles := shared.handles.modify note.position (·.advance note.slot)
        notes := shared.notes.eraseIdx number } := by
  rw [after, hnote]

lemma committedSlot_after_write (hcall : shared.calls[number]? = some call) :
    (shared.after (.write number)).committedSlot =
      ((shared.view call.seen).after call.operation).store.committedSlot := by
  rw [after_write hcall]
  rfl

/-! ## Commits -/

lemma commit?_eq_some_iff {action : Action} {commit : Commit} :
    shared.commit? action = some commit ↔
      ∃ number call, action = .write number ∧ shared.calls[number]? = some call ∧
        call.operation = .commit commit.update ∧
        (shared.view call.seen).succeeds call.operation = true ∧
        call.position = commit.position := by
  constructor
  · intro h
    cases action with
    | write number =>
      obtain ⟨call, hcall, h⟩ := Option.bind_eq_some_iff.1 h
      obtain ⟨update, hupdate, h⟩ := Option.bind_eq_some_iff.1 h
      have hoperation : call.operation = .commit update := by
        cases hcase : call.operation with
        | commit other =>
          rw [hcase] at hupdate
          rw [Option.some.inj hupdate]
        | accept | rollback =>
          rw [hcase] at hupdate
          cases hupdate
      split at h
      · rename_i hsucceeds
        cases h
        exact ⟨number, call, rfl, hcall, hoperation, hsucceeds, rfl⟩
      · cases h
    | attach | look | learn => cases h
  · rintro ⟨number, call, rfl, hcall, hoperation, hsucceeds, hposition⟩
    have hupdate : call.operation.committed? = some commit.update := by
      rw [hoperation]
      rfl
    rw [commit?, hcall]
    simp only [hupdate, hsucceeds, hposition, Option.bind_eq_bind, Option.bind_some, if_true]

/-- What a call commits is stored as it writes, and it is not behind. -/
lemma committedSlot_of_commit? {action : Action} {commit : Commit}
    (h : shared.commit? action = some commit) :
    (shared.after action).committedSlot = commit.update.slot ∧
      shared.committedSlot ≤ commit.update.slot := by
  obtain ⟨number, call, rfl, hcall, hoperation, hsucceeds, -⟩ := commit?_eq_some_iff.1 h
  rw [committedSlot_after_write hcall, hoperation]
  rw [hoperation] at hsucceeds
  exact Index.stored_after_commit hsucceeds

/-- Where nothing is committed the slot stays. -/
lemma committedSlot_of_commit?_eq_none {action : Action} (h : shared.commit? action = none) :
    (shared.after action).committedSlot = shared.committedSlot := by
  cases action with
  | attach fault => rfl
  | look position operation | learn number =>
    rw [after]
    split <;> rfl
  | write number =>
    cases hcall : shared.calls[number]? with
    | none => rw [after, hcall]
    | some call =>
      rw [committedSlot_after_write hcall]
      refine Index.stored_after_eq_self fun hsucceeds => ?_
      cases hoperation : call.operation with
      | accept | rollback => rfl
      | commit update =>
        have hcommit : shared.commit? (.write number) = some ⟨call.position, update⟩ :=
          commit?_eq_some_iff.2 ⟨number, call, rfl, hcall, hoperation, hsucceeds, rfl⟩
        rw [hcommit] at h
        cases h

/-- No action takes the committed slot down. -/
lemma committedSlot_le_after (shared : SharedStore) (action : Action) :
    shared.committedSlot ≤ (shared.after action).committedSlot := by
  cases hcommit : shared.commit? action with
  | none =>
    rw [committedSlot_of_commit?_eq_none hcommit]
    exact UInt32.le_refl _
  | some commit =>
    obtain ⟨hstored, hle⟩ := committedSlot_of_commit? hcommit
    rw [hstored]
    exact hle

lemma committedSlot_le_foldl_after (shared : SharedStore) (actions : List Action) :
    shared.committedSlot ≤ (actions.foldl after shared).committedSlot := by
  induction actions generalizing shared with
  | nil => exact UInt32.le_refl _
  | cons action rest ih =>
    rw [List.foldl_cons]
    exact UInt32.le_trans (committedSlot_le_after shared action) (ih (shared.after action))

/-- All that has been committed is at most as far as the store. -/
lemma slot_le_of_mem_commits {actions : List Action} {commit : Commit}
    (h : commit ∈ shared.commits actions) :
    commit.update.slot ≤ (actions.foldl after shared).committedSlot := by
  induction actions generalizing shared with
  | nil => cases h
  | cons action rest ih =>
    rw [List.foldl_cons]
    rcases List.mem_append.1 h with h | h
    · rw [← (committedSlot_of_commit? (Option.mem_toList.1 h)).1]
      exact committedSlot_le_foldl_after _ rest
    · exact ih h

/-! ## Handles are behind the store -/

/-- Neither a handle nor a call nor a note is ahead of the store. -/
structure Behind (shared : SharedStore) : Prop where
  handles : ∀ handle ∈ shared.handles, handle.committedSlot ≤ shared.committedSlot
  calls : ∀ call ∈ shared.calls, call.seen.committedSlot ≤ shared.committedSlot
  notes : ∀ note ∈ shared.notes, note.slot ≤ shared.committedSlot

lemma Behind.start (store : Store) : (start store).Behind := ⟨nofun, nofun, nofun⟩

lemma Behind.write (h : shared.Behind) (hcall : shared.calls[number]? = some call) :
    (shared.after (.write number)).Behind := by
  have hle := committedSlot_le_after shared (.write number)
  have hslot := committedSlot_after_write hcall
  refine ⟨fun handle hhandle => ?_, fun other hother => ?_, fun note hnote => ?_⟩
  · rw [after_write hcall] at hhandle
    exact UInt32.le_trans (h.handles handle hhandle) hle
  · rw [after_write hcall] at hother
    exact UInt32.le_trans (h.calls other (List.mem_of_mem_eraseIdx hother)) hle
  · rw [after_write hcall] at hnote
    rcases List.mem_append.1 hnote with hnote | hnote
    · exact UInt32.le_trans (h.notes note hnote) hle
    · -- the note is of what the call itself has stored, if anything
      rw [List.mem_singleton.1 hnote, hslot]
      exact Index.after_committedSlot_le (h.calls call (List.mem_of_getElem? hcall)) _

lemma Behind.learn (h : shared.Behind) (hnote : shared.notes[number]? = some note) :
    (shared.after (.learn number)).Behind := by
  rw [after_learn hnote]
  refine ⟨fun handle hhandle => ?_, h.calls, fun other hother => ?_⟩
  · obtain ⟨i, hi⟩ := List.mem_iff_getElem?.1 hhandle
    rw [List.getElem?_modify] at hi
    obtain ⟨old, hold, rfl⟩ := Option.map_eq_some_iff.1 hi
    have hle : old.committedSlot ≤ shared.committedSlot :=
      h.handles old (List.mem_of_getElem? hold)
    split
    · exact Std.max_le_iff.2 ⟨hle, h.notes note (List.mem_of_getElem? hnote)⟩
    · exact hle
  · exact h.notes other (List.mem_of_mem_eraseIdx hother)

lemma Behind.after (h : shared.Behind) (action : Action) : (shared.after action).Behind := by
  cases action with
  | attach fault =>
    refine ⟨fun handle hhandle => ?_, h.calls, h.notes⟩
    rcases List.mem_append.1 hhandle with hhandle | hhandle
    · exact h.handles handle hhandle
    · rw [List.mem_singleton.1 hhandle]
      exact UInt32.le_refl _
  | look position operation =>
    rw [SharedStore.after]
    split
    · exact h
    · rename_i handle hhandle
      refine ⟨h.handles, fun call hcall => ?_, h.notes⟩
      rcases List.mem_append.1 hcall with hcall | hcall
      · exact h.calls call hcall
      · rw [List.mem_singleton.1 hcall]
        exact h.handles handle (List.mem_of_getElem? hhandle)
  | write number =>
    cases hcall : shared.calls[number]? with
    | none =>
      rw [SharedStore.after, hcall]
      exact h
    | some call => exact h.write hcall
  | learn number =>
    cases hnote : shared.notes[number]? with
    | none =>
      rw [SharedStore.after, hnote]
      exact h
    | some note => exact h.learn hnote

lemma Behind.foldl_after (h : shared.Behind) (actions : List Action) :
    (actions.foldl SharedStore.after shared).Behind := by
  induction actions generalizing shared with
  | nil => exact h
  | cons action rest ih =>
    rw [List.foldl_cons]
    exact ih (h.after action)

/-! ## Agreement -/

lemma succeeds_of_answer (h : shared.answer call = .ok ()) :
    (shared.view call.seen).succeeds call.operation = true := by
  rw [answer] at h
  rw [Index.succeeds, h]
  rfl

/-- A call that fails leaves the store and all handles. -/
lemma after_write_of_error (hcall : shared.calls[number]? = some call) {cause : IndexError}
    (h : shared.answer call = .error cause) :
    (shared.after (.write number)).store = shared.store ∧
      (shared.after (.write number)).handles = shared.handles := by
  have hrun : call.operation.run.run.run (shared.view call.seen) =
      (.error cause, (shared.view call.seen).after call.operation) := Prod.ext h rfl
  rw [after_write hcall, Index.eq_of_run_error hrun]
  exact ⟨rfl, rfl⟩

/-- A commit that is behind the store is refused for the sake of a later slot. -/
lemma answer_of_behind (hoperation : call.operation = .commit update)
    (h : update.slot < shared.committedSlot) :
    ∃ known, update.slot < known ∧
      shared.answer call = .error (.updateSkipped update.slot known) := by
  have hstale : (shared.view call.seen).Stale (.committed update) := by
    rw [committedSlot, Store.committedSlot] at h
    cases hstatus : shared.store.status with
    | none =>
      rw [hstatus] at h
      exact absurd h (UInt32.not_lt.2 UInt32.zero_le)
    | some status =>
      rw [hstatus] at h
      exact .inr ⟨status, hstatus, h⟩
  obtain ⟨known, hlt, hrun⟩ := Index.run_commit_of_behind hstale
  refine ⟨known, hlt, ?_⟩
  rw [answer, hoperation, Operation.run, hrun]

/-- **Handles agree on progress.**  However handles are opened on a store and calls through them
overlap: the stored slot only goes up and no handle is ahead of it; a commit that succeeds stores
the slot of its update, which is not below any that was stored or committed before; and a commit
that is behind the stored slot is refused for the sake of a later slot and changes nothing. -/
theorem handles_agree (store : Store) (actions : List Action) :
    let shared := actions.foldl after (start store)
    (∀ later : List Action,
      shared.committedSlot ≤ (later.foldl after shared).committedSlot) ∧
    (∀ handle ∈ shared.handles, handle.committedSlot ≤ shared.committedSlot) ∧
    ∀ (number : ℕ) (call : Call) (update : LedgerUpdate),
      shared.calls[number]? = some call → call.operation = .commit update →
      let next := shared.after (.write number)
      (shared.answer call = .ok () →
        (∃ status, shared.store.status = some status ∧
          next.store.status = some { status with committedSlot := update.slot }) ∧
        shared.committedSlot ≤ update.slot ∧
        ∀ commit ∈ (start store).commits actions, commit.update.slot ≤ update.slot) ∧
      (update.slot < shared.committedSlot →
        (∃ known, update.slot < known ∧
          shared.answer call = .error (.updateSkipped update.slot known)) ∧
        next.store = shared.store ∧ next.handles = shared.handles) := by
  intro shared
  have hbehind : shared.Behind := (Behind.start store).foldl_after actions
  refine ⟨committedSlot_le_foldl_after shared, hbehind.handles, ?_⟩
  intro number call update hcall hoperation next
  constructor
  · intro hanswer
    have hsucceeds := succeeds_of_answer hanswer
    rw [hoperation] at hsucceeds
    obtain ⟨status, writer, hcommits, -⟩ := Index.commits_of_succeeds hsucceeds
    have hle : shared.committedSlot ≤ update.slot := (Index.stored_after_commit hsucceeds).2
    refine ⟨⟨status, hcommits.stored, ?_⟩, hle, fun commit hcommit => ?_⟩
    · have hstatus := Index.status_after hsucceeds
      rw [hcommits.stored] at hstatus
      rw [show next = _ from after_write hcall, hoperation]
      exact hstatus
    · exact UInt32.le_trans (slot_le_of_mem_commits hcommit) hle
  · intro hlt
    obtain ⟨known, hknown, hanswer⟩ := answer_of_behind hoperation hlt
    exact ⟨⟨known, hknown, hanswer⟩, after_write_of_error hcall hanswer⟩

/-- Two handles are opened on the store of the sample and a call through each begins: the first is
to commit slot 7, the second slot 8. -/
def sampleCommits : List Action :=
  [.attach .none, .attach .none, .look 0 (.commit ⟨7, [], []⟩), .look 1 (.commit ⟨8, [], []⟩)]

/-- The second call commits its slot, and the first comes too late. -/
theorem handles_agree_sampleCommits :
    let shared := sampleCommits.foldl after (start Index.sampleIndex.store)
    let next := shared.after (.write 1)
    next.store.status.map (·.committedSlot) = some 8 ∧
      ∃ call known, next.calls[0]? = some call ∧ call.operation = .commit ⟨7, [], []⟩ ∧ 7 < known ∧
        next.answer call = .error (.updateSkipped 7 known) ∧
        (next.after (.write 0)).store = next.store := by
  intro shared next
  let first : Call := ⟨0, ⟨5, .none⟩, .commit ⟨7, [], []⟩⟩
  let second : Call := ⟨1, ⟨5, .none⟩, .commit ⟨8, [], []⟩⟩
  have hsecond : shared.calls[1]? = some second := rfl
  have hfirst : next.calls[0]? = some first := rfl
  have hanswer : shared.answer second = .ok () := by decide +kernel
  have hlt : (7 : Slot) < next.committedSlot := by decide +kernel
  obtain ⟨-, -, hcommit⟩ := handles_agree Index.sampleIndex.store sampleCommits
  obtain ⟨⟨status, -, hstatus⟩, -, -⟩ := (hcommit 1 second ⟨8, [], []⟩ hsecond rfl).1 hanswer
  obtain ⟨-, -, hbehind⟩ :=
    handles_agree Index.sampleIndex.store (sampleCommits ++ [.write 1])
  obtain ⟨⟨known, hknown, hrefused⟩, hstore, -⟩ :=
    (hbehind 0 first ⟨7, [], []⟩ hfirst rfl).2 hlt
  refine ⟨?_, first, known, hfirst, rfl, hknown, hrefused, hstore⟩
  rw [show next.store.status = _ from hstatus]
  rfl

/-! ## Handles that know the slot of the store -/

/-- The handle of a number knows the slot of the store. -/
def Knows (shared : SharedStore) (position : ℕ) : Prop :=
  ∃ handle, shared.handles[position]? = some handle ∧ handle.committedSlot = shared.committedSlot

/-- Through the handle of a number nothing stale is accepted. -/
def RefusesStale (shared : SharedStore) (position : ℕ) : Prop :=
  ∃ handle, shared.handles[position]? = some handle ∧
    ∀ update : LedgerUpdate, update.slot ≤ shared.committedSlot →
      ∃ known, (Index.accept update).run.run (shared.view handle) =
        (.error (.updateSkipped update.slot known), shared.view handle)

/-- The handle of a number knows the slot of the store, or is yet to learn of it. -/
def Tracks (shared : SharedStore) (position : ℕ) : Prop :=
  ∃ handle, shared.handles[position]? = some handle ∧
    (shared.committedSlot ≤ handle.committedSlot ∨
      ∃ note ∈ shared.notes, note.position = position ∧ shared.committedSlot ≤ note.slot)

lemma Tracks.write (h : shared.Tracks position) (hcall : shared.calls[number]? = some call)
    (hown : ∀ commit, shared.commit? (.write number) = some commit → commit.position = position) :
    (shared.after (.write number)).Tracks position := by
  obtain ⟨handle, hhandle, htracks⟩ := h
  have hhandle' : (shared.after (.write number)).handles[position]? = some handle := by
    rw [after_write hcall]
    exact hhandle
  refine ⟨handle, hhandle', ?_⟩
  cases hcommit : shared.commit? (.write number) with
  | none =>
    rw [committedSlot_of_commit?_eq_none hcommit]
    refine htracks.imp_right ?_
    rintro ⟨note, hnote, hposition, hslot⟩
    refine ⟨note, ?_, hposition, hslot⟩
    rw [after_write hcall]
    exact List.mem_append_left _ hnote
  | some commit =>
    -- the handle itself has committed, and there is a note of it now
    obtain ⟨_, _, heq, hcall', hoperation, hsucceeds, hcommitter⟩ := commit?_eq_some_iff.1 hcommit
    cases heq
    obtain rfl : call = _ := Option.some.inj (hcall.symm.trans hcall')
    refine .inr ⟨⟨call.position, ((shared.view call.seen).after call.operation).committedSlot⟩,
      ?_, hcommitter.trans (hown commit hcommit), ?_⟩
    · rw [after_write hcall]
      exact List.mem_append_right _ (List.mem_singleton.2 rfl)
    · rw [(committedSlot_of_commit? hcommit).1]
      rw [hoperation] at hsucceeds ⊢
      dsimp only
      rw [Index.committedSlot_after_commit hsucceeds]
      exact UInt32.le_refl _

lemma Tracks.learn (h : shared.Tracks position) (hnote : shared.notes[number]? = some note) :
    (shared.after (.learn number)).Tracks position := by
  obtain ⟨handle, hhandle, htracks⟩ := h
  rw [after_learn hnote]
  have hhandle' : (shared.handles.modify note.position (·.advance note.slot))[position]? =
      some (if note.position = position then handle.advance note.slot else handle) := by
    rw [List.getElem?_modify, hhandle]
    rfl
  refine ⟨_, hhandle', ?_⟩
  rcases htracks with hle | ⟨other, hother, hposition, hslot⟩
  · -- the handle knows the slot already, and never knows of less
    refine .inl ?_
    split
    · exact UInt32.le_trans hle Std.left_le_max
    · exact hle
  · obtain ⟨i, hi⟩ := List.mem_iff_getElem?.1 hother
    by_cases hsame : i = number
    · subst hsame
      obtain rfl : other = note := Option.some.inj (hi.symm.trans hnote)
      refine .inl ?_
      rw [if_pos hposition]
      exact UInt32.le_trans hslot Std.right_le_max
    · exact .inr ⟨other, List.mem_eraseIdx_iff_getElem?.2 ⟨i, hsame, hi⟩, hposition, hslot⟩

lemma Tracks.after (h : shared.Tracks position) (action : Action)
    (hown : ∀ commit, shared.commit? action = some commit → commit.position = position) :
    (shared.after action).Tracks position := by
  cases action with
  | attach fault =>
    obtain ⟨handle, hhandle, htracks⟩ := h
    have hlt : position < shared.handles.length := (List.getElem?_eq_some_iff.1 hhandle).1
    exact ⟨handle, (List.getElem?_append_left hlt).trans hhandle, htracks⟩
  | look i operation =>
    rw [SharedStore.after]
    split <;> exact h
  | write number =>
    cases hcall : shared.calls[number]? with
    | none =>
      rw [SharedStore.after, hcall]
      exact h
    | some call => exact h.write hcall hown
  | learn number =>
    cases hnote : shared.notes[number]? with
    | none =>
      rw [SharedStore.after, hnote]
      exact h
    | some note => exact h.learn hnote

lemma Tracks.foldl_after (h : shared.Tracks position) {actions : List Action}
    (hown : ∀ commit ∈ shared.commits actions, commit.position = position) :
    (actions.foldl SharedStore.after shared).Tracks position := by
  induction actions generalizing shared with
  | nil => exact h
  | cons action rest ih =>
    rw [List.foldl_cons]
    have hfirst := h.after action fun commit hcommit =>
      hown commit (List.mem_append_left _ (Option.mem_toList.2 hcommit))
    exact ih hfirst fun commit hcommit => hown commit (List.mem_append_right _ hcommit)

/-- A handle that is behind its store knows its slot once it has nothing to learn. -/
lemma Tracks.knows (h : shared.Tracks position) (hbehind : shared.Behind)
    (hlearnt : ∀ note ∈ shared.notes, note.position ≠ position) : shared.Knows position := by
  obtain ⟨handle, hhandle, hle | ⟨note, hnote, hposition, -⟩⟩ := h
  · exact ⟨handle, hhandle,
      UInt32.le_antisymm (hbehind.handles handle (List.mem_of_getElem? hhandle)) hle⟩
  · exact absurd hposition (hlearnt note hnote)

lemma Knows.tracks (h : shared.Knows position) : shared.Tracks position := by
  obtain ⟨handle, hhandle, heq⟩ := h
  exact ⟨handle, hhandle, .inl (heq ▸ UInt32.le_refl _)⟩

/-- A handle knows the slot of the store as it is opened. -/
lemma knows_attach (shared : SharedStore) (fault : Fault) :
    (shared.after (.attach fault)).Knows shared.handles.length :=
  ⟨_, List.getElem?_concat_length, rfl⟩

/-! ## Accepted updates -/

lemma answer_accept (hoperation : call.operation = .accept update) :
    (∃ known, shared.answer call = .error (.updateSkipped update.slot known)) ↔
      update.slot ≤ call.seen.committedSlot := by
  have hanswer : shared.answer call =
      ((Index.accept update).run.run (shared.view call.seen)).1 := by
    rw [answer, hoperation]
    rfl
  have hseen : (shared.view call.seen).committedSlot = call.seen.committedSlot := rfl
  rw [hanswer, Index.run_accept, hseen]
  split
  · rename_i hle
    exact iff_of_true ⟨_, rfl⟩ hle
  · rename_i hnot
    refine iff_of_false ?_ hnot
    rintro ⟨known, herror⟩
    have hwrite : (Index.acceptWrite update).run
        (.start shared.store call.seen.fault) ≠ .error (.updateSkipped update.slot known) := by
      rw [Index.acceptWrite_eq]
      exact Part.run_forM_ne_skipped _ _ update.slot known
    exact Index.run_transact_ne_skipped hwrite (Prod.ext herror rfl)

lemma refusesStale_iff_knows (h : shared.Behind) :
    shared.RefusesStale position ↔ shared.Knows position := by
  constructor
  · rintro ⟨handle, hhandle, hrefuses⟩
    refine ⟨handle, hhandle, UInt32.le_antisymm
      (h.handles handle (List.mem_of_getElem? hhandle)) ?_⟩
    -- an update of just the stored slot is refused by what the handle knows
    let update : LedgerUpdate := ⟨shared.committedSlot, [], []⟩
    let call : Call := ⟨position, handle, .accept update⟩
    obtain ⟨known, hrun⟩ := hrefuses update (UInt32.le_refl _)
    have hanswer : shared.answer call = .error (.updateSkipped update.slot known) :=
      congrArg Prod.fst hrun
    have hoperation : call.operation = .accept update := rfl
    exact (answer_accept hoperation).1 ⟨known, hanswer⟩
  · rintro ⟨handle, hhandle, heq⟩
    refine ⟨handle, hhandle, fun update hle => ⟨handle.committedSlot, ?_⟩⟩
    have hslot : update.slot ≤ (shared.view handle).committedSlot := hle.trans_eq heq.symm
    rw [Index.run_accept, if_pos hslot]
    rfl

/-- **Stale accepted updates.**  However handles are opened on a store and calls through them
overlap, an accepted update is refused as stale just if its slot is not beyond what its handle knew
when the call began, and what is refused changes nothing.  A handle refuses all that is stale just
if it knows the slot of the store.  It does when it is opened, and whenever it has done so and
nobody else has committed since, once it has learnt of its own commits. -/
theorem stale_accept_refused_iff (store : Store) (actions : List Action) :
    let shared := actions.foldl after (start store)
    (∀ (number : ℕ) (call : Call) (update : LedgerUpdate),
      shared.calls[number]? = some call → call.operation = .accept update →
      ((∃ known, shared.answer call = .error (.updateSkipped update.slot known)) ↔
        update.slot ≤ call.seen.committedSlot) ∧
      ∀ cause, shared.answer call = .error cause →
        (shared.after (.write number)).store = shared.store ∧
          (shared.after (.write number)).handles = shared.handles) ∧
    (∀ position, shared.RefusesStale position ↔ shared.Knows position) ∧
    (∀ fault, (shared.after (.attach fault)).RefusesStale shared.handles.length) ∧
    ∀ (position : ℕ) (later : List Action), shared.RefusesStale position →
      (∀ commit ∈ shared.commits later, commit.position = position) →
      let next := later.foldl after shared
      (∀ note ∈ next.notes, note.position ≠ position) → next.RefusesStale position := by
  intro shared
  have hbehind : shared.Behind := (Behind.start store).foldl_after actions
  refine ⟨?_, fun position => refusesStale_iff_knows hbehind, fun fault => ?_, ?_⟩
  · intro number call update hcall hoperation
    exact ⟨answer_accept hoperation, fun cause hanswer => after_write_of_error hcall hanswer⟩
  · have hopened : (shared.after (.attach fault)).Behind := hbehind.after (.attach fault)
    exact (refusesStale_iff_knows hopened).2 (knows_attach shared fault)
  · intro position later hrefuses hown next hlearnt
    have hnext : next.Behind := hbehind.foldl_after later
    have hknows : shared.Knows position := (refusesStale_iff_knows hbehind).1 hrefuses
    have htracks : next.Tracks position := hknows.tracks.foldl_after hown
    exact (refusesStale_iff_knows hnext).2 (htracks.knows hnext hlearnt)

/-- Two handles are opened on the store of the sample. -/
def sampleHandles : List Action := [.attach .none, .attach .none]

/-- The second handle commits slot 8 and learns of it. -/
def sampleLead : List Action := [.look 1 (.commit ⟨8, [], []⟩), .write 0, .learn 0]

/-- The second handle goes on to refuse what is stale. -/
theorem refusesStale_sampleLead :
    let shared := sampleHandles.foldl after (start Index.sampleIndex.store)
    shared.RefusesStale 1 ∧ (sampleLead.foldl after shared).committedSlot = 8 ∧
      (sampleLead.foldl after shared).RefusesStale 1 := by
  intro shared
  obtain ⟨-, -, hopened, -⟩ := stale_accept_refused_iff Index.sampleIndex.store [.attach .none]
  have hrefuses : shared.RefusesStale 1 := hopened .none
  have hcommits : ∀ commit ∈ shared.commits sampleLead, commit.position = 1 := by decide +kernel
  have hslot : (sampleLead.foldl after shared).committedSlot = 8 := by decide +kernel
  obtain ⟨-, -, -, hlater⟩ := stale_accept_refused_iff Index.sampleIndex.store sampleHandles
  exact ⟨hrefuses, hslot, hlater 1 sampleLead hrefuses hcommits nofun⟩

/-- The first handle does not know of slot 8 and takes over an update of slot 7. -/
theorem accepted_below_committed_sampleLead :
    let update : LedgerUpdate := ⟨7, [], [Index.sampleCreated]⟩
    let shared := (sampleHandles ++ sampleLead ++ [Action.look 0 (.accept update)]).foldl after
      (start Index.sampleIndex.store)
    update.slot ≤ shared.committedSlot ∧
      (∃ call, shared.calls[0]? = some call ∧ call.operation = .accept update ∧
        shared.answer call = .ok ()) ∧
      shared.store.row? .basic Index.sampleCreated.outputId = none ∧
      ∃ row, (shared.after (.write 0)).store.row? .basic Index.sampleCreated.outputId = some row ∧
        row.about.committed = false ∧ row.about.isLive = true := by
  intro update shared
  let call : Call := ⟨0, ⟨5, .none⟩, .accept update⟩
  have hcall : shared.calls[0]? = some call := rfl
  have hanswer : shared.answer call = .ok () := by decide +kernel
  have hrow : ∃ row, (shared.after (.write 0)).store.row? .basic Index.sampleCreated.outputId =
      some row ∧ row.about.committed = false ∧ row.about.isLive = true := by
    decide +kernel
  exact ⟨by decide +kernel, ⟨call, hcall, rfl, hanswer⟩, by decide +kernel, hrow⟩

end SharedStore

end OutputIndex
