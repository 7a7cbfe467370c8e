import OutputIndex.Proofs.Index.Reachable

/-!
# Settled stores

A store is settled when every row is final and live (`Store.Settled`).  A sweep settles a store when
nothing that is not settled lies beyond its slot (`Store.Within`), so does every rollback, and a
commit of a slot leaves the store settled if its sweep does (`Store.settled_of_commit`).
-/

namespace OutputIndex

lemma Slot.le_last (slot : Slot) : slot ≤ Slot.last := by
  have hlt : slot.toNat < 4294967296 := slot.toNat_lt
  show slot.toNat ≤ 4294967295
  omega

namespace Store

/-! ## What holds of every row -/

/-- All rows satisfy a condition. -/
def AllRows (holds : OutputRecord → Prop) (store : Store) : Prop :=
  ∀ kind id record, store.row? kind id = some record → holds record

variable {holds : OutputRecord → Prop} {store other : Store} {writer last : Writer}
  {record : OutputRecord} {output : LedgerOutput} {slot : Slot}

namespace AllRows

lemma empty : AllRows holds Store.empty := by
  intro kind id record hrow
  rw [row?_empty] at hrow
  cases hrow

lemma of_row?_eq (h : AllRows holds store)
    (hrows : ∀ kind id, other.row? kind id = store.row? kind id) : AllRows holds other := by
  intro kind id record hrow
  rw [hrows] at hrow
  exact h kind id record hrow

lemma seesRows (holds : OutputRecord → Prop) : SeesRows fun _ => AllRows holds :=
  fun _ _ _ hrows _ h => h.of_row?_eq hrows

/-- A row that satisfies the condition may be put anywhere. -/
lemma of_put (h : AllRows holds store) (hrecord : holds record)
    (hrows : ∀ kind id, other.row? kind id =
      if kind = record.kind ∧ id = record.outputId then some record else store.row? kind id) :
    AllRows holds other := by
  intro kind id row hrow
  rw [hrows] at hrow
  split at hrow
  · cases hrow
    exact hrecord
  · exact h kind id row hrow

lemma putRecord (h : AllRows holds writer.store) (hrecord : holds record) :
    AllRows holds (writer.putRecord record).store :=
  h.of_put hrecord (Writer.row?_putRecord writer record)

lemma enter (h : AllRows holds writer.store) (hrecord : holds record) :
    AllRows holds (writer.enter record output).store :=
  h.of_put hrecord (Writer.row?_enter writer record output)

lemma leave (h : AllRows holds writer.store) (kind : OutputKind) (id : OutputId) :
    AllRows holds (writer.leave kind id).store := by
  intro k i row hrow
  rw [Writer.row?_leave] at hrow
  split at hrow
  · cases hrow
  · exact h k i row hrow

lemma settle {holds' : OutputRecord → Prop} (h : AllRows holds writer.store)
    (hready : writer.Ready)
    (hswept : ∀ record left, holds record → record.swept slot = some left → holds' left) :
    AllRows holds' (writer.settle slot).store := by
  intro kind id row hrow
  rw [Writer.row?_settle hready] at hrow
  obtain ⟨record, hrecord, hleft⟩ := Option.bind_eq_some_iff.1 hrow
  exact hswept record row (h kind id record hrecord) hleft

end AllRows

/-! ## Settled rows -/

/-- Every row is final and live. -/
def Settled (store : Store) : Prop :=
  AllRows (fun record => record.about.committed = true ∧ record.about.deletedAtSlot = 0) store

/-- No tentative row is booked beyond a slot, and none is spent beyond it. -/
def Within (slot : Slot) (store : Store) : Prop :=
  AllRows (fun record => (record.about.committed = false → record.about.createdAtSlot ≤ slot) ∧
    record.about.deletedAtSlot ≤ slot) store

lemma within_last (store : Store) : Within Slot.last store :=
  fun _ _ _ _ => ⟨fun _ => Slot.le_last _, Slot.le_last _⟩

lemma Settled.within (h : Settled store) (slot : Slot) : Within slot store := by
  intro kind id record hrow
  obtain ⟨hfinal, hlive⟩ := h kind id record hrow
  refine ⟨fun htentative => ?_, ?_⟩
  · rw [hfinal] at htentative
    cases htentative
  · rw [hlive]
    exact UInt32.zero_le

/-- A sweep settles what lies within its slot. -/
lemma Within.settle (h : Within slot writer.store) (hready : writer.Ready) :
    Settled (writer.settle slot).store := by
  refine AllRows.settle h hready ?_
  rintro record left ⟨hbooked, hspent⟩ hswept
  obtain ⟨hkept, rfl⟩ := OutputRecord.swept_eq_some_iff.1 hswept
  rw [OutputRecord.unmarked, if_pos hspent, OutputRecord.about_spentAt]
  refine ⟨?_, rfl⟩
  cases hfinal : record.about.committed with
  | true => rfl
  | false => exact absurd ⟨hfinal, hbooked hfinal⟩ hkept

/-! ## Commits and rollbacks -/

lemma Settled.step {part : Part} (h : Settled writer.store)
    (hpart : (∃ spent, part = .remove spent) ∨ ∃ output, part = .finalize output)
    (hstep : Step writer part last) : Settled last.store := by
  rcases hpart with ⟨spent, rfl⟩ | ⟨output, rfl⟩
  · cases hstep
    exact AllRows.leave h _ _
  · cases hstep with
    | finalizeFinal => exact h
    | finalizeSeen hrow htentative =>
      rw [(h _ _ _ hrow).1] at htentative
      cases htentative
    | finalize hrow hrecord =>
      refine AllRows.enter h ?_
      rw [OutputRecord.about_of_ok hrecord]
      exact ⟨rfl, rfl⟩

/-- An import into a settled store leaves it settled, as all that it puts is final and live. -/
lemma Settled.finished {index : Index} {outputs : List LedgerOutput} {state : Import}
    (h : Settled index.store) (hloads : Import.Loads (.start index) outputs state)
    (status : Status) : Settled (state.finished status) := by
  refine Import.finished_preserves (P := fun _ => Settled) ∅ (AllRows.seesRows _) ?_ hloads status h
  intro output _ _ writer record hrecord hsettled
  refine AllRows.enter hsettled ?_
  rw [OutputRecord.about_of_ok hrecord]
  exact ⟨rfl, rfl⟩

/-- A commit settles a store that lies within its slot. -/
lemma settled_of_commit {update : LedgerUpdate} (hready : writer.Ready)
    (h : Within update.slot writer.store)
    (hsteps : Steps writer (Operation.commit update).parts last) : Settled last.store := by
  cases hsteps with
  | cons hfirst hrest =>
    have hready' := hfirst.ready hready
    cases hfirst
    -- the sweep settles the store, and what comes after it puts final and live rows only
    refine hrest.preserves (P := fun _ => Settled) ∅ ?_ hready' (h.settle hready)
    intro part hpart _ _ _ _ hstep hsettled
    refine hsettled.step ?_ hstep
    rcases List.mem_append.1 hpart with hpart | hpart
    · obtain ⟨spent, -, rfl⟩ := List.mem_map.1 hpart
      exact .inl ⟨spent, rfl⟩
    · obtain ⟨output, -, rfl⟩ := List.mem_map.1 hpart
      exact .inr ⟨output, rfl⟩

/-- A rollback settles any store. -/
lemma settled_of_rollback (hready : writer.Ready)
    (hsteps : Steps writer Operation.rollback.parts last) : Settled last.store := by
  cases hsteps with
  | cons hfirst hrest =>
    cases hfirst
    -- there is no slot beyond the last, so the sweep settles everything
    cases hrest with
    | cons hsecond hrest =>
      cases hsecond
      cases hrest
      have hsettled := (within_last writer.store).settle hready
      exact AllRows.of_row?_eq hsettled (sameRecords_purgeOrphans _).row?_eq

end Store

/-! ## Timely updates -/

/-- Nothing that an update lists is booked beyond a slot or spent beyond it. -/
def LedgerUpdate.Timely (update : LedgerUpdate) (slot : Slot) : Prop :=
  (∀ spent ∈ update.consumed, spent.output.bookedAt ≤ slot ∧ spent.spentAt ≤ slot) ∧
    ∀ output ∈ update.created, output.bookedAt ≤ slot

lemma LedgerUpdate.Timely.mono {update : LedgerUpdate} {slot slot' : Slot}
    (h : update.Timely slot) (hle : slot ≤ slot') : update.Timely slot' :=
  ⟨fun spent hspent => ⟨UInt32.le_trans (h.1 spent hspent).1 hle,
      UInt32.le_trans (h.1 spent hspent).2 hle⟩,
    fun output houtput => UInt32.le_trans (h.2 output houtput) hle⟩

namespace Store

variable {writer last : Writer} {slot : Slot}

/-- Steps keep a store within a slot as long as what they mark and propose lies within it. -/
lemma Within.step {part : Part} (h : Within slot writer.store) (hready : writer.Ready)
    (hmark : ∀ spent, part = .mark spent → spent.output.bookedAt ≤ slot ∧ spent.spentAt ≤ slot)
    (hpropose : ∀ output, part = .propose output → output.bookedAt ≤ slot)
    (hstep : Step writer part last) : Within slot last.store := by
  cases hstep with
  | settle s =>
    refine AllRows.settle h hready ?_
    rintro record left ⟨hbooked, hspent⟩ hswept
    obtain ⟨-, rfl⟩ := OutputRecord.swept_eq_some_iff.1 hswept
    unfold OutputRecord.unmarked
    split
    · rw [OutputRecord.about_spentAt]
      exact ⟨hbooked, UInt32.zero_le⟩
    · exact ⟨hbooked, hspent⟩
  | mark hrow =>
    refine AllRows.putRecord h ?_
    rw [OutputRecord.about_spentAt]
    exact ⟨(h _ _ _ hrow).1, (hmark _ rfl).2⟩
  | markUnseen hrow hrecord =>
    refine AllRows.enter h ?_
    rw [OutputRecord.about_spentAt, OutputRecord.about_of_ok hrecord]
    exact ⟨fun _ => (hmark _ rfl).1, (hmark _ rfl).2⟩
  | remove spent => exact AllRows.leave h _ _
  | propose hrow hrecord =>
    refine AllRows.enter h ?_
    rw [OutputRecord.about_of_ok hrecord]
    exact ⟨fun _ => hpropose _ rfl, UInt32.zero_le⟩
  | finalizeSeen hrow =>
    refine AllRows.putRecord h ?_
    rw [OutputRecord.about_finalized]
    exact ⟨nofun, (h _ _ _ hrow).2⟩
  | finalize hrow hrecord =>
    refine AllRows.enter h ?_
    rw [OutputRecord.about_of_ok hrecord]
    exact ⟨nofun, UInt32.zero_le⟩
  | purge => exact AllRows.of_row?_eq h (sameRecords_purgeOrphans _).row?_eq
  | markSame | proposeSeen | finalizeFinal => exact h

/-- An operation keeps a store within a slot if the update that it accepts is timely. -/
lemma Within.stepsKeep {operation : Operation}
    (h : ∀ update, operation.accepted? = some update → update.Timely slot) :
    Index.StepsKeep (fun _ => Within slot) operation := by
  intro part hpart _ writer last hready hstep hwithin
  refine hwithin.step hready ?_ ?_ hstep
  · rintro spent rfl
    obtain ⟨update, rfl, hspent⟩ := Operation.accept_of_mark_mem_parts hpart
    exact (h update rfl).1 spent (LedgerUpdate.mem_netConsumed_iff.1 hspent).1
  · rintro output rfl
    obtain ⟨update, rfl, houtput⟩ := Operation.accept_of_propose_mem_parts hpart
    exact (h update rfl).2 output (LedgerUpdate.mem_netCreated_iff.1 houtput).1

end Store

/-- A commit that succeeds settles an index that lies within its slot. -/
lemma Index.settled_after_commit {index : Index} {update : LedgerUpdate}
    (hexact : index.store.Exact) (hwithin : Store.Within update.slot index.store)
    (hsucceeds : index.succeeds (.commit update) = true) :
    (index.after (.commit update)).store.Settled := by
  obtain ⟨status, writer, hcommits, hafter⟩ := commits_of_succeeds hsucceeds
  have hready := Writer.ready_start hexact index.fault
  have hsettled : writer.store.Settled :=
    Store.settled_of_commit hready hwithin (.of_run hcommits.parts)
  rw [hafter]
  exact Store.AllRows.of_row?_eq hsettled fun _ _ => rfl

end OutputIndex
