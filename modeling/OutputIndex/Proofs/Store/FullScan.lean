import OutputIndex.Proofs.Store.Complete
import OutputIndex.Proofs.Store.Sweep

/-!
# Sweeps and full scans

A sweep never looks at the rows to find out which of them it is about: it walks a table of places
from its start to the last place that the slot can have (`Store.range`), and goes to the rows that
these places name.  A full scan looks at every row instead.  Since no place of a later slot comes
before that bound the walk comes to all places up to the slot (`Store.range_eq_upTo`), and where the
tables beside the rows are exact these are the places of the rows that a full scan would find, each
of them once.

What the two sweeps should make of a writer is stated as `Writer.Discards` and `Writer.Revives`.
The main statement is `Transaction.sweeps_eq_fullScans`: an ordinary writer comes out of them so at
any time, if the tables of its store were complete or once it has built them, and a second sweep up
to the same slot finds nothing to do.  On a store whose tables a bulk import has dropped and nobody
has built, a sweep overlooks rows (`Transaction.lapsed_row_stays_sampleBare`).
-/

namespace OutputIndex

/-- If a condition holds of all that comes before something of which it holds, the elements of which
it holds come first. -/
lemma filter_eq_takeWhile {α : Type} {p : α → Bool} {list : List α}
    (h : list.Pairwise fun a b => p b = true → p a = true) :
    list.filter p = list.takeWhile p := by
  induction list with
  | nil => rfl
  | cons a rest ih =>
    obtain ⟨hfirst, hrest⟩ := List.pairwise_cons.1 h
    by_cases ha : p a = true
    · rw [List.filter_cons_of_pos ha, List.takeWhile_cons_of_pos ha, ih hrest]
    · rw [List.filter_cons_of_neg ha, List.takeWhile_cons_of_neg ha]
      exact List.filter_eq_nil_iff.2 fun b hb hpb => ha (hfirst b hb hpb)

/-! ## The range that a sweep walks -/

namespace Store

variable {slot : Slot} {place : TrackedKey}

/-- What places among unsettled rows are compared by: the slot, the byte of the kind, and the bytes
of the identifier. -/
def trackedBytes (place : TrackedKey) : Slot × UInt8 × Bytes :=
  (place.1, place.2.1.tag, place.2.2.toList)

/-- The bound of a slot: the last that one of its places could be compared by.  No kind has this
byte. -/
def lastOf (slot : Slot) : Slot × UInt8 × Bytes := (slot, 255, .replicate 38 255)

/-- The rows that a walk through a table of unsettled rows comes to, from its start to the bound of
a slot. -/
def range (slot : Slot) (table : Option (KeySet TrackedKey)) : List (OutputKind × OutputId) :=
  ((table.getD .empty).keys.takeWhile fun place =>
    !TableKey.before (lastOf slot) (trackedBytes place)).map (·.2)

/-- Places are in the order of what they are compared by. -/
lemma before_trackedBytes (place other : TrackedKey) :
    TableKey.before (trackedBytes place) (trackedBytes other) = TableKey.before place other :=
  rfl

/-- The bound of a slot lies behind all places of the slot and before all later ones. -/
lemma before_lastOf_iff :
    TableKey.before (lastOf slot) (trackedBytes place) = true ↔ slot < place.1 := by
  obtain ⟨s, kind, id⟩ := place
  have hbyte : TableKey.before (255, List.replicate 38 255) (kind.tag, id.toList) = false := by
    cases kind <;> rfl
  refine TableKey.pairBefore_iff.trans ?_
  simp only [lastOf, trackedBytes]
  rw [hbyte]
  simp [TableKey.before, UInt32.lt_iff_toNat_lt]

/-- The range of a slot holds all rows up to the slot: the walk ends where they do. -/
lemma range_eq_upTo (slot : Slot) (table : Option (KeySet TrackedKey)) :
    range slot table = Writer.upTo slot (table.getD .empty) := by
  have hbound : (fun place => !TableKey.before (lastOf slot) (trackedBytes place)) =
      fun place : TrackedKey => decide (place.1 ≤ slot) := by
    funext place
    rw [Bool.eq_iff_iff, Bool.not_eq_true', ← Bool.not_eq_true, before_lastOf_iff,
      decide_eq_true_iff, UInt32.not_lt]
  have hfirst : (table.getD .empty).keys.Pairwise fun a b =>
      (!TableKey.before (lastOf slot) (trackedBytes b)) = true →
        (!TableKey.before (lastOf slot) (trackedBytes a)) = true := by
    refine (table.getD .empty).sorted_keys.imp fun {a b} hbefore hb => ?_
    -- what lies behind the bound is followed by nothing but what lies behind it
    rw [Bool.not_eq_true', ← Bool.not_eq_true] at hb ⊢
    intro ha
    rw [← before_trackedBytes] at hbefore
    exact hb (TableKey.before_trans _ _ _ ha hbefore)
  rw [range, ← filter_eq_takeWhile hfirst, hbound, Writer.upTo]

end Store

namespace Writer

variable {writer : Writer} {slot : Slot}

/-! ## Sweeps as full scans -/

/-- A writer comes out of discarding up to a slot with the identifiers that are reported: what a
look at every row would give. -/
structure Discards (writer : Writer) (slot : Slot) (ids : List OutputId) (last : Writer) :
    Prop where
  /-- The walk through the table of tentative rows comes to the rows that lapse. -/
  visits : (Store.range slot writer.store.uncommitted).Perm
    ((writer.store.allRows.filter fun record => record.Lapses slot).map (·.place))
  /-- There is one identifier for each row that lapses. -/
  ids : ids.Perm
    ((writer.store.allRows.filter fun record => record.Lapses slot).map (·.outputId))
  /-- These rows are gone, and all others are as they were. -/
  rows : ∀ kind id, last.store.row? kind id =
    (writer.store.row? kind id).filter fun record => !decide (record.Lapses slot)
  others : RowsOnly writer last
  exact : last.store.Exact

/-- A writer comes out of reviving up to a slot with the number that is reported: what a look at
every row would give. -/
structure Revives (writer : Writer) (slot : Slot) (count : Nat) (last : Writer) : Prop where
  /-- The walk through the table of spent rows comes to the rows marked up to the slot. -/
  visits : (Store.range slot writer.store.spent).Perm
    ((writer.store.allRows.filter fun record => record.Marked slot).map (·.place))
  /-- The rows marked up to the slot are counted. -/
  count : count = (writer.store.allRows.filter fun record => record.Marked slot).length
  /-- These rows are live and otherwise as they were, and so are all others. -/
  rows : ∀ kind id, last.store.row? kind id = (writer.store.row? kind id).map fun record =>
    if record.Marked slot then record.spentAt 0 else record
  others : RowsOnly writer last
  exact : last.store.Exact

namespace Ready

lemma discards (h : writer.Ready) (slot : Slot) :
    writer.Discards slot (writer.discard slot).1 (writer.discard slot).2 where
  visits := by
    rw [Store.range_eq_upTo]
    exact upTo_uncommitted_perm h.exact slot
  ids := fst_discard_perm h.exact slot
  rows := row?_discard h.exact slot
  others := rowsOnly_discard writer slot
  exact := (h.discard slot).exact

lemma revives (h : writer.Ready) (slot : Slot) :
    writer.Revives slot (writer.revive slot).1 (writer.revive slot).2 where
  visits := by
    rw [Store.range_eq_upTo]
    exact upTo_spent_perm h.exact slot
  count := fst_revive_eq h.exact slot
  rows kind id := by
    rw [row?_revive h.exact]
    exact congrArg (fun f => Option.map f (writer.store.row? kind id))
      (funext fun record => record.unmarked_eq_ite slot)
  others := rowsOnly_revive writer slot
  exact := (h.revive slot).exact

/-! ## Sweeping again -/

lemma discard_eq_self (h : writer.Ready)
    (hnone : ∀ record ∈ writer.store.allRows, ¬record.Lapses slot) :
    writer.discard slot = ([], writer) := by
  have hfilter : (writer.store.allRows.filter fun record => record.Lapses slot) = [] := by
    simpa using hnone
  have hplaces := upTo_uncommitted_perm h.exact slot
  rw [hfilter, List.map_nil, List.perm_nil] at hplaces
  rw [discard_eq h.exact, hplaces, List.foldl_nil]

lemma revive_eq_self (h : writer.Ready)
    (hnone : ∀ record ∈ writer.store.allRows, ¬record.Marked slot) :
    writer.revive slot = (0, writer) := by
  have hfilter : (writer.store.allRows.filter fun record => record.Marked slot) = [] := by
    simpa using hnone
  have hplaces := upTo_spent_perm h.exact slot
  rw [hfilter, List.map_nil, List.perm_nil] at hplaces
  rw [revive_eq h.exact, hplaces, List.foldl_nil]

/-- After both sweeps no row lapses or is marked up to the slot. -/
lemma settled_of_mem (h : writer.Ready) {left : OutputRecord}
    (hleft : left ∈ ((writer.discard slot).2.revive slot).2.store.allRows) :
    ¬left.Lapses slot ∧ ¬left.Marked slot := by
  obtain ⟨kind, id, hrow⟩ := Store.mem_allRows_iff.1 hleft
  rw [row?_revive (h.discard slot).exact, row?_discard h.exact, Option.map_eq_some_iff] at hrow
  obtain ⟨record, hrecord, rfl⟩ := hrow
  have hstays : ¬record.Lapses slot := by simpa using (Option.filter_eq_some_iff.1 hrecord).2
  exact ⟨OutputRecord.not_lapses_unmarked hstays, record.not_marked_unmarked slot⟩

end Ready

end Writer

/-- Discards the rows that lapse up to a slot, then takes back the marks up to it. -/
def WriteM.sweep (slot : Slot) : WriteM (List OutputId × Nat) := do
  let ids ← discardUncommitted slot
  let count ← revertSpent slot
  return (ids, count)

lemma WriteM.run_sweep (slot : Slot) (writer : Writer) :
    (sweep slot).run writer =
      .ok (((writer.discard slot).1, ((writer.discard slot).2.revive slot).1),
        ((writer.discard slot).2.revive slot).2) :=
  rfl

lemma Writer.Ready.sweep_again {writer : Writer} (h : writer.Ready) (slot : Slot) :
    ∃ report last, (WriteM.sweep slot).run writer = .ok (report, last) ∧
      (WriteM.sweep slot).run last = .ok (([], 0), last) := by
  have hlast := (h.discard slot).revive slot
  have hdiscard := hlast.discard_eq_self fun record hrecord => (h.settled_of_mem hrecord).1
  have hrevive := hlast.revive_eq_self fun record hrecord => (h.settled_of_mem hrecord).2
  refine ⟨_, _, WriteM.run_sweep slot writer, ?_⟩
  rw [WriteM.run_sweep, hdiscard, hrevive]

namespace Transaction

/-- **A sweep by the tables of unsettled rows does what a full scan would.**  At any time an
ordinary writer on a store with complete tables, or one that has built them, discards exactly the
tentative rows booked up to a slot and reports one identifier for each, and it takes back exactly
the marks up to a slot and reports how many; the tables stay exact.  A second sweep changes
nothing. -/
theorem sweeps_eq_fullScans (transactions : List Transaction) (calls : List Writer.Call)
    (fault : Fault) (slot : Slot)
    (h : complete transactions = true ∨ Writer.Call.buildIndexes ∈ calls) :
    let writer := calls.foldl Writer.after (.start (transactions.foldl apply .empty) fault)
    (∃ ids last, (WriteM.discardUncommitted slot).run writer = .ok (ids, last) ∧
      writer.Discards slot ids last) ∧
    (∃ count last, (WriteM.revertSpent slot).run writer = .ok (count, last) ∧
      writer.Revives slot count last) ∧
    ∃ report last, (WriteM.sweep slot).run writer = .ok (report, last) ∧
      (WriteM.sweep slot).run last = .ok (([], 0), last) := by
  intro writer
  have hready : writer.Ready := ready_foldl_after transactions calls fault h
  refine ⟨?_, ?_, hready.sweep_again slot⟩
  · exact ⟨_, _, rfl, hready.discards slot⟩
  · exact ⟨_, _, rfl, hready.revives slot⟩

/-- An import of a tentative record that commits without having built the tables. -/
def sampleBare : Transaction := ⟨true, [.writeOutput sampleRecord], .none, true⟩

/-- Calls that build the tables and add a spent row of another kind for the same output. -/
def sampleRepair : List Writer.Call :=
  [.buildIndexes,
    .writeOutput (.foundry {
      about := { sampleRecord.about with deletedAtSlot := 5 }
      foundryId := ⟨.replicate 38 7⟩
      accountAddress := Sample.Holder.alice.key
      nativeToken := true })]

/-- The writer of the sample calls after the sample import. -/
def sampleRepaired : Writer :=
  sampleRepair.foldl Writer.after (.start ([sampleBare].foldl apply .empty) .none)

/-- Once the tables are built, discarding finds the row of the import as well. -/
theorem sweeps_sampleRepair :
    Writer.Call.buildIndexes ∈ sampleRepair ∧
      ∃ last, (WriteM.discardUncommitted 5).run sampleRepaired =
        .ok ([Sample.outputId 5 0, Sample.outputId 5 0], last) := by
  have hbuilds : Writer.Call.buildIndexes ∈ sampleRepair := List.mem_cons_self
  refine ⟨hbuilds, ?_⟩
  obtain ⟨⟨ids, last, hrun, hdiscards⟩, -⟩ :=
    sweeps_eq_fullScans [sampleBare] sampleRepair .none 5 (.inr hbuilds)
  have hlapsing : (sampleRepaired.store.allRows.filter fun record => record.Lapses 5).map
      (·.outputId) = List.replicate 2 (Sample.outputId 5 0) := by rfl
  have hids : ids.Perm (List.replicate 2 (Sample.outputId 5 0)) := hlapsing ▸ hdiscards.ids
  obtain rfl : ids = [Sample.outputId 5 0, Sample.outputId 5 0] := List.perm_replicate.1 hids
  exact ⟨last, hrun⟩

/-- On a store whose tables an import has dropped, discarding overlooks a row that lapses. -/
theorem lapsed_row_stays_sampleBare :
    let writer := Writer.start ([sampleBare].foldl apply .empty) .none
    writer.store.row? .account (Sample.outputId 5 0) = some sampleRecord ∧
      sampleRecord.Lapses 5 ∧
      ∃ last, (WriteM.discardUncommitted 5).run writer = .ok ([], last) ∧
        last.store.row? .account (Sample.outputId 5 0) = some sampleRecord := by
  intro writer
  have hrow : writer.store.row? .account (Sample.outputId 5 0) = some sampleRecord := by
    have hput : writer.store =
        ((Writer.startImport .empty .none).putRecord sampleRecord).store := rfl
    rw [hput, Writer.row?_putRecord]
    exact if_pos ⟨rfl, rfl⟩
  have hmissing : writer.store.uncommitted = none := rfl
  have hrun : (WriteM.discardUncommitted 5).run writer = .ok (writer.discard 5) := rfl
  refine ⟨hrow, by decide, writer.openUncommitted, ?_, hrow⟩
  rw [hrun, Writer.discard_of_missing hmissing]

end Transaction

end OutputIndex
