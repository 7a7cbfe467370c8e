import Mathlib.Data.List.Perm.Basic
import OutputIndex.Proofs.Record
import OutputIndex.Proofs.Store.Writer

/-!
# Sweeps

A sweep up to a slot takes out tentative rows and takes back marks, and it goes by the tables of
tentative and of spent rows only.  Where the store is exact these tables are right, so a sweep does
to the rows what a look at every row would do: `Writer.row?_discard` and `Writer.row?_revive` say
what becomes of each row.  It goes to each row once, so `Writer.fst_discard_perm` gives the outputs
that are reported and `Writer.fst_revive_eq` the number that is.
-/

namespace OutputIndex

namespace OutputRecord

variable {record : OutputRecord} {slot : Slot}

/-- Whether a sweep up to a slot takes out the row. -/
def Lapses (record : OutputRecord) (slot : Slot) : Prop :=
  record.about.committed = false ∧ record.about.createdAtSlot ≤ slot

instance (record : OutputRecord) (slot : Slot) : Decidable (record.Lapses slot) :=
  inferInstanceAs (Decidable (_ ∧ _))

/-- The record without a mark up to a slot. -/
def unmarked (record : OutputRecord) (slot : Slot) : OutputRecord :=
  if record.about.deletedAtSlot ≤ slot then record.spentAt 0 else record

/-- What a sweep up to a slot leaves of a row. -/
def swept (slot : Slot) (record : OutputRecord) : Option OutputRecord :=
  if record.Lapses slot then none else some (record.unmarked slot)

lemma swept_eq_some_iff {record left : OutputRecord} {slot : Slot} :
    record.swept slot = some left ↔ ¬record.Lapses slot ∧ record.unmarked slot = left := by
  unfold swept
  split <;> simp [*]

/-- Whether a sweep up to a slot takes back the mark of the row. -/
def Marked (record : OutputRecord) (slot : Slot) : Prop :=
  0 < record.about.deletedAtSlot ∧ record.about.deletedAtSlot ≤ slot

instance (record : OutputRecord) (slot : Slot) : Decidable (record.Marked slot) :=
  inferInstanceAs (Decidable (_ ∧ _))

lemma unmarked_eq_ite (record : OutputRecord) (slot : Slot) :
    record.unmarked slot = if record.Marked slot then record.spentAt 0 else record := by
  unfold unmarked Marked
  by_cases hzero : record.about.deletedAtSlot = 0
  · -- a live row has no mark, and taking it back would change nothing
    have hsame : record.spentAt 0 = record := by rw [← hzero, record.spentAt_deletedAtSlot]
    simp [hsame]
  · have hpos : 0 < record.about.deletedAtSlot := UInt32.pos_iff_ne_zero.2 hzero
    simp [hpos]

lemma not_lapses_unmarked (h : ¬record.Lapses slot) : ¬(record.unmarked slot).Lapses slot := by
  unfold unmarked
  split
  · rwa [Lapses, about_spentAt]
  · exact h

lemma not_marked_unmarked (record : OutputRecord) (slot : Slot) :
    ¬(record.unmarked slot).Marked slot := by
  rw [unmarked_eq_ite]
  split
  · rw [Marked, about_spentAt]
    exact fun h => absurd h.1 (by simp)
  · assumption

end OutputRecord

namespace Writer

variable {writer : Writer} {kind : OutputKind} {id : OutputId} {slot : Slot}

/-! ## Through a list of places -/

lemma row?_foldl_discardRow (places : List (OutputKind × OutputId))
    (state : List OutputId × Writer) (kind : OutputKind) (id : OutputId) :
    (places.foldl discardRow state).2.store.row? kind id =
      if (kind, id) ∈ places then none else state.2.store.row? kind id := by
  induction places generalizing state with
  | nil => simp
  | cons place rest ih =>
    rw [List.foldl_cons, ih, discardRow_snd, row?_takeRecord]
    by_cases hrest : (kind, id) ∈ rest
    · simp [hrest]
    · simp [hrest, Prod.ext_iff]

/-- Discarding at places that are all different and all have rows reports an identifier for each. -/
lemma fst_foldl_discardRow {places : List (OutputKind × OutputId)} (hnodup : places.Nodup)
    (state : List OutputId × Writer)
    (hrows : ∀ place ∈ places, ∃ record, state.2.store.row? place.1 place.2 = some record) :
    (places.foldl discardRow state).1 = state.1 ++ places.map (·.2) := by
  induction places generalizing state with
  | nil => simp
  | cons place rest ih =>
    obtain ⟨hnew, hrest⟩ := List.nodup_cons.1 hnodup
    obtain ⟨record, hrecord⟩ := hrows place List.mem_cons_self
    have hstep : (discardRow state place).1 = state.1 ++ [place.2] := by
      have htaken := takeRecord_fst state.2 place.1 place.2
      unfold discardRow
      split
      · rfl
      · rename_i heq
        rw [heq, hrecord] at htaken
        cases htaken
    have hleft : ∀ other ∈ rest, ∃ row,
        (discardRow state place).2.store.row? other.1 other.2 = some row := by
      intro other hother
      obtain ⟨row, hrow⟩ := hrows other (List.mem_cons_of_mem _ hother)
      refine ⟨row, ?_⟩
      rw [discardRow_snd, row?_takeRecord, if_neg, hrow]
      rintro ⟨hkind, hid⟩
      exact hnew (Prod.ext hkind hid ▸ hother)
    rw [List.foldl_cons, ih hrest _ hleft, hstep, List.append_assoc]
    rfl

lemma row?_foldl_reviveRow (places : List (OutputKind × OutputId)) (state : Nat × Writer)
    (h : state.2.store.Keyed) (kind : OutputKind) (id : OutputId) :
    (places.foldl reviveRow state).2.store.row? kind id =
      if (kind, id) ∈ places then (state.2.store.row? kind id).map (·.spentAt 0)
      else state.2.store.row? kind id := by
  induction places generalizing state with
  | nil => simp
  | cons place rest ih =>
    obtain ⟨k, i⟩ := place
    rw [List.foldl_cons]
    cases hrow : state.2.store.row? k i with
    | none =>
      -- there is nothing to revive, and nothing to map at that place either
      have hstep : reviveRow state (k, i) = state := by simp [reviveRow, hrow]
      rw [hstep, ih _ h]
      by_cases hkey : kind = k ∧ id = i
      · obtain ⟨rfl, rfl⟩ := hkey
        simp [hrow]
      · simp [hkey]
    | some record =>
      -- the store is keyed, so the revived row is put where it was
      obtain ⟨rfl, rfl⟩ := h k i record hrow
      have hstep : reviveRow state (record.kind, record.outputId) =
          (state.1 + 1, state.2.putRecord (record.spentAt 0)) := by simp [reviveRow, hrow]
      have hkeyed := keyed_putRecord h (record.spentAt 0)
      rw [hstep, ih _ hkeyed, row?_putRecord]
      by_cases hkey : kind = record.kind ∧ id = record.outputId
      · obtain ⟨rfl, rfl⟩ := hkey
        simp [hrow]
      · simp [hkey]

/-- Reviving at places that all have rows counts them. -/
lemma fst_foldl_reviveRow (places : List (OutputKind × OutputId)) (state : Nat × Writer)
    (hrows : ∀ place ∈ places, ∃ record, state.2.store.row? place.1 place.2 = some record) :
    (places.foldl reviveRow state).1 = state.1 + places.length := by
  induction places generalizing state with
  | nil => rfl
  | cons place rest ih =>
    obtain ⟨record, hrecord⟩ := hrows place List.mem_cons_self
    have hstep : reviveRow state place = (state.1 + 1, state.2.putRecord (record.spentAt 0)) := by
      simp [reviveRow, hrecord]
    have hleft : ∀ other ∈ rest, ∃ row,
        (state.2.putRecord (record.spentAt 0)).store.row? other.1 other.2 = some row := by
      intro other hother
      rw [row?_putRecord]
      split
      · exact ⟨_, rfl⟩
      · exact hrows other (List.mem_cons_of_mem _ hother)
    rw [List.foldl_cons, hstep, ih _ hleft, List.length_cons]
    omega

/-! ## By the tables of rows that are not settled -/

lemma mem_upTo_iff {table : KeySet TrackedKey} :
    (kind, id) ∈ upTo slot table ↔ ∃ s ≤ slot, (s, kind, id) ∈ table.keys := by
  simp only [upTo, List.mem_map, List.mem_filter, decide_eq_true_eq]
  constructor
  · rintro ⟨⟨s, k, i⟩, ⟨hmem, hle⟩, heq⟩
    cases heq
    exact ⟨s, hle, hmem⟩
  · rintro ⟨s, hle, hmem⟩
    exact ⟨(s, kind, id), ⟨hmem, hle⟩, rfl⟩

/-- A table that tracks some rows under slots of theirs leads to those of them whose slots come up
to a slot. -/
lemma mem_upTo_tracked_iff {table : Option (KeySet TrackedKey)} {tracked : OutputRecord → Prop}
    {slotOf : OutputRecord → Slot} (hkeyed : writer.store.Keyed)
    (h : Store.Lists table fun place => ∃ record ∈ writer.store.rowSet,
      tracked record ∧ place = (slotOf record, record.kind, record.outputId)) :
    (kind, id) ∈ upTo slot (table.getD .empty) ↔
      ∃ record, writer.store.row? kind id = some record ∧ tracked record ∧
        slotOf record ≤ slot := by
  obtain ⟨set, rfl, hkeys⟩ := h
  rw [Option.getD_some, mem_upTo_iff]
  constructor
  · rintro ⟨s, hle, hmem⟩
    obtain ⟨record, hrecord, htracked, heq⟩ := (hkeys _).1 hmem
    cases heq
    exact ⟨record, hkeyed.mem_rowSet_iff.1 hrecord, htracked, hle⟩
  · rintro ⟨record, hrow, htracked, hle⟩
    obtain ⟨rfl, rfl⟩ := hkeyed _ _ _ hrow
    have hrecord : record ∈ writer.store.rowSet := hkeyed.mem_rowSet_iff.2 hrow
    exact ⟨_, hle, (hkeys _).2 ⟨record, hrecord, htracked, rfl⟩⟩

/-- It leads to each of them once. -/
lemma upTo_perm {table : Option (KeySet TrackedKey)} {tracked : OutputRecord → Prop}
    {slotOf : OutputRecord → Slot} {concerned : OutputRecord → Prop} [DecidablePred concerned]
    (hkeyed : writer.store.Keyed)
    (h : Store.Lists table fun place => ∃ record ∈ writer.store.rowSet,
      tracked record ∧ place = (slotOf record, record.kind, record.outputId))
    (hconcerned : ∀ record, concerned record ↔ tracked record ∧ slotOf record ≤ slot) :
    (upTo slot (table.getD .empty)).Perm
      ((writer.store.allRows.filter fun record => concerned record).map (·.place)) := by
  refine (List.perm_ext_iff_of_nodup ?_ ?_).2 ?_
  · obtain ⟨set, rfl, hkeys⟩ := h
    have hnodup : set.keys.Nodup := set.sorted_keys.imp fun hbefore heq => by
      rw [heq, TableKey.before_irrefl] at hbefore
      cases hbefore
    refine List.Nodup.map_on ?_ (hnodup.filter _)
    intro place hplace place' hplace' heq
    -- a row is tracked under one slot only, so where it lies tells its place in the table
    obtain ⟨r, hr, -, rfl⟩ := (hkeys place).1 (List.mem_filter.1 hplace).1
    obtain ⟨s, hs, -, rfl⟩ := (hkeys place').1 (List.mem_filter.1 hplace').1
    rw [hkeyed.eq_of_mem_rowSet hr hs (congrArg Prod.fst heq) (congrArg Prod.snd heq)]
  · exact hkeyed.nodup_map_place.sublist (List.filter_sublist.map _)
  · rintro ⟨kind, id⟩
    rw [mem_upTo_tracked_iff hkeyed h, List.mem_map]
    constructor
    · rintro ⟨record, hrow, hrecord⟩
      obtain ⟨rfl, rfl⟩ := hkeyed _ _ _ hrow
      have hmem : record ∈ writer.store.allRows := Store.mem_allRows_iff.2 ⟨_, _, hrow⟩
      exact ⟨record, by simpa [hmem] using (hconcerned record).2 hrecord, rfl⟩
    · rintro ⟨record, hmem, heq⟩
      cases heq
      obtain ⟨hrow, hrecord⟩ : record ∈ writer.store.allRows ∧ concerned record := by
        simpa using hmem
      exact ⟨record, hkeyed.mem_rowSet_iff.1 hrow, (hconcerned record).1 hrecord⟩

/-! ## Sweeps of exact stores -/

section Discard

/-- The table of tentative rows leads to those that a sweep takes out. -/
lemma mem_upTo_uncommitted_iff (h : writer.store.Exact) :
    (kind, id) ∈ upTo slot (writer.store.uncommitted.getD .empty) ↔
      ∃ record, writer.store.row? kind id = some record ∧ record.Lapses slot :=
  mem_upTo_tracked_iff h.keyed h.finds.uncommitted

lemma upTo_uncommitted_perm (h : writer.store.Exact) (slot : Slot) :
    (upTo slot (writer.store.uncommitted.getD .empty)).Perm
      ((writer.store.allRows.filter fun record => record.Lapses slot).map (·.place)) :=
  upTo_perm h.keyed h.finds.uncommitted fun _ => Iff.rfl

/-- Where the table of tentative rows is missing, discarding finds nothing. -/
lemma discard_of_missing (h : writer.store.uncommitted = none) :
    writer.discard slot = ([], writer.openUncommitted) := by
  show (upTo slot (writer.store.uncommitted.getD .empty)).foldl discardRow
    ([], writer.openUncommitted) = _
  rw [h]
  rfl

lemma discard_eq (h : writer.store.Exact) (slot : Slot) :
    writer.discard slot =
      (upTo slot (writer.store.uncommitted.getD .empty)).foldl discardRow ([], writer) := by
  show (upTo slot _).foldl discardRow ([], writer.openUncommitted) = _
  rw [openUncommitted_eq h]

/-- Discarding takes out the rows that lapse and no others. -/
lemma row?_discard (h : writer.store.Exact) (slot : Slot) (kind : OutputKind) (id : OutputId) :
    (writer.discard slot).2.store.row? kind id =
      (writer.store.row? kind id).filter fun record => !decide (record.Lapses slot) := by
  simp only [discard_eq h, row?_foldl_discardRow, mem_upTo_uncommitted_iff h]
  cases hrow : writer.store.row? kind id with
  | none => simp
  | some record => by_cases hlapses : record.Lapses slot <;> simp [hlapses, Option.filter_some]

/-- Discarding reports the output of each row that lapses, once for each row. -/
lemma fst_discard_perm (h : writer.store.Exact) (slot : Slot) :
    (writer.discard slot).1.Perm
      ((writer.store.allRows.filter fun record => record.Lapses slot).map (·.outputId)) := by
  have hperm := upTo_uncommitted_perm h slot
  have hnodup : (upTo slot (writer.store.uncommitted.getD .empty)).Nodup :=
    hperm.nodup_iff.2 (h.keyed.nodup_map_place.sublist (List.filter_sublist.map _))
  rw [discard_eq h, fst_foldl_discardRow hnodup, List.nil_append]
  · have hids := hperm.map Prod.snd
    rwa [List.map_map] at hids
  · intro place hplace
    obtain ⟨record, hrow, -⟩ := (mem_upTo_uncommitted_iff h).1 hplace
    exact ⟨record, hrow⟩

/-- Discarding reports the outputs whose rows lapse. -/
lemma mem_discard_iff (h : writer.store.Exact) :
    id ∈ (writer.discard slot).1 ↔
      ∃ kind record, writer.store.row? kind id = some record ∧ record.Lapses slot := by
  simp only [(fst_discard_perm h slot).mem_iff, List.mem_map, List.mem_filter, decide_eq_true_eq,
    Store.mem_allRows_iff]
  constructor
  · rintro ⟨record, ⟨⟨kind, i, hrow⟩, hlapses⟩, rfl⟩
    obtain ⟨rfl, rfl⟩ := h.keyed _ _ _ hrow
    exact ⟨_, record, hrow, hlapses⟩
  · rintro ⟨kind, record, hrow, hlapses⟩
    exact ⟨record, ⟨⟨kind, id, hrow⟩, hlapses⟩, (h.keyed _ _ _ hrow).2⟩

end Discard

section Revive

/-- The table of spent rows leads to those whose marks a sweep takes back. -/
lemma mem_upTo_spent_iff (h : writer.store.Exact) :
    (kind, id) ∈ upTo slot (writer.store.spent.getD .empty) ↔
      ∃ record, writer.store.row? kind id = some record ∧ record.Marked slot := by
  simp only [OutputRecord.Marked, UInt32.pos_iff_ne_zero]
  exact mem_upTo_tracked_iff h.keyed h.finds.spent

lemma upTo_spent_perm (h : writer.store.Exact) (slot : Slot) :
    (upTo slot (writer.store.spent.getD .empty)).Perm
      ((writer.store.allRows.filter fun record => record.Marked slot).map (·.place)) := by
  refine upTo_perm h.keyed h.finds.spent fun record => ?_
  rw [OutputRecord.Marked, UInt32.pos_iff_ne_zero]

lemma revive_eq (h : writer.store.Exact) (slot : Slot) :
    writer.revive slot =
      (upTo slot (writer.store.spent.getD .empty)).foldl reviveRow (0, writer) := by
  show (upTo slot _).foldl reviveRow (0, writer.openSpent) = _
  rw [openSpent_eq h]

/-- Reviving takes back the marks up to the slot and leaves all other rows alone. -/
lemma row?_revive (h : writer.store.Exact) (slot : Slot) (kind : OutputKind) (id : OutputId) :
    (writer.revive slot).2.store.row? kind id =
      (writer.store.row? kind id).map (·.unmarked slot) := by
  rw [revive_eq h, row?_foldl_reviveRow _ _ h.keyed]
  simp only [mem_upTo_spent_iff h]
  cases hrow : writer.store.row? kind id with
  | none => simp
  | some record =>
    by_cases hmarked : record.Marked slot <;> simp [OutputRecord.unmarked_eq_ite, hmarked]

/-- Reviving counts the rows that are marked up to the slot. -/
lemma fst_revive_eq (h : writer.store.Exact) (slot : Slot) :
    (writer.revive slot).1 =
      (writer.store.allRows.filter fun record => record.Marked slot).length := by
  rw [revive_eq h, fst_foldl_reviveRow, Nat.zero_add, (upTo_spent_perm h slot).length_eq,
    List.length_map]
  intro place hplace
  obtain ⟨record, hrow, -⟩ := (mem_upTo_spent_iff h).1 hplace
  exact ⟨record, hrow⟩

end Revive

end Writer

end OutputIndex
