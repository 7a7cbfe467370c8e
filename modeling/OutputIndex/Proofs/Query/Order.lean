import Mathlib.Data.List.Basic
import OutputIndex.Query

/-!
# Query order and merging

The places of a query are put in order by merging lists that are in order already.  Such a merge is
the sorted form of all places together (`SortKey.mergeAll_eq_mergeSort`).  Its first places depend
only on the first places of each list (`SortKey.take_mergeAll`), so that each list may be cut before
they are merged.
-/

namespace OutputIndex

namespace SortKey

open TableKey (before before_trans before_asymm before_or_eq eq_of_not_before)

/-! ## The order -/

lemma le_iff {a b : SortKey} : le a b = true ↔ before b a = false := by
  rw [le, Bool.not_eq_true']

lemma le_of_before {a b : SortKey} (h : before a b = true) : le a b = true :=
  le_iff.2 (before_asymm h)

lemma le_trans (a b c : SortKey) (hab : le a b = true) (hbc : le b c = true) :
    le a c = true := by
  rcases before_or_eq (le_iff.1 hab) with hlt | rfl
  · rcases before_or_eq (le_iff.1 hbc) with hlt' | rfl
    · exact le_of_before (before_trans a b c hlt hlt')
    · exact hab
  · exact hbc

lemma le_total (a b : SortKey) : (le a b || le b a) = true := by
  cases h : before a b with
  | true => rw [le_of_before h, Bool.true_or]
  | false => rw [le_iff.2 h, Bool.or_true]

lemma le_antisymm {a b : SortKey} (hab : le a b = true) (hba : le b a = true) : a = b :=
  eq_of_not_before a b (le_iff.1 hba) (le_iff.1 hab)

/-- Some places are in query order. -/
def InOrder (places : List SortKey) : Prop := places.Pairwise fun a b => le a b = true

variable {rows : List (List SortKey)} {xs ys : List SortKey}

/-- Places in order are the sorted form of any list of the same places. -/
lemma InOrder.eq_mergeSort (h : InOrder xs) (hperm : xs.Perm ys) : xs = ys.mergeSort le :=
  (hperm.trans (List.mergeSort_perm ys le).symm).eq_of_pairwise
    (fun _ _ _ _ hab hba => le_antisymm hab hba) h
    (List.pairwise_mergeSort le_trans le_total ys)

/-! ## Merging -/

lemma mergeAll_cons (row : List SortKey) (rows : List (List SortKey)) :
    mergeAll (row :: rows) = row.merge (mergeAll rows) le := rfl

lemma mergeAll_perm (rows : List (List SortKey)) : (mergeAll rows).Perm rows.flatten := by
  induction rows with
  | nil => exact .nil
  | cons row rest ih =>
    rw [mergeAll_cons, List.flatten_cons]
    exact (List.merge_perm_append le).trans (ih.append_left row)

lemma inOrder_mergeAll (h : ∀ row ∈ rows, InOrder row) : InOrder (mergeAll rows) := by
  induction rows with
  | nil => exact .nil
  | cons row rest ih =>
    refine List.pairwise_merge le_trans le_total _ _ (h row List.mem_cons_self) (ih ?_)
    exact fun other hother => h other (List.mem_cons_of_mem _ hother)

/-- Sorting forgets how places were arranged before. -/
lemma mergeSort_eq_of_perm (hperm : xs.Perm ys) : xs.mergeSort le = ys.mergeSort le := by
  have hsorted : InOrder (xs.mergeSort le) := List.pairwise_mergeSort le_trans le_total xs
  exact hsorted.eq_mergeSort ((List.mergeSort_perm xs le).trans hperm)

/-- Merging lists in order sorts all their places together. -/
theorem mergeAll_eq_mergeSort (h : ∀ row ∈ rows, InOrder row) :
    mergeAll rows = rows.flatten.mergeSort le :=
  (inOrder_mergeAll h).eq_mergeSort (mergeAll_perm rows)

/-- The first places of a merge only depend on as many first places of each list. -/
lemma take_merge (n : Nat) {i j : Nat} (hi : n ≤ i) (hj : n ≤ j) (xs ys : List SortKey) :
    ((xs.take i).merge (ys.take j) le).take n = (xs.merge ys le).take n := by
  induction n generalizing i j xs ys with
  | zero => simp
  | succ n ih =>
    obtain ⟨i, rfl⟩ := Nat.exists_eq_add_of_le' hi
    obtain ⟨j, rfl⟩ := Nat.exists_eq_add_of_le' hj
    cases xs with
    | nil => simp [List.take_take]
    | cons x xs =>
      cases ys with
      | nil => simp [List.take_take]
      | cons y ys =>
        rw [← Nat.add_assoc, ← Nat.add_assoc, List.take_succ_cons, List.take_succ_cons,
          List.cons_merge_cons, List.cons_merge_cons]
        -- the list that keeps its first place has one place more than is still needed
        split
        · have hrest := ih (i := i + n) (j := j + n + 1) (by omega) (by omega) xs (y :: ys)
          exact congrArg (List.cons x) hrest
        · have hrest := ih (i := i + n + 1) (j := j + n) (by omega) (by omega) (x :: xs) ys
          exact congrArg (List.cons y) hrest

/-- The first places of all lists together are found among the first places of each. -/
theorem take_mergeAll (n : Nat) (rows : List (List SortKey)) :
    (mergeAll (rows.map (·.take n))).take n = (mergeAll rows).take n := by
  induction rows with
  | nil => rfl
  | cons row rest ih =>
    have hn := Nat.le_refl n
    rw [List.map_cons, mergeAll_cons, mergeAll_cons, ← take_merge n hn hn (row.take n), ih,
      List.take_take, Nat.min_self, take_merge n hn hn]

end SortKey

end OutputIndex
