import Mathlib.Data.Set.Insert
import OutputIndex.Table

/-!
# Keys of ordered tables

The tables that stand beside the rows of a store are sets of keys, so all that is ever asked of them
is which keys they hold and in which order they are walked.  This file says what each operation does
to the keys: `KeySet.mem_add`, `KeySet.mem_erase` and their forms for lists.  A set of keys is
determined by its keys (`KeySet.ext_keys`), and they are walked in strictly increasing order
(`Table.sorted_keys`).
-/

namespace OutputIndex

namespace Table

variable {κ α : Type} [TableKey κ]

lemma mem_keys_iff {table : Table κ α} {key : κ} :
    key ∈ table.keys ↔ ∃ value, table.get? key = some value := by
  constructor
  · intro h
    obtain ⟨⟨k, value⟩, hmem, rfl⟩ := List.mem_map.1 h
    exact ⟨value, table.get?_eq_some_iff_mem.2 hmem⟩
  · rintro ⟨value, h⟩
    exact List.mem_map.2 ⟨(key, value), table.get?_eq_some_iff_mem.1 h, rfl⟩

lemma mem_values_iff {table : Table κ α} {value : α} :
    value ∈ table.values ↔ ∃ key, table.get? key = some value := by
  constructor
  · intro h
    obtain ⟨⟨key, v⟩, hmem, rfl⟩ := List.mem_map.1 h
    exact ⟨key, table.get?_eq_some_iff_mem.2 hmem⟩
  · rintro ⟨key, h⟩
    exact List.mem_map.2 ⟨(key, value), table.get?_eq_some_iff_mem.1 h, rfl⟩

lemma get?_filter {table : Table κ α} {keep : κ → α → Bool} {key : κ} {value : α} :
    (table.filter keep).get? key = some value ↔
      table.get? key = some value ∧ keep key value = true := by
  rw [get?_eq_some_iff_mem, get?_eq_some_iff_mem]
  exact List.mem_filter

/-- The keys are walked in strictly increasing order. -/
lemma sorted_keys (table : Table κ α) :
    table.keys.Pairwise fun a b => TableKey.before a b = true :=
  List.pairwise_map.2 table.sorted

end Table

namespace KeySet

variable {κ : Type} [TableKey κ]

lemma mem_keys_iff {set : KeySet κ} {key : κ} : key ∈ set.keys ↔ set.get? key = some () := by
  rw [Table.mem_keys_iff]
  exact ⟨fun ⟨_, h⟩ => h, fun h => ⟨(), h⟩⟩

/-- Two sets with the same keys are the same. -/
lemma ext_keys {s t : KeySet κ} (h : ∀ key, key ∈ s.keys ↔ key ∈ t.keys) : s = t := by
  refine Table.ext_get? fun key => ?_
  have hkey := h key
  rw [mem_keys_iff, mem_keys_iff] at hkey
  exact Option.ext fun _ => hkey

@[simp] lemma keys_empty : (Table.empty : KeySet κ).keys = [] := rfl

lemma mem_filter {set : KeySet κ} {keep : κ → Unit → Bool} {key : κ} :
    key ∈ (set.filter keep).keys ↔ key ∈ set.keys ∧ keep key () = true := by
  rw [mem_keys_iff, mem_keys_iff]
  exact Table.get?_filter

variable [DecidableEq κ]

lemma mem_add {set : KeySet κ} {key k : κ} :
    k ∈ (set.add key).keys ↔ k = key ∨ k ∈ set.keys := by
  rw [mem_keys_iff, mem_keys_iff, add, Table.get?_insert]
  by_cases hk : k = key <;> simp [hk]

lemma mem_erase {set : KeySet κ} {key k : κ} :
    k ∈ (Table.erase set key).keys ↔ k ≠ key ∧ k ∈ set.keys := by
  rw [mem_keys_iff, mem_keys_iff, Table.get?_erase]
  by_cases hk : k = key <;> simp [hk]

lemma mem_addAll {set : KeySet κ} {keys : List κ} {k : κ} :
    k ∈ (set.addAll keys).keys ↔ k ∈ keys ∨ k ∈ set.keys := by
  induction keys generalizing set with
  | nil => simp [addAll]
  | cons key rest ih =>
    rw [show set.addAll (key :: rest) = (set.add key).addAll rest from rfl, ih, mem_add,
      List.mem_cons, or_left_comm, or_assoc]

lemma mem_keys_ofList {keys : List κ} {k : κ} : k ∈ (ofList keys).keys ↔ k ∈ keys := by
  simp [ofList, mem_addAll]

lemma mem_eraseAll {set : KeySet κ} {keys : List κ} {k : κ} :
    k ∈ (set.eraseAll keys).keys ↔ k ∉ keys ∧ k ∈ set.keys := by
  induction keys generalizing set with
  | nil => simp [eraseAll]
  | cons key rest ih =>
    rw [show set.eraseAll (key :: rest) = eraseAll (Table.erase set key) rest from rfl, ih,
      mem_erase, List.mem_cons, not_or, ne_eq, and_left_comm, and_assoc]

end KeySet

end OutputIndex
