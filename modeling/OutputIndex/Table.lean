import OutputIndex.Cursor

/-!
# Ordered tables

A table maps keys to values and is walked in the order of its keys.  It is the list of its entries
with strictly increasing keys, so two tables are equal as soon as they hold the same entries
(`Table.ext_get?`).  A set of keys is a table of nothing.

The order of keys is a class of its own, `TableKey`: bytes and numbers are compared by value, lists
lexicographically, and pairs by their first part and then by their second.
-/

namespace OutputIndex

/-! ## Keys -/

/-- A strict total order that can be decided. -/
class TableKey (κ : Type) where
  /-- Whether the first key comes before the second. -/
  before : κ → κ → Bool
  /-- No key comes before itself. -/
  before_irrefl : ∀ a, before a a = false
  /-- What comes before a key comes before all that the key comes before. -/
  before_trans : ∀ a b c, before a b = true → before b c = true → before a c = true
  /-- Of two different keys one comes before the other. -/
  eq_of_not_before : ∀ a b, before a b = false → before b a = false → a = b

namespace TableKey

variable {κ μ : Type}

/-- Of two keys at most one comes before the other. -/
theorem before_asymm [TableKey κ] {a b : κ} (h : before a b = true) : before b a = false := by
  cases hba : before b a with
  | false => rfl
  | true =>
    have haa := before_trans a b a h hba
    rw [before_irrefl] at haa
    cases haa

/-- A key that no other comes before comes before the other or is the same. -/
theorem before_or_eq [TableKey κ] {a b : κ} (h : before b a = false) :
    before a b = true ∨ a = b := by
  cases hab : before a b with
  | true => exact .inl rfl
  | false => exact .inr (eq_of_not_before a b hab h)

/-- What is compared by a key first, and by something else where the keys are the same. -/
theorem lex_iff [TableKey κ] {a b : κ} {rest : Prop} :
    (before a b = true ∨ before b a = false ∧ rest) ↔ before a b = true ∨ a = b ∧ rest := by
  constructor
  · rintro (h | ⟨h, hrest⟩)
    · exact .inl h
    · rcases before_or_eq h with h | rfl
      · exact .inl h
      · exact .inr ⟨rfl, hrest⟩
  · rintro (h | ⟨rfl, hrest⟩)
    · exact .inl h
    · exact .inr ⟨before_irrefl a, hrest⟩

/-- Keys compared by a number that determines them. -/
@[reducible] def ofNat (value : κ → Nat) (injective : ∀ a b, value a = value b → a = b) :
    TableKey κ where
  before a b := decide (value a < value b)
  before_irrefl a := by simp
  before_trans a b c := by simp only [decide_eq_true_eq]; omega
  eq_of_not_before a b := by
    simp only [decide_eq_false_iff_not]
    intro h₁ h₂
    exact injective a b (by omega)

/-- Keys compared by another key that determines them. -/
@[reducible] def comap [TableKey μ] (key : κ → μ) (injective : ∀ a b, key a = key b → a = b) :
    TableKey κ where
  before a b := before (key a) (key b)
  before_irrefl a := before_irrefl (key a)
  before_trans a b c := before_trans (key a) (key b) (key c)
  eq_of_not_before a b h₁ h₂ := injective a b (eq_of_not_before _ _ h₁ h₂)

/-- Whether the first pair comes before the second. -/
def pairBefore [TableKey κ] [TableKey μ] (a b : κ × μ) : Bool :=
  before a.1 b.1 || (!before b.1 a.1 && before a.2 b.2)

theorem pairBefore_iff [TableKey κ] [TableKey μ] {a b : κ × μ} :
    pairBefore a b = true ↔ before a.1 b.1 = true ∨ a.1 = b.1 ∧ before a.2 b.2 = true := by
  simp only [pairBefore, Bool.or_eq_true, Bool.and_eq_true, Bool.not_eq_eq_eq_not, Bool.not_true]
  exact lex_iff

instance instProd [TableKey κ] [TableKey μ] : TableKey (κ × μ) where
  before := pairBefore
  before_irrefl a := by simp [pairBefore, before_irrefl]
  before_trans a b c := by
    simp only [pairBefore_iff]
    rintro (h₁ | ⟨h₁, h₁'⟩) (h₂ | ⟨h₂, h₂'⟩)
    · exact .inl (before_trans _ _ _ h₁ h₂)
    · exact .inl (h₂ ▸ h₁)
    · exact .inl (h₁ ▸ h₂)
    · exact .inr ⟨h₁.trans h₂, before_trans _ _ _ h₁' h₂'⟩
  eq_of_not_before a b := by
    simp only [pairBefore, Bool.or_eq_false_iff, Bool.and_eq_false_iff, Bool.not_eq_false']
    rintro ⟨h₁, h₁'⟩ ⟨h₂, h₂'⟩
    simp only [h₂, h₁, Bool.false_eq_true, false_or] at h₁' h₂'
    exact Prod.ext (eq_of_not_before _ _ h₁ h₂) (eq_of_not_before _ _ h₁' h₂')

/-- Whether the first list comes before the second: a list comes before what extends it. -/
def listBefore [TableKey κ] : List κ → List κ → Bool
  | _, [] => false
  | [], _ :: _ => true
  | a :: as, b :: bs => before a b || (!before b a && listBefore as bs)

theorem listBefore_irrefl [TableKey κ] (a : List κ) : listBefore a a = false := by
  induction a with
  | nil => rfl
  | cons x xs ih => simp [listBefore, before_irrefl, ih]

theorem listBefore_cons_iff [TableKey κ] {x y : κ} {xs ys : List κ} :
    listBefore (x :: xs) (y :: ys) = true ↔
      before x y = true ∨ x = y ∧ listBefore xs ys = true := by
  simp only [listBefore, Bool.or_eq_true, Bool.and_eq_true, Bool.not_eq_eq_eq_not, Bool.not_true]
  exact lex_iff

theorem listBefore_trans [TableKey κ] (a b c : List κ) (h₁ : listBefore a b = true)
    (h₂ : listBefore b c = true) : listBefore a c = true := by
  induction a generalizing b c with
  | nil =>
    cases c with
    | nil => cases b <;> simp [listBefore] at h₂
    | cons z zs => rfl
  | cons x xs ih =>
    cases b with
    | nil => simp [listBefore] at h₁
    | cons y ys =>
      cases c with
      | nil => simp [listBefore] at h₂
      | cons z zs =>
        rw [listBefore_cons_iff] at h₁ h₂ ⊢
        rcases h₁ with h₁ | ⟨rfl, h₁'⟩
        · rcases h₂ with h₂ | ⟨rfl, -⟩
          · exact .inl (before_trans _ _ _ h₁ h₂)
          · exact .inl h₁
        · rcases h₂ with h₂ | ⟨rfl, h₂'⟩
          · exact .inl h₂
          · exact .inr ⟨rfl, ih _ _ h₁' h₂'⟩

theorem eq_of_not_listBefore [TableKey κ] (a b : List κ) (h₁ : listBefore a b = false)
    (h₂ : listBefore b a = false) : a = b := by
  induction a generalizing b with
  | nil =>
    cases b with
    | nil => rfl
    | cons y ys => simp [listBefore] at h₁
  | cons x xs ih =>
    cases b with
    | nil => simp [listBefore] at h₂
    | cons y ys =>
      simp only [listBefore, Bool.or_eq_false_iff, Bool.and_eq_false_iff, Bool.not_eq_false']
        at h₁ h₂
      obtain ⟨h₁, h₁'⟩ := h₁
      obtain ⟨h₂, h₂'⟩ := h₂
      simp only [h₂, h₁, Bool.false_eq_true, false_or] at h₁' h₂'
      rw [eq_of_not_before _ _ h₁ h₂, ih _ h₁' h₂']

instance instList [TableKey κ] : TableKey (List κ) where
  before := listBefore
  before_irrefl := listBefore_irrefl
  before_trans := listBefore_trans
  eq_of_not_before := eq_of_not_listBefore

instance instUInt8 : TableKey UInt8 := ofNat UInt8.toNat fun _ _ => UInt8.toNat_inj.mp

instance instUInt32 : TableKey UInt32 := ofNat UInt32.toNat fun _ _ => UInt32.toNat_inj.mp

instance instIdentifier {kind : IdentifierKind} : TableKey (Identifier kind) :=
  comap Identifier.toList fun _ _ h => Identifier.ext (FixedBytes.ext h)

instance instSortKey : TableKey SortKey :=
  comap (fun key => (key.slot, key.outputId)) fun _ _ h =>
    SortKey.ext (congrArg Prod.fst h) (congrArg Prod.snd h)

instance instOutputKind : TableKey OutputKind :=
  comap OutputKind.tag fun a b => by cases a <;> cases b <;> simp [OutputKind.tag]

end TableKey

/-! ## Tables -/

/-- A table: its entries, with strictly increasing keys. -/
structure Table (κ α : Type) [TableKey κ] where
  /-- The entries, in order. -/
  entries : List (κ × α)
  /-- The keys increase strictly. -/
  sorted : entries.Pairwise fun a b => TableKey.before a.1 b.1 = true

/-- A set of keys. -/
abbrev KeySet (κ : Type) [TableKey κ] := Table κ Unit

namespace Table

open TableKey (before before_irrefl before_trans before_asymm eq_of_not_before)

variable {κ α : Type} [TableKey κ]

/-- The table without entries. -/
def empty : Table κ α := ⟨[], .nil⟩

instance : Inhabited (Table κ α) := ⟨empty⟩

/-- The number of entries. -/
def size (table : Table κ α) : Nat := table.entries.length

/-- The keys, in order. -/
def keys (table : Table κ α) : List κ := table.entries.map (·.1)

/-- The values, in the order of their keys. -/
def values (table : Table κ α) : List α := table.entries.map (·.2)

/-- The value of a key among sorted entries. -/
def lookup (key : κ) : List (κ × α) → Option α
  | [] => none
  | (k, value) :: rest =>
    if before k key then lookup key rest else if before key k then none else some value

/-- The value of a key. -/
def get? (table : Table κ α) (key : κ) : Option α := lookup key table.entries

/-- Whether a key has a value. -/
def contains (table : Table κ α) (key : κ) : Bool := (table.get? key).isSome

/-- Puts a value among sorted entries, in the place of its key. -/
def insertEntry (key : κ) (value : α) : List (κ × α) → List (κ × α)
  | [] => [(key, value)]
  | (k, v) :: rest =>
    if before k key then (k, v) :: insertEntry key value rest
    else if before key k then (key, value) :: (k, v) :: rest
    else (key, value) :: rest

/-- Takes the entry of a key out of sorted entries. -/
def eraseEntry (key : κ) : List (κ × α) → List (κ × α)
  | [] => []
  | (k, v) :: rest =>
    if before k key then (k, v) :: eraseEntry key rest
    else if before key k then (k, v) :: rest
    else rest

theorem mem_insertEntry {key : κ} {value : α} {entries : List (κ × α)} {entry : κ × α}
    (h : entry ∈ insertEntry key value entries) : entry = (key, value) ∨ entry ∈ entries := by
  induction entries with
  | nil => simpa [insertEntry] using h
  | cons head rest ih =>
    simp only [insertEntry] at h
    split at h
    · rcases List.mem_cons.1 h with rfl | h
      · exact .inr List.mem_cons_self
      · rcases ih h with h | h
        · exact .inl h
        · exact .inr (List.mem_cons_of_mem _ h)
    · split at h
      · rcases List.mem_cons.1 h with rfl | h
        · exact .inl rfl
        · exact .inr h
      · rcases List.mem_cons.1 h with rfl | h
        · exact .inl rfl
        · exact .inr (List.mem_cons_of_mem _ h)

theorem mem_eraseEntry {key : κ} {entries : List (κ × α)} {entry : κ × α}
    (h : entry ∈ eraseEntry key entries) : entry ∈ entries := by
  induction entries with
  | nil => exact h
  | cons head rest ih =>
    simp only [eraseEntry] at h
    split at h
    · rcases List.mem_cons.1 h with rfl | h
      · exact List.mem_cons_self
      · exact List.mem_cons_of_mem _ (ih h)
    · split at h
      · exact h
      · exact List.mem_cons_of_mem _ h

theorem sorted_insertEntry (key : κ) (value : α) {entries : List (κ × α)}
    (h : entries.Pairwise fun a b => before a.1 b.1 = true) :
    (insertEntry key value entries).Pairwise fun a b => before a.1 b.1 = true := by
  induction entries with
  | nil => simp [insertEntry]
  | cons head rest ih =>
    obtain ⟨hhead, hrest⟩ := List.pairwise_cons.1 h
    simp only [insertEntry]
    split
    · rename_i hb
      refine List.pairwise_cons.2 ⟨fun entry hentry => ?_, ih hrest⟩
      rcases mem_insertEntry hentry with rfl | hentry
      · exact hb
      · exact hhead _ hentry
    · rename_i hb
      split
      · rename_i hb'
        refine List.pairwise_cons.2 ⟨fun entry hentry => ?_, h⟩
        rcases List.mem_cons.1 hentry with rfl | hentry
        · exact hb'
        · exact before_trans _ _ _ hb' (hhead _ hentry)
      · rename_i hb'
        have hk : head.1 = key := eq_of_not_before _ _ (by simpa using hb) (by simpa using hb')
        refine List.pairwise_cons.2 ⟨fun entry hentry => ?_, hrest⟩
        exact hk ▸ hhead _ hentry

theorem sorted_eraseEntry (key : κ) {entries : List (κ × α)}
    (h : entries.Pairwise fun a b => before a.1 b.1 = true) :
    (eraseEntry key entries).Pairwise fun a b => before a.1 b.1 = true := by
  induction entries with
  | nil => exact h
  | cons head rest ih =>
    obtain ⟨hhead, hrest⟩ := List.pairwise_cons.1 h
    simp only [eraseEntry]
    split
    · exact List.pairwise_cons.2 ⟨fun entry hentry => hhead _ (mem_eraseEntry hentry), ih hrest⟩
    · split
      · exact h
      · exact hrest

/-- The table with a value for a key, in place of any it had. -/
def insert (table : Table κ α) (key : κ) (value : α) : Table κ α :=
  ⟨insertEntry key value table.entries, sorted_insertEntry key value table.sorted⟩

/-- The table without a value for a key. -/
def erase (table : Table κ α) (key : κ) : Table κ α :=
  ⟨eraseEntry key table.entries, sorted_eraseEntry key table.sorted⟩

/-- The entries that satisfy a condition. -/
def filter (table : Table κ α) (keep : κ → α → Bool) : Table κ α :=
  ⟨table.entries.filter fun entry => keep entry.1 entry.2, table.sorted.filter _⟩

/-! ## Looking up -/

theorem lookup_eq_none_of_before {key : κ} {entries : List (κ × α)}
    (h : ∀ entry ∈ entries, before key entry.1 = true) : lookup key entries = none := by
  cases entries with
  | nil => rfl
  | cons head rest =>
    have hb := h head List.mem_cons_self
    simp [lookup, hb, before_asymm hb]

theorem lookup_insertEntry (key k : κ) (value : α) {entries : List (κ × α)}
    (h : entries.Pairwise fun a b => before a.1 b.1 = true) :
    lookup k (insertEntry key value entries) =
      if before k key = false ∧ before key k = false then some value else lookup k entries := by
  induction entries with
  | nil =>
    cases h₁ : before key k <;> cases h₂ : before k key <;> simp [insertEntry, lookup, h₁, h₂]
  | cons head rest ih =>
    obtain ⟨hhead, hrest⟩ := List.pairwise_cons.1 h
    simp only [insertEntry]
    split
    · rename_i hb
      by_cases hk : before head.1 k = true
      · simp [lookup, hk, ih hrest]
      · simp only [lookup, hk, Bool.false_eq_true, if_false]
        have hkk : ¬(before k key = false ∧ before key k = false) := by
          rintro ⟨h₁, h₂⟩
          exact hk (eq_of_not_before _ _ h₁ h₂ ▸ hb)
        rw [if_neg hkk]
    · rename_i hb
      split
      · rename_i hb'
        by_cases hk : before key k = true
        · simp [lookup, hk]
        · by_cases hk' : before k key = true
          · have hlt : before k head.1 = true := before_trans _ _ _ hk' hb'
            simp [lookup, hk, hk', hlt, before_asymm hlt]
          · simp [lookup, hk, hk']
      · rename_i hb'
        have heq : head.1 = key := eq_of_not_before _ _ (by simpa using hb) (by simpa using hb')
        by_cases hk : before key k = true
        · simp [lookup, hk, heq]
        · by_cases hk' : before k key = true
          · simp [lookup, hk, hk', heq]
          · simp [lookup, hk, hk']

theorem lookup_eraseEntry (key k : κ) {entries : List (κ × α)}
    (h : entries.Pairwise fun a b => before a.1 b.1 = true) :
    lookup k (eraseEntry key entries) =
      if before k key = false ∧ before key k = false then none else lookup k entries := by
  induction entries with
  | nil => simp [eraseEntry, lookup]
  | cons head rest ih =>
    obtain ⟨hhead, hrest⟩ := List.pairwise_cons.1 h
    simp only [eraseEntry]
    split
    · rename_i hb
      by_cases hk : before head.1 k = true
      · simp [lookup, hk, ih hrest]
      · have hkk : ¬(before k key = false ∧ before key k = false) := by
          rintro ⟨h₁, h₂⟩
          exact hk (eq_of_not_before _ _ h₁ h₂ ▸ hb)
        simp only [lookup, hk, Bool.false_eq_true, if_false]
        rw [if_neg hkk]
    · rename_i hb
      split
      · rename_i hb'
        by_cases hkk : before k key = false ∧ before key k = false
        · have hke : k = key := eq_of_not_before _ _ hkk.1 hkk.2
          rw [if_pos hkk]
          refine lookup_eq_none_of_before fun entry hentry => ?_
          rcases List.mem_cons.1 hentry with rfl | hentry
          · exact hke ▸ hb'
          · exact hke ▸ before_trans _ _ _ hb' (hhead _ hentry)
        · rw [if_neg hkk]
      · rename_i hb'
        have heq : head.1 = key := eq_of_not_before _ _ (by simpa using hb) (by simpa using hb')
        by_cases hkk : before k key = false ∧ before key k = false
        · have hke : k = key := eq_of_not_before _ _ hkk.1 hkk.2
          rw [if_pos hkk]
          exact lookup_eq_none_of_before fun entry hentry => by
            rw [hke, ← heq]; exact hhead _ hentry
        · rw [if_neg hkk]
          by_cases hk : before key k = true
          · simp [lookup, hk, heq]
          · have hk' : before k key = true := by
              cases hc : before k key with
              | true => rfl
              | false => exact absurd ⟨hc, by simpa using hk⟩ hkk
            have hnone : lookup k rest = none := lookup_eq_none_of_before fun entry hentry =>
              before_trans _ _ _ hk' (heq ▸ hhead _ hentry)
            simp [lookup, hk, hk', heq, hnone]

theorem get?_empty (key : κ) : (empty : Table κ α).get? key = none := rfl

theorem get?_insert [DecidableEq κ] (table : Table κ α) (key k : κ) (value : α) :
    (table.insert key value).get? k = if k = key then some value else table.get? k := by
  have h := lookup_insertEntry key k value table.sorted
  by_cases hk : k = key
  · subst hk
    simpa [get?, insert, before_irrefl] using h
  · have hne : ¬(before k key = false ∧ before key k = false) := by
      rintro ⟨h₁, h₂⟩
      exact hk (eq_of_not_before _ _ h₁ h₂)
    rw [if_neg hne] at h
    simpa [get?, insert, hk] using h

theorem get?_erase [DecidableEq κ] (table : Table κ α) (key k : κ) :
    (table.erase key).get? k = if k = key then none else table.get? k := by
  have h := lookup_eraseEntry key k table.sorted
  by_cases hk : k = key
  · subst hk
    simpa [get?, erase, before_irrefl] using h
  · have hne : ¬(before k key = false ∧ before key k = false) := by
      rintro ⟨h₁, h₂⟩
      exact hk (eq_of_not_before _ _ h₁ h₂)
    rw [if_neg hne] at h
    simpa [get?, erase, hk] using h

theorem lookup_eq_some_iff_mem {key : κ} {value : α} {entries : List (κ × α)}
    (h : entries.Pairwise fun a b => before a.1 b.1 = true) :
    lookup key entries = some value ↔ (key, value) ∈ entries := by
  induction entries with
  | nil => simp [lookup]
  | cons head rest ih =>
    obtain ⟨hhead, hrest⟩ := List.pairwise_cons.1 h
    obtain ⟨k, v⟩ := head
    by_cases hb : before k key = true
    · have hne : key ≠ k := fun hk => by simp [hk, before_irrefl] at hb
      simp [lookup, hb, ih hrest, hne]
    · by_cases hb' : before key k = true
      · have hne : key ≠ k := fun hk => by simp [hk, before_irrefl] at hb'
        have hrest' : (key, value) ∉ rest := by
          intro hmem
          have hself : before key key = true := before_trans _ _ _ hb' (hhead _ hmem)
          simp [before_irrefl] at hself
        simp [lookup, hb, hb', hne, hrest']
      · have heq : k = key := eq_of_not_before _ _ (by simpa using hb) (by simpa using hb')
        subst heq
        have hrest' : (k, value) ∉ rest := by
          intro hmem
          have hself : before k k = true := hhead _ hmem
          simp [before_irrefl] at hself
        simp [lookup, hb, hrest', eq_comm]

theorem get?_eq_some_iff_mem (table : Table κ α) {key : κ} {value : α} :
    table.get? key = some value ↔ (key, value) ∈ table.entries :=
  lookup_eq_some_iff_mem table.sorted

theorem eq_of_sorted_of_mem_iff {xs ys : List (κ × α)}
    (hx : xs.Pairwise fun a b => before a.1 b.1 = true)
    (hy : ys.Pairwise fun a b => before a.1 b.1 = true)
    (h : ∀ entry, entry ∈ xs ↔ entry ∈ ys) : xs = ys := by
  induction xs generalizing ys with
  | nil =>
    cases ys with
    | nil => rfl
    | cons y ys => exact absurd ((h y).2 List.mem_cons_self) (by simp)
  | cons x xs ih =>
    cases ys with
    | nil => exact absurd ((h x).1 List.mem_cons_self) (by simp)
    | cons y ys =>
      obtain ⟨hx₁, hx₂⟩ := List.pairwise_cons.1 hx
      obtain ⟨hy₁, hy₂⟩ := List.pairwise_cons.1 hy
      -- each head is in the other list, and if it were not the head it would come after it
      have hxy : x = y := by
        rcases List.mem_cons.1 ((h x).1 List.mem_cons_self) with rfl | hxm
        · rfl
        · rcases List.mem_cons.1 ((h y).2 List.mem_cons_self) with rfl | hym
          · rfl
          · have hself : before x.1 x.1 = true := before_trans _ _ _ (hx₁ _ hym) (hy₁ _ hxm)
            simp [before_irrefl] at hself
      subst hxy
      rw [ih hx₂ hy₂ fun entry => ?_]
      constructor
      · intro hm
        rcases List.mem_cons.1 ((h entry).1 (List.mem_cons_of_mem _ hm)) with rfl | hm'
        · have := hx₁ _ hm
          simp [before_irrefl] at this
        · exact hm'
      · intro hm
        rcases List.mem_cons.1 ((h entry).2 (List.mem_cons_of_mem _ hm)) with rfl | hm'
        · have := hy₁ _ hm
          simp [before_irrefl] at this
        · exact hm'

/-- Two tables with the same values for all keys are the same. -/
theorem ext_get? {s t : Table κ α} (h : ∀ key, s.get? key = t.get? key) : s = t := by
  obtain ⟨xs, hx⟩ := s
  obtain ⟨ys, hy⟩ := t
  congr
  refine eq_of_sorted_of_mem_iff hx hy fun ⟨key, value⟩ => ?_
  rw [← lookup_eq_some_iff_mem hx, ← lookup_eq_some_iff_mem hy]
  simp only [get?] at h
  rw [h]

end Table

namespace KeySet

variable {κ : Type} [TableKey κ]

/-- The set with a key. -/
def add (set : KeySet κ) (key : κ) : KeySet κ := Table.insert set key ()

/-- The set with some keys. -/
def addAll (set : KeySet κ) (keys : List κ) : KeySet κ := keys.foldl add set

/-- The set without some keys. -/
def eraseAll (set : KeySet κ) (keys : List κ) : KeySet κ := keys.foldl Table.erase set

/-- The set of some keys. -/
def ofList (keys : List κ) : KeySet κ := addAll Table.empty keys

end KeySet

end OutputIndex
