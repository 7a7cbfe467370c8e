import Mathlib.Data.Fintype.Option
import Mathlib.Data.Fintype.Vector
import Mathlib.Order.WellFounded
import OutputIndex.Proofs.Cursor
import OutputIndex.Proofs.Index.Residue
import OutputIndex.Proofs.Query.Found

/-!
# Walking through pages

A walk asks for the pages of a filter one after the other: the first without a cursor, and each
other one with the cursor that the page before it gave, until a page gives none.  Every request
reads a state of the index of its own, for the index may have been written to in between.

The cursor of a page is the place of the first row beyond the page.  So what one page returned lies
strictly before all that the following pages can return, whatever state they are read from, and a
row that keeps its place and goes on matching is on the page that its place falls on
(`Index.Reads.next`).  Each page but the last moves the place where pages begin strictly forward,
and there are finitely many places, so every walk ends (`Index.exists_walk`).  The main statement
is `Index.walk_pages`.
-/

namespace OutputIndex

open TableKey (before before_irrefl before_trans)

/-! ## Places run out -/

instance finite_uInt8 : Finite UInt8 :=
  Finite.of_injective UInt8.toFin fun _ _ => UInt8.toFin_inj.mp

instance finite_uInt32 : Finite UInt32 :=
  Finite.of_injective UInt32.toFin fun _ _ => UInt32.toFin_inj.mp

instance {n : ℕ} : Finite (FixedBytes n) :=
  have : Fintype UInt8 := Fintype.ofFinite UInt8
  have : Finite { bytes : Bytes // bytes.length = n } :=
    inferInstanceAs (Finite (List.Vector UInt8 n))
  Finite.of_injective (fun fixed : FixedBytes n => (⟨fixed.toList, fixed.length_eq⟩ :
    { bytes : Bytes // bytes.length = n })) fun _ _ h => FixedBytes.ext (congrArg Subtype.val h)

instance {kind : IdentifierKind} : Finite (Identifier kind) :=
  Finite.of_injective Identifier.bytes fun _ _ => Identifier.ext

instance : Finite SortKey :=
  Finite.of_injective (fun place : SortKey => (place.slot, place.outputId)) fun _ _ h =>
    SortKey.ext (congrArg Prod.fst h) (congrArg Prod.snd h)

namespace SortKey

lemma ne_of_before {a b : SortKey} (h : before a b = true) : a ≠ b := by
  rintro rfl
  rw [before_irrefl] at h
  cases h

/-- A page that begins at the first place begins later than one that begins at the second; a page
without a place begins first of all. -/
def Later (start first : Option SortKey) : Prop :=
  ∃ place, start = some place ∧ (first.all fun other => before other place) = true

instance : IsTrans (Option SortKey) Later where
  trans := by
    rintro _ _ first ⟨a, rfl, hab⟩ ⟨b, rfl, hbc⟩
    refine ⟨a, rfl, ?_⟩
    cases first with
    | none => rfl
    | some c => exact before_trans c b a hbc hab

instance : Std.Irrefl Later where
  irrefl := by
    rintro _ ⟨a, rfl, h⟩
    rw [Option.all_some, before_irrefl] at h
    cases h

/-- Pages cannot begin later and later forever. -/
lemma wellFounded_later : WellFounded Later := Finite.wellFounded_of_trans_of_irrefl Later

end SortKey

/-! ## One page -/

section Rows

variable {rows : List OutputRecord} {row : OutputRecord} {n : ℕ}

/-- A row of a list in order separates what comes before it from what does not. -/
lemma separates_of_getElem? (h : (rows.map (·.sortKey)).Pairwise fun a b => before a b = true)
    (hrow : rows[n]? = some row) :
    (∀ r ∈ rows.take n, before r.sortKey row.sortKey = true) ∧
      ∀ r ∈ rows.drop n, SortKey.le row.sortKey r.sortKey = true := by
  obtain ⟨hn, hget⟩ := List.getElem?_eq_some_iff.1 hrow
  have hdrop : rows.drop n = row :: rows.drop (n + 1) := by
    rw [List.drop_eq_getElem_cons hn, hget]
  have hsplit := List.pairwise_map.1 h
  rw [← List.take_append_drop n rows, hdrop, List.pairwise_append] at hsplit
  obtain ⟨-, hlater, hfirst⟩ := hsplit
  refine ⟨fun r hr => hfirst r hr row List.mem_cons_self, fun r hr => ?_⟩
  rw [hdrop] at hr
  rcases List.mem_cons.1 hr with rfl | hr
  · exact SortKey.le_iff.2 (before_irrefl _)
  · exact SortKey.le_of_before ((List.pairwise_cons.1 hlater).1 r hr)

end Rows

namespace Page

variable {size : UInt32} {cursor : Option String} {rows : List OutputRecord} {slot : Option Slot}

lemma outputIds_answer (hsize : size ≠ 0) :
    ((⟨size, cursor⟩ : Page).answer rows slot).outputIds =
      (rows.take size.toNat).map (·.outputId) := by
  simp [answer, hsize]

lemma nextCursor_answer (hsize : size ≠ 0) :
    ((⟨size, cursor⟩ : Page).answer rows slot).nextCursor =
      rows[size.toNat]?.map (·.sortKey.cursor) := by
  simp [answer, hsize]

end Page

namespace Index

/-! ## Walks -/

/-- The pages of a filter, each read from the next of some states of the index: a page without a
cursor is the last one, and any other gives the next one its cursor. -/
inductive Walk (filter : Filter) (size : UInt32) :
    (ℕ → Index) → Option String → List QueryResult → Prop where
  | last {indexes : ℕ → Index} {cursor : Option String} {page : QueryResult}
      (hread : ((query filter ⟨size, cursor⟩).run.run (indexes 0)).1 = .ok page)
      (hlast : page.nextCursor = none) : Walk filter size indexes cursor [page]
  | next {indexes : ℕ → Index} {cursor : Option String} {following : String} {page : QueryResult}
      {pages : List QueryResult}
      (hread : ((query filter ⟨size, cursor⟩).run.run (indexes 0)).1 = .ok page)
      (hnext : page.nextCursor = some following)
      (hrest : Walk filter size (fun n => indexes (n + 1)) (some following) pages) :
      Walk filter size indexes cursor (page :: pages)

/-- A state that pages can be read from: look-ups work, and no output is stored under two kinds. -/
structure Readable (index : Index) : Prop where
  exact : index.store.Exact
  unmixed : index.store.Unmixed
  fault : index.fault ≠ .lookups

/-- Pages return some rows, page by page, and they return what they should from a place on. -/
structure Reads (filter : Filter) (size : UInt32) (indexes : ℕ → Index) (start : Option SortKey)
    (pages : List QueryResult) (rows : List (List OutputRecord)) : Prop where
  /-- The pages list the identifiers of the rows. -/
  ids : pages.map (·.outputIds) = rows.map fun page => page.map (·.outputId)
  /-- Each row matches in the state that its page was read from. -/
  matching : ∀ n page, rows[n]? = some page → ∀ record ∈ page,
    record ∈ filter.matching (indexes n).store
  /-- No row lies before the place where the first page begins. -/
  from_start : ∀ record ∈ rows.flatten,
    (start.all fun first => SortKey.le first record.sortKey) = true
  /-- The places increase strictly, within pages and from one page to the next. -/
  increasing : (rows.flatten.map (·.sortKey)).Pairwise fun a b => before a b = true
  /-- Only the last page may be short. -/
  full : ∀ page ∈ pages.dropLast, page.outputIds.length = size.toNat
  /-- A place at which some row matches in every state is not left out. -/
  every : ∀ place, (start.all fun first => SortKey.le first place) = true →
    (∀ n < pages.length, ∃ record ∈ filter.matching (indexes n).store, record.sortKey = place) →
      place ∈ rows.flatten.map (·.sortKey)

variable {filter : Filter} {size : UInt32} {indexes : ℕ → Index} {cursor : Option String}
  {start : Option SortKey} {pages : List QueryResult}

/-- A request reads the page of what the filter finds from the place of its cursor on. -/
lemma Readable.run_query (h : (indexes 0).Readable) (filter : Filter)
    (hstart : Page.BeginsAt ⟨size, cursor⟩ start) :
    ((query filter ⟨size, cursor⟩).run.run (indexes 0)).1 =
      .ok ((⟨size, cursor⟩ : Page).answer (filter.found (indexes 0).store start)
        ((indexes 0).store.status.map (·.committedSlot))) := by
  rw [filter.run_query h.exact h.fault hstart]

lemma Readable.sorted_found (h : (indexes 0).Readable) (filter : Filter)
    (start : Option SortKey) :
    ((filter.found (indexes 0).store start).map (·.sortKey)).Pairwise
      fun a b => before a b = true :=
  Filter.sorted_found h.exact.keyed h.unmixed filter start

/-- A row of the state that matches at a place is among what the filter finds from there on. -/
lemma Readable.mem_map_found (h : (indexes 0).Readable) {place : SortKey}
    (hplace : (start.all fun first => SortKey.le first place) = true)
    (hmatches : ∃ record ∈ filter.matching (indexes 0).store, record.sortKey = place) :
    ∃ record ∈ filter.found (indexes 0).store start, record.sortKey = place := by
  obtain ⟨record, hrecord, rfl⟩ := hmatches
  exact ⟨record, (Filter.mem_found_iff h.exact.keyed filter start record).2 ⟨hrecord, hplace⟩, rfl⟩

/-- A page with nothing beyond it returns all there is. -/
lemma Reads.last (hreadable : (indexes 0).Readable) {page : QueryResult}
    (hids : page.outputIds =
      ((filter.found (indexes 0).store start).take size.toNat).map (·.outputId))
    (hlast : (filter.found (indexes 0).store start)[size.toNat]? = none) :
    Reads filter size indexes start [page] [filter.found (indexes 0).store start] := by
  have hmem := Filter.mem_found_iff hreadable.exact.keyed filter start
  refine ⟨?_, fun n rows hrows record hrecord => ?_, fun record hrecord => ?_, ?_, ?_,
    fun place hplace hmatches => ?_⟩
  · rw [List.map_singleton, List.map_singleton, hids,
      List.take_of_length_le (List.getElem?_eq_none_iff.1 hlast)]
  · cases n with
    | zero =>
      obtain rfl : filter.found (indexes 0).store start = rows := Option.some.inj hrows
      exact ((hmem record).1 hrecord).1
    | succ n => simp at hrows
  · rw [List.flatten_singleton] at hrecord
    exact ((hmem record).1 hrecord).2
  · rw [List.flatten_singleton]
    exact hreadable.sorted_found filter start
  · simp
  · rw [List.flatten_singleton, List.mem_map]
    exact hreadable.mem_map_found hplace (hmatches 0 (by simp))

/-- A page returns what lies before the row beyond it, and the rest is read from there on. -/
lemma Reads.next (hreadable : (indexes 0).Readable) {page : QueryResult} {row : OutputRecord}
    {rows : List (List OutputRecord)}
    (hids : page.outputIds =
      ((filter.found (indexes 0).store start).take size.toNat).map (·.outputId))
    (hrow : (filter.found (indexes 0).store start)[size.toNat]? = some row)
    (hrest : Reads filter size (fun n => indexes (n + 1)) (some row.sortKey) pages rows) :
    Reads filter size indexes start (page :: pages)
      ((filter.found (indexes 0).store start).take size.toNat :: rows) := by
  have hsorted := hreadable.sorted_found filter start
  have hmem := Filter.mem_found_iff hreadable.exact.keyed filter start
  obtain ⟨hbefore, hfrom⟩ := separates_of_getElem? hsorted hrow
  have hstart : (start.all fun first => SortKey.le first row.sortKey) = true :=
    ((hmem row).1 (List.mem_of_getElem? hrow)).2
  have hlength : size.toNat < (filter.found (indexes 0).store start).length :=
    (List.getElem?_eq_some_iff.1 hrow).1
  refine ⟨?_, fun n page hpage record hrecord => ?_, fun record hrecord => ?_, ?_,
    fun p hp => ?_, fun place hplace hmatches => ?_⟩
  · rw [List.map_cons, List.map_cons, hids, hrest.ids]
  · cases n with
    | zero =>
      obtain rfl : (filter.found (indexes 0).store start).take size.toNat = page :=
        Option.some.inj hpage
      exact ((hmem record).1 (List.mem_of_mem_take hrecord)).1
    | succ n => exact hrest.matching n page hpage record hrecord
  · rw [List.flatten_cons] at hrecord
    rcases List.mem_append.1 hrecord with hrecord | hrecord
    · exact ((hmem record).1 (List.mem_of_mem_take hrecord)).2
    · have hlater : SortKey.le row.sortKey record.sortKey = true :=
        hrest.from_start record hrecord
      cases start with
      | none => rfl
      | some first => exact SortKey.le_trans _ _ _ hstart hlater
  · -- this page lies before the row beyond it, and what follows does not
    rw [List.flatten_cons, List.map_append, List.pairwise_append]
    refine ⟨?_, hrest.increasing, ?_⟩
    · rw [List.map_take]
      exact hsorted.sublist (List.take_sublist _ _)
    · intro a ha b hb
      obtain ⟨r, hr, rfl⟩ := List.mem_map.1 ha
      obtain ⟨s, hs, rfl⟩ := List.mem_map.1 hb
      have hlater : SortKey.le row.sortKey s.sortKey = true := hrest.from_start s hs
      rcases TableKey.before_or_eq (SortKey.le_iff.1 hlater) with hlt | heq
      · exact before_trans _ _ _ (hbefore r hr) hlt
      · exact heq ▸ hbefore r hr
  · -- there is a row beyond this page, so the page is full
    have hpages : (page :: pages).dropLast ⊆ page :: pages.dropLast := by
      cases pages <;> simp
    rcases List.mem_cons.1 (hpages hp) with rfl | hp
    · rw [hids, List.length_map, List.length_take]
      omega
    · exact hrest.full p hp
  · -- a place is on this page or not before the row beyond it
    rw [List.flatten_cons, List.map_append, List.mem_append]
    obtain ⟨record, hrecord, rfl⟩ := hreadable.mem_map_found hplace (hmatches 0 (by simp))
    rw [← List.take_append_drop size.toNat (filter.found (indexes 0).store start)] at hrecord
    rcases List.mem_append.1 hrecord with hrecord | hrecord
    · exact .inl (List.mem_map_of_mem hrecord)
    · refine .inr (hrest.every record.sortKey (hfrom record hrecord) fun n hn => ?_)
      exact hmatches (n + 1) (by simpa using hn)

/-- Each cursor of a walk is the place of a row. -/
lemma beginsAt_cursor (hsize : size ≠ 0) (place : SortKey) :
    Page.BeginsAt ⟨size, some place.cursor⟩ (some place) :=
  ⟨hsize, place, place.ofCursor_cursor, rfl⟩

/-- A walk returns what it should. -/
lemma Walk.exists_reads (h : Walk filter size indexes cursor pages) (hsize : size ≠ 0)
    (hreadable : ∀ n, (indexes n).Readable) (hstart : Page.BeginsAt ⟨size, cursor⟩ start) :
    ∃ rows, Reads filter size indexes start pages rows := by
  induction h generalizing start with
  | last hread hlast =>
    rw [(hreadable 0).run_query filter hstart] at hread
    obtain rfl := Except.ok.inj hread
    rw [Page.nextCursor_answer hsize, Option.map_eq_none_iff] at hlast
    exact ⟨_, Reads.last (hreadable 0) (Page.outputIds_answer hsize) hlast⟩
  | next hread hnext hrest ih =>
    rw [(hreadable 0).run_query filter hstart] at hread
    obtain rfl := Except.ok.inj hread
    rw [Page.nextCursor_answer hsize, Option.map_eq_some_iff] at hnext
    obtain ⟨row, hrow, rfl⟩ := hnext
    obtain ⟨rows, hrows⟩ := ih (fun n => hreadable (n + 1)) (beginsAt_cursor hsize row.sortKey)
    exact ⟨_, Reads.next (hreadable 0) (Page.outputIds_answer hsize) hrow hrows⟩

/-- Every walk ends, from whatever place it begins. -/
lemma exists_walk (filter : Filter) (hsize : size ≠ 0) (indexes : ℕ → Index)
    (hreadable : ∀ n, (indexes n).Readable) (start : Option SortKey) (cursor : Option String)
    (hstart : Page.BeginsAt ⟨size, cursor⟩ start) :
    ∃ pages, Walk filter size indexes cursor pages := by
  induction start using SortKey.wellFounded_later.induction generalizing indexes cursor with
  | _ start ih =>
    have hread := (hreadable 0).run_query filter hstart
    cases hrow : (filter.found (indexes 0).store start)[size.toNat]? with
    | none =>
      refine ⟨_, .last hread ?_⟩
      rw [Page.nextCursor_answer hsize, hrow]
      rfl
    | some row =>
      -- the page is not empty, and its first row lies between its place and the next one
      have hpositive : 0 < size.toNat := by
        rw [Nat.pos_iff_ne_zero, Ne, ← UInt32.toNat_zero, UInt32.toNat_inj]
        exact hsize
      obtain ⟨hlength, -⟩ := List.getElem?_eq_some_iff.1 hrow
      have hsorted := (hreadable 0).sorted_found filter start
      obtain ⟨hbefore, -⟩ := separates_of_getElem? hsorted hrow
      obtain ⟨first, hfirst⟩ : ∃ first, first ∈
          (filter.found (indexes 0).store start).take size.toNat := by
        refine List.exists_mem_of_length_pos ?_
        rw [List.length_take]
        omega
      have hlater : SortKey.Later (some row.sortKey) start := by
        refine ⟨row.sortKey, rfl, ?_⟩
        obtain ⟨-, hle⟩ := (Filter.mem_found_iff (hreadable 0).exact.keyed filter start first).1
          (List.mem_of_mem_take hfirst)
        cases start with
        | none => rfl
        | some place =>
          rcases TableKey.before_or_eq (SortKey.le_iff.1 hle) with hlt | rfl
          · exact before_trans _ _ _ hlt (hbefore first hfirst)
          · exact hbefore first hfirst
      obtain ⟨pages, hpages⟩ := ih _ hlater (fun n => indexes (n + 1))
        (fun n => hreadable (n + 1)) _ (beginsAt_cursor hsize row.sortKey)
      refine ⟨_, .next hread ?_ hpages⟩
      rw [Page.nextCursor_answer hsize, hrow]
      rfl

/-! ## What a whole walk returns -/

variable {rows : List (List OutputRecord)}

lemma Reads.flatMap_outputIds (h : Reads filter size indexes start pages rows) :
    pages.flatMap (·.outputIds) = rows.flatten.map (·.outputId) := by
  rw [List.flatMap_def, h.ids, List.map_flatten]

/-- Every row of a walk matched in one of the states that were read. -/
lemma Reads.exists_matching (h : Reads filter size indexes start pages rows) {record : OutputRecord}
    (hrecord : record ∈ rows.flatten) :
    ∃ n < pages.length, record ∈ filter.matching (indexes n).store := by
  have hlength : pages.length = rows.length := by
    have hmap := congrArg List.length h.ids
    simpa using hmap
  obtain ⟨page, hpage, hmem⟩ := List.mem_flatten.1 hrecord
  obtain ⟨n, hn⟩ := List.getElem?_of_mem hpage
  have hlt : n < rows.length := (List.getElem?_eq_some_iff.1 hn).1
  exact ⟨n, by omega, h.matching n page hn record hmem⟩

/-- If rows go on matching at a place, no walk returns its output twice or not at all. -/
lemma Reads.count_eq_one (h : Reads filter size indexes none pages rows)
    (hreadable : ∀ n, (indexes n).Readable) {place : SortKey}
    (hmatches : ∀ n < pages.length,
      ∃ record ∈ filter.matching (indexes n).store, record.sortKey = place) :
    (pages.flatMap (·.outputIds)).count place.outputId = 1 := by
  -- where a row matches at the place, its output has no row at any other place
  have hcount : (rows.flatten.map (·.outputId)).count place.outputId =
      (rows.flatten.map (·.sortKey)).count place := by
    rw [List.count, List.count, List.countP_map, List.countP_map]
    refine List.countP_congr fun record hrecord => ?_
    simp only [Function.comp_apply, beq_iff_eq]
    refine ⟨fun hid => ?_, fun hplace => congrArg SortKey.outputId hplace⟩
    obtain ⟨n, hlt, hrow⟩ := h.exists_matching hrecord
    obtain ⟨other, hother, rfl⟩ := hmatches n hlt
    have heq : record = other :=
      (hreadable n).unmixed.eq_of_outputId_eq (hreadable n).exact.keyed hrow.1 hother.1 hid
    rw [heq]
  have hnodup : (rows.flatten.map (·.sortKey)).Nodup :=
    h.increasing.imp SortKey.ne_of_before
  rw [h.flatMap_outputIds, hcount]
  exact List.count_eq_one_of_mem hnodup (h.every place rfl hmatches)

/-- If the store does not change, the pages together are what the filter finds. -/
lemma Reads.map_sortKey_flatten (h : Reads filter size indexes none pages rows)
    (hreadable : ∀ n, (indexes n).Readable)
    (hsame : ∀ n < pages.length, (indexes n).store = (indexes 0).store) :
    rows.flatten.map (·.sortKey) = (filter.found (indexes 0).store none).map (·.sortKey) := by
  have hmem := Filter.mem_found_iff (hreadable 0).exact.keyed filter none
  have hsorted := (hreadable 0).sorted_found filter none
  have hperm : (rows.flatten.map (·.sortKey)).Perm
      ((filter.found (indexes 0).store none).map (·.sortKey)) := by
    rw [List.perm_ext_iff_of_nodup (h.increasing.imp SortKey.ne_of_before)
      (hsorted.imp SortKey.ne_of_before)]
    intro place
    constructor
    · intro hplace
      obtain ⟨record, hrecord, rfl⟩ := List.mem_map.1 hplace
      obtain ⟨n, hlt, hrow⟩ := h.exists_matching hrecord
      rw [hsame n hlt] at hrow
      exact List.mem_map_of_mem ((hmem record).2 ⟨hrow, rfl⟩)
    · intro hplace
      obtain ⟨record, hrecord, rfl⟩ := List.mem_map.1 hplace
      refine h.every record.sortKey rfl fun n hn => ⟨record, ?_, rfl⟩
      rw [hsame n hn]
      exact ((hmem record).1 hrecord).1
  refine hperm.eq_of_pairwise (fun a b _ _ hab hba => ?_) h.increasing hsorted
  rw [TableKey.before_asymm hab] at hba
  cases hba

/-- **Walking through pages is exact, whatever happens to the store between two requests.**  Every
walk ends.  The rows that it returns matched when their pages were read, their places increase
strictly over the whole walk, and every page but the last is full.  An output is returned exactly
once if some row of it matches at the same place in every state that is read.  If the store does not
change, the pages together are the answer without pages. -/
theorem walk_pages (filter : Filter) (size : UInt32) (hsize : size ≠ 0) (indexes : ℕ → Index)
    (hreachable : ∀ n, Store.Reachable Set.univ (indexes n).store)
    (hunmixed : ∀ n, (indexes n).store.Unmixed) (hfault : ∀ n, (indexes n).fault ≠ .lookups) :
    (∃ pages, Walk filter size indexes none pages) ∧
      ∀ pages, Walk filter size indexes none pages →
        ∃ rows : List (List OutputRecord),
          pages.map (·.outputIds) = rows.map (fun page => page.map (·.outputId)) ∧
          (∀ n page, rows[n]? = some page → ∀ record ∈ page,
            record ∈ filter.matching (indexes n).store) ∧
          ((rows.flatten.map (·.sortKey)).Pairwise fun a b => before a b = true) ∧
          (∀ page ∈ pages.dropLast, page.outputIds.length = size.toNat) ∧
          (∀ place : SortKey, (∀ n < pages.length,
              ∃ record ∈ filter.matching (indexes n).store, record.sortKey = place) →
            (pages.flatMap (·.outputIds)).count place.outputId = 1) ∧
          ((∀ n < pages.length, (indexes n).store = (indexes 0).store) →
            ((query filter ⟨0, none⟩).run.run (indexes 0)).1.map (·.outputIds) =
              .ok (pages.flatMap (·.outputIds))) := by
  have hreadable : ∀ n, (indexes n).Readable := fun n =>
    ⟨(hreachable n).exact, hunmixed n, hfault n⟩
  refine ⟨exists_walk filter hsize indexes hreadable none none rfl, fun pages hwalk => ?_⟩
  have hbegins : Page.BeginsAt ⟨size, none⟩ none := rfl
  obtain ⟨rows, hreads⟩ := hwalk.exists_reads hsize hreadable hbegins
  refine ⟨rows, hreads.ids, hreads.matching, hreads.increasing, hreads.full,
    fun place hmatches => hreads.count_eq_one hreadable hmatches, fun hsame => ?_⟩
  have hplaces := hreads.map_sortKey_flatten hreadable hsame
  have hids : (filter.found (indexes 0).store none).map (·.outputId) =
      rows.flatten.map (·.outputId) := by
    have hmap := congrArg (List.map SortKey.outputId) hplaces
    rw [List.map_map, List.map_map] at hmap
    exact hmap.symm
  have hwhole : Page.BeginsAt ⟨0, none⟩ none := rfl
  rw [filter.run_query (hreadable 0).exact (hreadable 0).fault hwhole,
    hreads.flatMap_outputIds, ← hids]
  rfl

/-- The output of alice and bob is proposed before the first page is read, and the one of alice is
spent after it. -/
def samplePages : ℕ → Index
  | 0 => sampleIndex.after (.accept ⟨6, [], [sampleCreated]⟩)
  | _ + 1 => (sampleIndex.after (.accept ⟨6, [], [sampleCreated]⟩)).after (.accept sampleUpdate)

lemma reachable_samplePages (n : ℕ) : Store.Reachable sampleKnown (samplePages n).store := by
  have hfirst : Store.Reachable sampleKnown (samplePages 0).store := by
    refine .operation _ ?_ reachable_sampleIndex
    simp [Operation.outputs, sampleKnown]
  cases n with
  | zero => exact hfirst
  | succ n =>
    refine .operation _ ?_ hfirst
    simp [Operation.outputs, sampleUpdate, sampleKnown]

theorem walk_samplePages :
    (∀ n, Store.Reachable Set.univ (samplePages n).store) ∧
      (∀ n, (samplePages n).store.Unmixed) ∧ (∀ n, (samplePages n).fault ≠ .lookups) ∧
      ∃ pages, Walk (.basic {}) 1 samplePages none pages ∧
        (pages.flatMap (·.outputIds)).count sampleCreated.outputId = 1 := by
  have hreachable : ∀ n, Store.Reachable Set.univ (samplePages n).store := fun n =>
    (reachable_samplePages n).mono (Set.subset_univ _)
  have hunmixed : ∀ n, (samplePages n).store.Unmixed := fun n =>
    (reachable_samplePages n).unmixed consistent_sampleKnown.sameOutputs
  have hfault : ∀ n, (samplePages n).fault ≠ .lookups := by
    rintro (_ | n)
    · decide +kernel
    · rw [samplePages]
      decide +kernel
  refine ⟨hreachable, hunmixed, hfault, ?_⟩
  obtain ⟨⟨pages, hpages⟩, hwalk⟩ :=
    walk_pages (.basic {}) 1 (by decide) samplePages hreachable hunmixed hfault
  obtain ⟨-, -, -, -, -, honce, -⟩ := hwalk pages hpages
  refine ⟨pages, hpages, honce ⟨6, sampleCreated.outputId⟩ fun n _ => ?_⟩
  have hrow : ((samplePages n).store.row? .basic sampleCreated.outputId).any (fun record =>
      (Filter.basic {}).admits record && record.sortKey == ⟨6, sampleCreated.outputId⟩) = true := by
    cases n with
    | zero => decide +kernel
    | succ n =>
      rw [samplePages]
      decide +kernel
  obtain ⟨record, hrecord, hholds⟩ := (Option.any_eq_true _ _).1 hrow
  rw [Bool.and_eq_true, beq_iff_eq] at hholds
  have hmem : record ∈ (samplePages n).store.rowSet :=
    Store.mem_allRows_iff.2 ⟨_, _, hrecord⟩
  exact ⟨record, ⟨hmem, hholds.1⟩, hholds.2⟩

end Index

end OutputIndex
