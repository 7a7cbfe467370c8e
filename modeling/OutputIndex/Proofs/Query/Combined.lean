import Mathlib.Tactic.MkIffOfInductiveProp
import OutputIndex.Proofs.Index.Definitions
import OutputIndex.Proofs.Query.Found

/-!
# Combined filters lose nothing

A combined filter has options that are read on every kind of row: what tokens it has, who can unlock
it and when it was booked (`CombinedFilter.Selects`).  Yet the filter scans some kinds only.
Outputs that cannot have tokens are left out when tokens are asked for, and foundries are left out
when the address asked for is not an account.

The first cut loses nothing because the rows of these kinds count as having no tokens
(`CombinedFilter.selects_iff_of_no_token`).  The second one loses nothing because only an account
controls a foundry, which holds of the rows of any store that the index can come to
(`Store.Reachable.exists_controller`).  So a combined query lists the identifiers of all rows that
the filter selects, in query order (`Index.run_query_combined`).
-/

namespace OutputIndex

/-! ## What is asked of a row -/

namespace OutputRecord

/-- Whether the row has native tokens.  Only basic outputs and foundries can have some. -/
def hasNativeToken : OutputRecord → Bool
  | .basic record => record.nativeToken.isSome
  | .foundry record => record.nativeToken
  | .account _ | .anchor _ | .nft _ | .delegation _ => false

/-- The token that the row is about: a basic output holds it, a foundry mints it. -/
def nativeToken? : OutputRecord → Option FoundryId
  | .basic record => record.nativeToken
  | .foundry record => some record.foundryId
  | .account _ | .anchor _ | .nft _ | .delegation _ => none

/-- The keys of the addresses that can unlock the row. -/
def unlockKeys : OutputRecord → List AddressKey
  | .basic record =>
    record.address :: (record.expirationReturnAddress.toList
      ++ record.storageDepositReturnAddress.toList)
  | .account record => [record.address]
  | .anchor record => [record.stateController, record.governor]
  | .foundry record => [record.accountAddress]
  | .nft record =>
    record.address :: (record.expirationReturnAddress.toList
      ++ record.storageDepositReturnAddress.toList)
  | .delegation record => [record.address]

end OutputRecord

/-- A slot lies strictly between the bounds. -/
@[mk_iff]
structure SlotRange.Contains (range : SlotRange) (slot : Slot) : Prop where
  before : ∀ bound ∈ range.before, slot < bound
  after : ∀ bound ∈ range.after, bound < slot

lemma SlotRange.admits_iff_contains {range : SlotRange} {slot : Slot} :
    range.admits (some slot) = true ↔ range.Contains slot := by
  simp only [SlotRange.admits, SlotRange.contains_iff, Bool.and_eq_true, Option.all_eq_true,
    Option.any_some, decide_eq_true_eq, gt_iff_lt, Option.mem_def]

-- by the test and not by the two conditions, which might be decided by going through all slots
instance (range : SlotRange) (slot : Slot) : Decidable (range.Contains slot) :=
  decidable_of_iff _ range.admits_iff_contains

/-- A row is live and satisfies all options, whatever its kind. -/
@[mk_iff]
structure CombinedFilter.Selects (filter : CombinedFilter) (record : OutputRecord) : Prop where
  live : record.about.isLive = true
  hasNativeToken : ∀ wanted ∈ filter.hasNativeToken, record.hasNativeToken = wanted
  nativeToken : ∀ id ∈ filter.nativeToken, record.nativeToken? = some id
  unlockable : ∀ address ∈ filter.unlockableBy, address.key ∈ record.unlockKeys
  created : filter.created.Contains record.about.createdAtSlot

instance (filter : CombinedFilter) (record : OutputRecord) : Decidable (filter.Selects record) :=
  decidable_of_iff' _ (filter.selects_iff record)

/-! ## Options on rows -/

/-- Only an account has the key of an account. -/
lemma Address.isAccount_of_key_eq {address : Address} {controller : AccountId}
    (h : address.key = (Address.account controller).key) : address.isAccount = true := by
  have happend : address.key ++ [] = (Address.account controller).key ++ [] := by rw [h]
  have hkind := kind_eq_of_key_append_eq happend
  cases address with
  | account => rfl
  | _ => cases hkind

section Options

variable {wanted : Option Address} {key : AddressKey} {first second : Option AddressKey}

@[simp] lemma Filter.admitsPresence_none (present : Bool) :
    Filter.admitsPresence none present = true := rfl

@[simp] lemma Filter.admitsKey_none (key : AddressKey) : Filter.admitsKey none key = true := rfl

@[simp] lemma Filter.admitsOptionalKey_none (key : Option AddressKey) :
    Filter.admitsOptionalKey none key = true := rfl

@[simp] lemma Filter.admitsTag_none (tag : Option Bytes) : Filter.admitsTag none tag = true := rfl

@[simp] lemma SlotRange.admits_unbounded (slot : Option Slot) :
    SlotRange.admits {} slot = true := rfl

lemma Filter.admitsPresence_iff_eq {option : Option Bool} {present : Bool} :
    Filter.admitsPresence option present = true ↔ ∀ wanted ∈ option, present = wanted := by
  rw [Filter.admitsPresence, Option.all_eq_true]
  exact forall₂_congr fun wanted _ => beq_iff_eq.trans eq_comm

lemma Filter.admitsKey_iff_mem :
    Filter.admitsKey wanted key = true ↔ ∀ address ∈ wanted, address.key ∈ [key] := by
  rw [Filter.admitsKey, Option.all_eq_true]
  exact forall₂_congr fun address _ => by
    rw [Address.matchesKey_iff, List.mem_singleton, eq_comm]

lemma Filter.admitsEitherKey_iff_mem {second : AddressKey} :
    (wanted.all fun address => address.matchesKey key || address.matchesKey second) = true ↔
      ∀ address ∈ wanted, address.key ∈ [key, second] := by
  rw [Option.all_eq_true]
  refine forall₂_congr fun address _ => ?_
  simp only [Bool.or_eq_true, Address.matchesKey_iff, List.mem_cons, List.not_mem_nil, or_false]
  rw [eq_comm, @eq_comm _ second]

lemma Filter.admitsAnyKey_iff_mem :
    Filter.admitsAnyKey wanted key first second = true ↔
      ∀ address ∈ wanted, address.key ∈ key :: (first.toList ++ second.toList) := by
  rw [Filter.admitsAnyKey, Option.all_eq_true]
  refine forall₂_congr fun address _ => ?_
  simp only [Bool.or_eq_true, Option.any_eq_true, Address.matchesKey_iff, List.mem_cons,
    List.mem_append, Option.mem_toList, exists_eq_right, or_assoc]
  rw [eq_comm]

end Options

namespace CombinedFilter

variable {filter : CombinedFilter}

/-- A row that has no tokens is selected only if none are asked for. -/
lemma selects_iff_of_no_token {record : OutputRecord} (hnone : record.hasNativeToken = false)
    (hnone' : record.nativeToken? = none) :
    filter.Selects record ↔ filter.wantsNativeTokens = false ∧ record.about.isLive = true ∧
      (∀ address ∈ filter.unlockableBy, address.key ∈ record.unlockKeys) ∧
      filter.created.Contains record.about.createdAtSlot := by
  have hwants : filter.wantsNativeTokens = false ↔
      (∀ wanted ∈ filter.hasNativeToken, record.hasNativeToken = wanted) ∧
        ∀ id ∈ filter.nativeToken, record.nativeToken? = some id := by
    rw [wantsNativeTokens, Bool.or_eq_false_iff, hnone, hnone']
    refine and_congr ?_ ?_
    · rcases filter.hasNativeToken with _ | _ | _ <;> simp
    · cases filter.nativeToken <;> simp
  rw [selects_iff, hwants]
  tauto

/-! ## The options for each kind -/

/-- The options for a kind without tokens hold of the rows that are selected, if they say what is
asked of every row. -/
lemma any_unless_wantsNativeTokens {α : Type} {part : α} {admits : α → Bool}
    {record : OutputRecord} (hnone : record.hasNativeToken = false)
    (hnone' : record.nativeToken? = none)
    (hadmits : admits part = true ↔ record.about.isLive = true ∧
      (∀ address ∈ filter.unlockableBy, address.key ∈ record.unlockKeys) ∧
      filter.created.Contains record.about.createdAtSlot) :
    (if filter.wantsNativeTokens then none else some part).any admits = true ↔
      filter.Selects record := by
  rw [selects_iff_of_no_token hnone hnone', ← hadmits]
  cases filter.wantsNativeTokens <;> simp

lemma any_account_iff {record : AccountRecord} :
    filter.account.any (·.admits record) = true ↔ filter.Selects (.account record) := by
  refine any_unless_wantsNativeTokens rfl rfl ?_
  simp only [AccountFilter.admits, Filter.admitsOptionalKey_none, Bool.and_true,
    Bool.and_eq_true, Filter.admitsKey_iff_mem, SlotRange.admits_iff_contains, and_assoc]
  rfl

lemma any_anchor_iff {record : AnchorRecord} :
    filter.anchor.any (·.admits record) = true ↔ filter.Selects (.anchor record) := by
  refine any_unless_wantsNativeTokens rfl rfl ?_
  simp only [AnchorFilter.admits, Filter.admitsKey_none, Filter.admitsOptionalKey_none,
    Bool.and_true, Bool.and_eq_true, Filter.admitsEitherKey_iff_mem,
    SlotRange.admits_iff_contains, and_assoc]
  rfl

lemma any_nft_iff {record : NftRecord} :
    filter.nft.any (·.admits record) = true ↔ filter.Selects (.nft record) := by
  refine any_unless_wantsNativeTokens rfl rfl ?_
  simp only [NftFilter.admits, Filter.admitsPresence_none, Filter.admitsKey_none,
    Filter.admitsOptionalKey_none, Filter.admitsTag_none, SlotRange.admits_unbounded,
    Bool.and_true, Bool.and_eq_true, Filter.admitsAnyKey_iff_mem,
    SlotRange.admits_iff_contains, and_assoc]
  rfl

lemma any_delegation_iff {record : DelegationRecord} :
    filter.delegation.any (·.admits record) = true ↔ filter.Selects (.delegation record) := by
  refine any_unless_wantsNativeTokens rfl rfl ?_
  simp only [DelegationFilter.admits, Filter.admitsKey_none, Bool.and_true, Bool.and_eq_true,
    Filter.admitsKey_iff_mem, SlotRange.admits_iff_contains, and_assoc]
  rfl

lemma admits_basic_iff {record : BasicRecord} :
    filter.basic.admits record = true ↔ filter.Selects (.basic record) := by
  simp only [BasicFilter.admits, basic, Filter.admitsPresence_none, Filter.admitsKey_none,
    Filter.admitsOptionalKey_none, Filter.admitsTag_none, SlotRange.admits_unbounded,
    Bool.and_true, Bool.and_eq_true, Option.all_eq_true, beq_iff_eq, Filter.admitsPresence_iff_eq,
    Filter.admitsAnyKey_iff_mem, SlotRange.admits_iff_contains, and_assoc]
  exact (filter.selects_iff (.basic record)).symm

/-- A foundry of an account is selected by no other address. -/
lemma any_foundry_iff {record : FoundryRecord}
    (hcontroller : ∃ controller, record.accountAddress = (Address.account controller).key) :
    filter.foundry.any (·.admits record) = true ↔ filter.Selects (.foundry record) := by
  rw [foundry]
  split
  · simp only [FoundryFilter.admits, Option.any_some, Bool.and_eq_true, Option.all_eq_true,
      beq_iff_eq, Filter.admitsPresence_iff_eq, Filter.admitsKey_iff_mem,
      SlotRange.admits_iff_contains, and_assoc]
    rw [selects_iff]
    simp only [OutputRecord.nativeToken?, Option.some_inj]
    rfl
  · rename_i hother
    refine iff_of_false Bool.false_ne_true fun hselects => hother ?_
    -- the address asked for has the key of an account, so it is one
    obtain ⟨controller, haccount⟩ := hcontroller
    refine (Option.all_eq_true _ _).2 fun address haddress => ?_
    have hkey : address.key = (Address.account controller).key :=
      (List.mem_singleton.1 (hselects.unlockable address haddress)).trans haccount
    exact Address.isAccount_of_key_eq hkey

end CombinedFilter

/-! ## Foundries have accounts -/

lemma OutputRecord.exists_controller_of_ok {output : LedgerOutput} {committed : Bool}
    {record : FoundryRecord} (h : ofLedgerOutput output committed = .ok (.foundry record)) :
    ∃ controller, record.accountAddress = (Address.account controller).key := by
  obtain ⟨id, output, slot⟩ := output
  unfold ofLedgerOutput ofOutput at h
  cases output with
  | foundry output =>
    obtain ⟨owner, -, h⟩ := bind_eq_ok_iff.1 h
    cases owner with
    | account controller =>
      cases h
      exact ⟨controller, rfl⟩
    | _ => cases h
  | basic | account | nft | delegation =>
    obtain ⟨owner, -, h⟩ := bind_eq_ok_iff.1 h
    cases h
  | anchor =>
    obtain ⟨controller, -, h⟩ := bind_eq_ok_iff.1 h
    obtain ⟨governor, -, h⟩ := bind_eq_ok_iff.1 h
    cases h

namespace Store

variable {known : Set LedgerOutput} {store : Store} {kind : OutputKind} {filter : CombinedFilter}

/-- Every foundry that a reachable store has a row of is controlled by an account. -/
lemma Reachable.exists_controller (h : Reachable known store) {record : FoundryRecord}
    (hrow : .foundry record ∈ store.rowSet) :
    ∃ controller, record.accountAddress = (Address.account controller).key := by
  obtain ⟨output, -, hrecords⟩ := h.recorded _ _ _ (h.exact.keyed.mem_rowSet_iff.1 hrow)
  -- the row was recorded without its mark, and the account is the same
  let unmarked : FoundryRecord :=
    { record with about := { record.about with deletedAtSlot := 0 } }
  have hunmarked : OutputRecord.ofLedgerOutput output record.about.committed =
      .ok (.foundry unmarked) := hrecords
  obtain ⟨controller, haccount⟩ := OutputRecord.exists_controller_of_ok hunmarked
  exact ⟨controller, haccount⟩

/-! ## All scans together -/

/-- The scan for a kind finds the rows of the kind that are selected, also if there is no scan. -/
lemma flatMap_scan_eq {α : Type} {part : Option α} {source : α → ScanSource}
    (filter : CombinedFilter) (kind : OutputKind) (hkind : ∀ options, (source options).kind = kind)
    (haccepts : ∀ record ∈ store.rowsOf kind,
      part.any (fun options => (source options).accepts record) = true ↔ filter.Selects record) :
    (part.toList.map source).flatMap
        (fun source => (store.rowsOf source.kind).filter source.accepts) =
      (store.rowsOf kind).filter fun record => filter.Selects record := by
  cases part with
  | none =>
    refine (List.filter_eq_nil_iff.2 fun record hrecord => ?_).symm
    have hselects := (haccepts record hrecord).not.1 Bool.false_ne_true
    simpa using hselects
  | some options =>
    rw [Option.toList_some, List.map_singleton, List.flatMap_singleton, hkind]
    refine List.filter_congr fun record hrecord => ?_
    rw [Bool.eq_iff_iff, decide_eq_true_iff]
    exact haccepts record hrecord

/-- The scans of a combined filter find the rows that it selects. -/
lemma Reachable.flatMap_sources_eq (h : Reachable known store) (filter : CombinedFilter) :
    filter.sources.flatMap (fun source => (store.rowsOf source.kind).filter source.accepts) =
      store.allRows.filter fun record => filter.Selects record := by
  have hrows : ∀ kind, ∀ record ∈ store.rowsOf kind,
      record ∈ store.rowSet ∧ record.kind = kind :=
    fun kind record hrecord => h.exact.keyed.mem_rowsOf_iff.1 hrecord
  -- the scans come in the order of the kinds, so each is compared with the rows of its own
  simp only [CombinedFilter.sources, List.flatMap_cons, List.flatMap_append]
  rw [flatMap_scan_eq filter .account (fun _ => rfl),
    flatMap_scan_eq filter .anchor (fun _ => rfl),
    flatMap_scan_eq filter .foundry (fun _ => rfl),
    flatMap_scan_eq filter .nft (fun _ => rfl),
    flatMap_scan_eq filter .delegation (fun _ => rfl)]
  · have hbasic : (store.rowsOf .basic).filter filter.basic.source.accepts =
        (store.rowsOf .basic).filter fun record => filter.Selects record := by
      refine List.filter_congr fun record hrecord => ?_
      obtain ⟨-, hkind⟩ := hrows _ record hrecord
      rw [Bool.eq_iff_iff, decide_eq_true_iff]
      cases record with
      | basic => exact CombinedFilter.admits_basic_iff
      | _ => cases hkind
    have hkind : filter.basic.source.kind = .basic := rfl
    rw [hkind, hbasic]
    simp only [allRows, OutputKind.all, List.flatMap_cons, List.flatMap_nil, List.filter_append,
      List.append_nil, List.append_assoc]
  all_goals
    intro record hrecord
    obtain ⟨hmem, hkind⟩ := hrows _ record hrecord
    cases record <;> cases hkind
  · exact CombinedFilter.any_delegation_iff
  · exact CombinedFilter.any_nft_iff
  · exact CombinedFilter.any_foundry_iff (h.exists_controller hmem)
  · exact CombinedFilter.any_anchor_iff
  · exact CombinedFilter.any_account_iff

/-- The rows of a store that a combined filter selects, in query order. -/
def selected (store : Store) (filter : CombinedFilter) : List OutputRecord :=
  (store.allRows.filter fun record => filter.Selects record).mergeSort
    fun a b => SortKey.le a.sortKey b.sortKey

lemma mem_selected_iff {record : OutputRecord} :
    record ∈ store.selected filter ↔ record ∈ store.rowSet ∧ filter.Selects record := by
  rw [selected, List.mem_mergeSort, List.mem_filter, decide_eq_true_iff, mem_rowSet_iff]

lemma Reachable.found_combined (h : Reachable known store) (filter : CombinedFilter) :
    (Filter.combined filter).found store none = store.selected filter := by
  have hconditions : ((Filter.combined filter).sources.map fun source =>
      (source.kind, source.finds)) =
        filter.sources.map fun source => (source.kind, source.accepts) :=
    List.map_congr_left fun source (hsource : source ∈ (Filter.combined filter).sources) => by
      rw [(Filter.covers_of_mem_sources hsource).finds_eq]
  rw [Filter.found, hconditions, fullScan, List.flatMap_map, h.flatMap_sources_eq, selected]
  simp only [Option.all_none, List.filter_true]

end Store

namespace Index

/-- **Combined queries lose nothing.**  Without pages, a combined query of a reachable store lists
the identifiers of all rows that the filter selects, of all kinds and in query order, unless
look-ups are made to fail.  The kinds that the filter does not scan have no row that it selects. -/
theorem run_query_combined (index : Index) (hreachable : Store.Reachable Set.univ index.store)
    (filter : CombinedFilter) :
    (query (.combined filter) ⟨0, none⟩).run.run index =
        (if index.fault = .lookups then (.error (.storage (.injected index.fault)), index)
        else
          (.ok {
            outputIds := (index.store.selected filter).map (·.outputId)
            committedSlot := (index.store.status.map (·.committedSlot)).getD 0
            pageSize := 0
            nextCursor := none }, index)) ∧
      ∀ kind ∉ filter.sources.map (·.kind), ∀ record ∈ index.store.rowsOf kind,
        ¬filter.Selects record := by
  have hkeyed := hreachable.exact.keyed
  constructor
  · have hbegins : (⟨0, none⟩ : Page).BeginsAt none := rfl
    have hanswer := run_querySources hreachable.exact hbegins filter.sources
    have hfound : index.store.fullScan (filter.sources.map fun source =>
        (source.kind, source.finds)) none = index.store.selected filter :=
      hreachable.found_combined filter
    rw [hfound] at hanswer
    exact hanswer
  · intro kind hkind record hrecord hselects
    obtain ⟨hrow, rfl⟩ := hkeyed.mem_rowsOf_iff.1 hrecord
    -- the row is found by some scan, and that scan is of its kind
    have hfound : record ∈ filter.sources.flatMap fun source =>
        (index.store.rowsOf source.kind).filter source.accepts := by
      rw [hreachable.flatMap_sources_eq]
      exact List.mem_filter.2 ⟨hrow, decide_eq_true hselects⟩
    obtain ⟨source, hsource, hmem⟩ := List.mem_flatMap.1 hfound
    obtain ⟨-, hscanned⟩ := hkeyed.mem_rowsOf_iff.1 (List.mem_filter.1 hmem).1
    exact hkind (List.mem_map.2 ⟨source, hsource, hscanned.symm⟩)

/-- Outputs of three kinds can be unlocked by the account, its foundry among them.  Foundries are
not scanned for alice, who can unlock the account and a basic output but not the foundry. -/
theorem run_query_combined_sampleMixed :
    let owned : CombinedFilter := { unlockableBy := some (.account sampleController) }
    let alices : CombinedFilter := { unlockableBy := some Sample.Holder.alice.address }
    Store.Reachable Set.univ sampleMixedIndex.store ∧
      (query (.combined owned) ⟨0, none⟩).run.run sampleMixedIndex =
        (.ok ⟨[sampleMixedId 4 0, sampleMixedId 5 0, sampleMixedId 6 0], 6, 0, none⟩,
          sampleMixedIndex) ∧
      (query (.combined alices) ⟨0, none⟩).run.run sampleMixedIndex =
        (.ok ⟨[sampleMixedId 3 0, sampleMixedId 5 1], 6, 0, none⟩, sampleMixedIndex) ∧
      (sampleMixedIndex.store.rowsOf .foundry).map (·.outputId) = [sampleMixedId 5 0] ∧
      ∀ record ∈ sampleMixedIndex.store.rowsOf .foundry, ¬alices.Selects record := by
  intro owned alices
  obtain ⟨howned, -⟩ := run_query_combined sampleMixedIndex reachable_sampleMixedIndex owned
  obtain ⟨halices, hleft⟩ := run_query_combined sampleMixedIndex reachable_sampleMixedIndex alices
  have hfault : sampleMixedIndex.fault ≠ .lookups := by decide
  have hslot : (sampleMixedIndex.store.status.map (·.committedSlot)).getD 0 = 6 := by
    decide +kernel
  have hall : sampleMixedIndex.store.allRows.Perm sampleMixedRows := by decide +kernel
  have hselected (filter : CombinedFilter) : sampleMixedIndex.store.selected filter =
      sampleMixedRows.filter fun record => filter.Selects record :=
    Store.mergeSort_eq_of_perm_of_pairwise (hall.filter _)
      (List.Pairwise.filter _ (by decide +kernel))
  rw [if_neg hfault, hselected, hslot] at howned halices
  have hownedIds : (sampleMixedRows.filter fun record => owned.Selects record).map (·.outputId) =
      [sampleMixedId 4 0, sampleMixedId 5 0, sampleMixedId 6 0] := by decide +kernel
  have halicesIds : (sampleMixedRows.filter fun record => alices.Selects record).map
      (·.outputId) = [sampleMixedId 3 0, sampleMixedId 5 1] := by decide +kernel
  rw [hownedIds] at howned
  rw [halicesIds] at halices
  exact ⟨reachable_sampleMixedIndex, howned, halices, by decide +kernel,
    hleft .foundry (by decide)⟩

end Index

end OutputIndex
