import OutputIndex.Proofs.Address.Key

/-!
# What the driver of a filter reaches

A filter is scanned by one of the addresses it asks for, and a record is found by its address keys.
So the scan misses nothing only if every address that a filter can be driven by is among the address
keys of every record that the filter admits.  `Filter.covers_of_mem_sources` says that this holds of
each kind of filter, whatever options are set.
-/

namespace OutputIndex

variable {record : OutputRecord}

/-! ## Drivers -/

/-- Whether a record is among the candidates that a driver finds. -/
def ScanDriver.reaches : ScanDriver → OutputRecord → Bool
  | .all, _ => true
  | .address key, record => record.addressKeys.contains key
  | .identity key, record => record.identityKey? == some key

/-- The driver of a source reaches every record that the source accepts. -/
def ScanSource.Covers (source : ScanSource) : Prop :=
  ∀ record, source.accepts record = true → source.driver.reaches record = true

namespace Filter

/-- The key of the address asked for, if there is one, is among some keys. -/
def HeldBy (wanted : Option Address) (keys : List AddressKey) : Prop :=
  ∀ address, wanted = some address → address.key ∈ keys

variable {wanted : Option Address} {key : AddressKey} {first second : Option AddressKey}
  {keys : List AddressKey}

lemma heldBy_of_admitsKey (h : admitsKey wanted key = true) (hkey : key ∈ keys) :
    HeldBy wanted keys := by
  rintro address rfl
  obtain rfl := Address.matchesKey_iff.1 h
  exact hkey

lemma heldBy_of_admitsOptionalKey (h : admitsOptionalKey wanted first = true)
    (hkeys : ∀ key ∈ first, key ∈ keys) : HeldBy wanted keys := by
  rintro address rfl
  obtain ⟨key, hfirst, hkey⟩ := (Option.any_eq_true _ _).1 h
  obtain rfl := Address.matchesKey_iff.1 hkey
  exact hkeys _ hfirst

lemma heldBy_of_admitsAnyKey (h : admitsAnyKey wanted key first second = true)
    (hkey : key ∈ keys) (hfirst : ∀ key ∈ first, key ∈ keys)
    (hsecond : ∀ key ∈ second, key ∈ keys) : HeldBy wanted keys := by
  rintro address rfl
  simp only [admitsAnyKey, Option.all_some, Bool.or_eq_true] at h
  rcases h with (h | h) | h
  · have hheld : HeldBy (some address) keys := heldBy_of_admitsKey h hkey
    exact hheld address rfl
  · have hheld : HeldBy (some address) keys := heldBy_of_admitsOptionalKey h hfirst
    exact hheld address rfl
  · have hheld : HeldBy (some address) keys := heldBy_of_admitsOptionalKey h hsecond
    exact hheld address rfl

/-- A driver that is chosen among some addresses reaches the records that hold all of them. -/
lemma reaches_addressDriver {options : List (Option Address)}
    (h : ∀ wanted ∈ options, HeldBy wanted record.addressKeys) :
    (addressDriver options).reaches record = true := by
  unfold addressDriver
  split
  · rename_i address hfirst
    obtain ⟨option, hmem, hoption⟩ := List.exists_of_findSome?_eq_some hfirst
    exact List.contains_iff_mem.2 (h option hmem address hoption)
  · rfl

end Filter

open OutputIndex.Filter

/-! ## The filters -/

lemma BasicFilter.covers (filter : BasicFilter) : filter.source.Covers := by
  intro record haccepts
  cases record with
  | basic record =>
    have hadmits : filter.admits record = true := haccepts
    simp only [admits, Bool.and_eq_true, and_assoc] at hadmits
    obtain ⟨-, -, -, hany, howner, -, hdeposit, -, hexpiration, -, -, -, hsender, -⟩ := hadmits
    refine reaches_addressDriver ?_
    simp only [List.forall_mem_cons]
    refine ⟨heldBy_of_admitsKey howner ?_, heldBy_of_admitsAnyKey hany ?_ ?_ ?_,
      heldBy_of_admitsOptionalKey hsender ?_, heldBy_of_admitsOptionalKey hdeposit ?_,
      heldBy_of_admitsOptionalKey hexpiration ?_, List.forall_mem_nil _⟩
    all_goals simp +contextual [OutputRecord.mem_addressKeys_iff, OutputRecord.heldKeys]
  | _ => cases haccepts

lemma AccountFilter.covers (filter : AccountFilter) : filter.source.Covers := by
  intro record haccepts
  cases record with
  | account record =>
    have hadmits : filter.admits record = true := haccepts
    simp only [admits, Bool.and_eq_true, and_assoc] at hadmits
    obtain ⟨-, howner, hissuer, hsender, -⟩ := hadmits
    refine reaches_addressDriver ?_
    simp only [List.forall_mem_cons]
    refine ⟨heldBy_of_admitsKey howner ?_, heldBy_of_admitsOptionalKey hissuer ?_,
      heldBy_of_admitsOptionalKey hsender ?_, List.forall_mem_nil _⟩
    all_goals simp +contextual [OutputRecord.mem_addressKeys_iff, OutputRecord.heldKeys]
  | _ => cases haccepts

lemma AnchorFilter.covers (filter : AnchorFilter) : filter.source.Covers := by
  intro record haccepts
  cases record with
  | anchor record =>
    have hadmits : filter.admits record = true := haccepts
    simp only [admits, Bool.and_eq_true, and_assoc] at hadmits
    obtain ⟨-, heither, hcontroller, hgovernor, hissuer, hsender, -⟩ := hadmits
    -- either key of an anchor unlocks it, and there is no third one
    have hany : admitsAnyKey filter.unlockableBy record.stateController (some record.governor)
        none = true := by simpa [admitsAnyKey] using heither
    refine reaches_addressDriver ?_
    simp only [List.forall_mem_cons]
    refine ⟨heldBy_of_admitsKey hcontroller ?_, heldBy_of_admitsKey hgovernor ?_,
      heldBy_of_admitsAnyKey hany ?_ ?_ ?_, heldBy_of_admitsOptionalKey hissuer ?_,
      heldBy_of_admitsOptionalKey hsender ?_, List.forall_mem_nil _⟩
    all_goals simp +contextual [OutputRecord.mem_addressKeys_iff, OutputRecord.heldKeys]
  | _ => cases haccepts

lemma NftFilter.covers (filter : NftFilter) : filter.source.Covers := by
  intro record haccepts
  cases record with
  | nft record =>
    have hadmits : filter.admits record = true := haccepts
    simp only [admits, Bool.and_eq_true, and_assoc] at hadmits
    obtain ⟨-, hany, howner, -, hdeposit, -, hexpiration, -, -, -, hissuer, hsender, -⟩ := hadmits
    refine reaches_addressDriver ?_
    simp only [List.forall_mem_cons]
    refine ⟨heldBy_of_admitsKey howner ?_, heldBy_of_admitsAnyKey hany ?_ ?_ ?_,
      heldBy_of_admitsOptionalKey hissuer ?_, heldBy_of_admitsOptionalKey hsender ?_,
      heldBy_of_admitsOptionalKey hdeposit ?_, heldBy_of_admitsOptionalKey hexpiration ?_,
      List.forall_mem_nil _⟩
    all_goals simp +contextual [OutputRecord.mem_addressKeys_iff, OutputRecord.heldKeys]
  | _ => cases haccepts

lemma FoundryFilter.covers (filter : FoundryFilter) : filter.source.Covers := by
  intro record haccepts
  cases record with
  | foundry record =>
    have hadmits : filter.admits record = true := haccepts
    simp only [admits, Bool.and_eq_true, and_assoc] at hadmits
    obtain ⟨-, -, -, haccount, -⟩ := hadmits
    refine reaches_addressDriver ?_
    simp only [List.forall_mem_cons]
    refine ⟨heldBy_of_admitsKey haccount ?_, List.forall_mem_nil _⟩
    simp [OutputRecord.mem_addressKeys_iff, OutputRecord.heldKeys]
  | _ => cases haccepts

lemma DelegationFilter.covers (filter : DelegationFilter) : filter.source.Covers := by
  intro record haccepts
  cases record with
  | delegation record =>
    have hadmits : filter.admits record = true := haccepts
    simp only [admits, Bool.and_eq_true, and_assoc] at hadmits
    obtain ⟨-, howner, hvalidator, -⟩ := hadmits
    refine reaches_addressDriver ?_
    simp only [List.forall_mem_cons]
    refine ⟨heldBy_of_admitsKey howner ?_, heldBy_of_admitsKey hvalidator ?_,
      List.forall_mem_nil _⟩
    all_goals simp [OutputRecord.mem_addressKeys_iff, OutputRecord.heldKeys]
  | _ => cases haccepts

/-- What holds of the scan of each filter for one kind holds of the scans of any filter. -/
lemma Filter.forall_sources {P : ScanSource → Prop} (hbasic : ∀ part : BasicFilter, P part.source)
    (haccount : ∀ part : AccountFilter, P part.source)
    (hanchor : ∀ part : AnchorFilter, P part.source) (hnft : ∀ part : NftFilter, P part.source)
    (hfoundry : ∀ part : FoundryFilter, P part.source)
    (hdelegation : ∀ part : DelegationFilter, P part.source) (filter : Filter) :
    ∀ source ∈ filter.sources, P source := by
  intro source h
  cases filter with
  | basic filter => exact List.mem_singleton.1 h ▸ hbasic filter
  | account filter => exact List.mem_singleton.1 h ▸ haccount filter
  | anchor filter => exact List.mem_singleton.1 h ▸ hanchor filter
  | nft filter => exact List.mem_singleton.1 h ▸ hnft filter
  | foundry filter => exact List.mem_singleton.1 h ▸ hfoundry filter
  | delegation filter => exact List.mem_singleton.1 h ▸ hdelegation filter
  | combined filter =>
    simp only [sources, CombinedFilter.sources, List.mem_cons, List.mem_append, List.mem_map] at h
    rcases h with rfl | (((⟨part, -, rfl⟩ | ⟨part, -, rfl⟩) | ⟨part, -, rfl⟩) | ⟨part, -, rfl⟩) |
      ⟨part, -, rfl⟩
    · exact hbasic filter.basic
    · exact haccount part
    · exact hanchor part
    · exact hfoundry part
    · exact hnft part
    · exact hdelegation part

/-- **The scans of a filter miss nothing**: whatever address a filter is driven by, the driver
reaches every record that the filter admits. -/
theorem Filter.covers_of_mem_sources {filter : Filter} {source : ScanSource}
    (h : source ∈ filter.sources) : source.Covers :=
  filter.forall_sources (·.covers) (·.covers) (·.covers) (·.covers) (·.covers) (·.covers) source h

end OutputIndex
