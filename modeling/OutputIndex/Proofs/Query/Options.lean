import Mathlib.Tactic.MkIffOfInductiveProp
import OutputIndex.Proofs.Address.Key
import OutputIndex.Proofs.Output
import OutputIndex.Proofs.Query.Found

/-!
# What the options of a filter ask of an output

A filter looks at records, where addresses stand as keys and each condition or feature that matters
has a field of its own.  Here the options are read on the output itself, as statements about its
conditions and features: which one is the first of its form, and whether there is one at all
(`BasicFilter.HoldsOf` and so on for each kind, `Filter.HoldsOf` for all).

The filter admits the record of an output exactly if all its options hold of the output
(`Filter.admits_record_iff`): for any addresses if they are compared by their keys, and for
addresses as a whole if these can be identified by their keys.  A record that is marked as spent is
not admitted at all.
-/

namespace OutputIndex

/-! ## The first of its form -/

section IsFirst

variable {α β : Type} {form : β → α} {pick : α → Option β} {list : List α}

/-- The first element of the form in a list, by what it is formed from. -/
def IsFirst (form : β → α) (list : List α) (found : β) : Prop :=
  ∃ before after, list = before ++ form found :: after ∧ ∀ other, form other ∉ before

/-- If there are elements of the form, one of them is the first. -/
lemma exists_isFirst_iff : (∃ found, IsFirst form list found) ↔ ∃ found, form found ∈ list := by
  constructor
  · rintro ⟨found, before, after, rfl, -⟩
    exact ⟨found, by simp⟩
  · rintro ⟨found, hmem⟩
    induction list with
    | nil => cases hmem
    | cons x rest ih =>
      by_cases hx : ∃ other, x = form other
      · obtain ⟨other, rfl⟩ := hx
        exact ⟨other, [], rest, rfl, fun _ => List.not_mem_nil⟩
      · have hne : form found ≠ x := fun h => hx ⟨found, h.symm⟩
        obtain ⟨first, before, after, rfl, hbefore⟩ := ih ((List.mem_cons.1 hmem).resolve_left hne)
        refine ⟨first, x :: before, after, rfl, fun other hother => ?_⟩
        rcases List.mem_cons.1 hother with hother | hother
        · exact hx ⟨other, hother.symm⟩
        · exact hbefore other hother

/-- A part is what the first element of a form in a list is formed from, if there is one. -/
def IsPart (form : β → α) (list : List α) (part : Option β) : Prop :=
  ∀ found, part = some found ↔ IsFirst form list found

/-- Picking the elements of a form gives a part. -/
lemma isPart_findSome? (hpick : ∀ x found, pick x = some found ↔ x = form found) :
    IsPart form list (list.findSome? pick) := by
  intro found
  rw [List.findSome?_eq_some_iff]
  refine exists_congr fun before => ?_
  constructor
  · rintro ⟨x, after, hlist, hx, hbefore⟩
    refine ⟨after, (hpick x found).1 hx ▸ hlist, fun other hother => ?_⟩
    have hnone := hbefore (form other) hother
    rw [(hpick (form other) other).2 rfl] at hnone
    cases hnone
  · rintro ⟨after, hlist, hbefore⟩
    refine ⟨form found, after, hlist, (hpick _ _).2 rfl, fun x hx => ?_⟩
    rw [Option.eq_none_iff_forall_ne_some]
    intro other hother
    exact hbefore other ((hpick x other).1 hother ▸ hx)

lemma IsPart.isSome_iff {part : Option β} (hpart : IsPart form list part) :
    part.isSome = true ↔ ∃ found, form found ∈ list := by
  rw [Option.isSome_iff_exists, ← exists_isFirst_iff]
  exact exists_congr hpart

lemma IsPart.isSome_map_iff {γ : Type} {part : Option β} {f : β → γ}
    (hpart : IsPart form list part) : (part.map f).isSome = true ↔ ∃ found, form found ∈ list := by
  rw [Option.isSome_map, hpart.isSome_iff]

end IsFirst

/-- The condition to return the storage deposit, by its address and amount. -/
def UnlockCondition.deposit (found : Address × Amount) : UnlockCondition :=
  .storageDepositReturn found.1 found.2

/-- The condition to expire, by its address and slot. -/
def UnlockCondition.expiry (found : Address × Slot) : UnlockCondition :=
  .expiration found.1 found.2

/-- The native token, by its identifier and amount. -/
def Feature.token (found : FoundryId × TokenAmount) : Feature := .nativeToken found.1 found.2

namespace UnlockConditions

variable (conditions : UnlockConditions)

lemma isPart_address? : IsPart .address conditions conditions.address? :=
  isPart_findSome? fun condition _ => by cases condition <;> simp

lemma isPart_storageDepositReturn? : IsPart .deposit conditions conditions.storageDepositReturn? :=
  isPart_findSome? fun condition _ => by
    cases condition <;> simp [UnlockCondition.deposit, Prod.ext_iff]

lemma isPart_timelock? : IsPart .timelock conditions conditions.timelock? :=
  isPart_findSome? fun condition _ => by cases condition <;> simp

lemma isPart_expiration? : IsPart .expiry conditions conditions.expiration? :=
  isPart_findSome? fun condition _ => by
    cases condition <;> simp [UnlockCondition.expiry, Prod.ext_iff]

lemma isPart_stateController? : IsPart .stateController conditions conditions.stateController? :=
  isPart_findSome? fun condition _ => by cases condition <;> simp

lemma isPart_governor? : IsPart .governor conditions conditions.governor? :=
  isPart_findSome? fun condition _ => by cases condition <;> simp

lemma isPart_immutableAccount? :
    IsPart .immutableAccount conditions conditions.immutableAccount? :=
  isPart_findSome? fun condition _ => by cases condition <;> simp

end UnlockConditions

namespace Features

variable (features : Features)

lemma isPart_sender? : IsPart .sender features features.sender? :=
  isPart_findSome? fun feature _ => by cases feature <;> simp

lemma isPart_issuer? : IsPart .issuer features features.issuer? :=
  isPart_findSome? fun feature _ => by cases feature <;> simp

lemma isPart_tag? : IsPart .tag features features.tag? :=
  isPart_findSome? fun feature _ => by cases feature <;> simp

lemma isPart_nativeToken? : IsPart .token features features.nativeToken? :=
  isPart_findSome? fun feature _ => by cases feature <;> simp [Feature.token, Prod.ext_iff]

end Features

/-! ## What options say

Addresses are compared by a relation `same`, the address asked for first.  An option that is absent
says nothing. -/

section HoldsOf

variable (same : Address → Address → Prop)

/-- The first element of the form names the address that is asked for. -/
def FirstNames {α β : Type} (form : β → α) (addressOf : β → Address) (list : List α)
    (wanted : Address) : Prop :=
  ∃ found, IsFirst form list found ∧ same wanted (addressOf found)

/-- For each of the bounds, there is a slot that keeps it. -/
@[mk_iff]
structure SlotRange.HoldsOf (range : SlotRange) (has : Slot → Prop) : Prop where
  before : ∀ bound ∈ range.before, ∃ slot, has slot ∧ slot < bound
  after : ∀ bound ∈ range.after, ∃ slot, has slot ∧ bound < slot

/-- The address owns the output, or the output or its storage deposit returns to it. -/
def UnlockConditions.UnlockableBy (conditions : UnlockConditions) (wanted : Address) : Prop :=
  FirstNames same .address id conditions wanted ∨
    FirstNames same .expiry Prod.fst conditions wanted ∨
    FirstNames same .deposit Prod.fst conditions wanted

/-- The options hold of a basic output. -/
@[mk_iff]
structure BasicFilter.HoldsOf (filter : BasicFilter) (output : BasicOutput) (bookedAt : Slot) :
    Prop where
  hasNativeToken : ∀ wanted ∈ filter.hasNativeToken,
    wanted = true ↔ ∃ token, Feature.token token ∈ output.features
  nativeToken : ∀ wanted ∈ filter.nativeToken,
    ∃ amount, IsFirst Feature.token output.features (wanted, amount)
  unlockableBy : ∀ wanted ∈ filter.unlockableBy,
    output.unlockConditions.UnlockableBy same wanted
  address : ∀ wanted ∈ filter.address,
    FirstNames same .address id output.unlockConditions wanted
  hasStorageDepositReturn : ∀ wanted ∈ filter.hasStorageDepositReturn,
    wanted = true ↔ ∃ found, UnlockCondition.deposit found ∈ output.unlockConditions
  storageDepositReturnAddress : ∀ wanted ∈ filter.storageDepositReturnAddress,
    FirstNames same .deposit Prod.fst output.unlockConditions wanted
  hasExpiration : ∀ wanted ∈ filter.hasExpiration,
    wanted = true ↔ ∃ found, UnlockCondition.expiry found ∈ output.unlockConditions
  expirationReturnAddress : ∀ wanted ∈ filter.expirationReturnAddress,
    FirstNames same .expiry Prod.fst output.unlockConditions wanted
  expires : filter.expires.HoldsOf fun slot =>
    ∃ address, IsFirst UnlockCondition.expiry output.unlockConditions (address, slot)
  hasTimelock : ∀ wanted ∈ filter.hasTimelock,
    wanted = true ↔ ∃ slot, UnlockCondition.timelock slot ∈ output.unlockConditions
  timelocked : filter.timelocked.HoldsOf (IsFirst .timelock output.unlockConditions)
  sender : ∀ wanted ∈ filter.sender, FirstNames same .sender id output.features wanted
  tag : ∀ wanted ∈ filter.tag, wanted ≠ [] → IsFirst .tag output.features wanted
  created : filter.created.HoldsOf (· = bookedAt)

/-- The options hold of an account. -/
@[mk_iff]
structure AccountFilter.HoldsOf (filter : AccountFilter) (output : AccountOutput)
    (bookedAt : Slot) : Prop where
  address : ∀ wanted ∈ filter.address,
    FirstNames same .address id output.unlockConditions wanted
  issuer : ∀ wanted ∈ filter.issuer, FirstNames same .issuer id output.immutableFeatures wanted
  sender : ∀ wanted ∈ filter.sender, FirstNames same .sender id output.features wanted
  created : filter.created.HoldsOf (· = bookedAt)

/-- The options hold of an anchor. -/
@[mk_iff]
structure AnchorFilter.HoldsOf (filter : AnchorFilter) (output : AnchorOutput)
    (bookedAt : Slot) : Prop where
  unlockableBy : ∀ wanted ∈ filter.unlockableBy,
    FirstNames same .stateController id output.unlockConditions wanted ∨
      FirstNames same .governor id output.unlockConditions wanted
  stateController : ∀ wanted ∈ filter.stateController,
    FirstNames same .stateController id output.unlockConditions wanted
  governor : ∀ wanted ∈ filter.governor,
    FirstNames same .governor id output.unlockConditions wanted
  issuer : ∀ wanted ∈ filter.issuer, FirstNames same .issuer id output.immutableFeatures wanted
  sender : ∀ wanted ∈ filter.sender, FirstNames same .sender id output.features wanted
  created : filter.created.HoldsOf (· = bookedAt)

/-- The options hold of an NFT. -/
@[mk_iff]
structure NftFilter.HoldsOf (filter : NftFilter) (output : NftOutput) (bookedAt : Slot) :
    Prop where
  unlockableBy : ∀ wanted ∈ filter.unlockableBy,
    output.unlockConditions.UnlockableBy same wanted
  address : ∀ wanted ∈ filter.address,
    FirstNames same .address id output.unlockConditions wanted
  hasStorageDepositReturn : ∀ wanted ∈ filter.hasStorageDepositReturn,
    wanted = true ↔ ∃ found, UnlockCondition.deposit found ∈ output.unlockConditions
  storageDepositReturnAddress : ∀ wanted ∈ filter.storageDepositReturnAddress,
    FirstNames same .deposit Prod.fst output.unlockConditions wanted
  hasExpiration : ∀ wanted ∈ filter.hasExpiration,
    wanted = true ↔ ∃ found, UnlockCondition.expiry found ∈ output.unlockConditions
  expirationReturnAddress : ∀ wanted ∈ filter.expirationReturnAddress,
    FirstNames same .expiry Prod.fst output.unlockConditions wanted
  expires : filter.expires.HoldsOf fun slot =>
    ∃ address, IsFirst UnlockCondition.expiry output.unlockConditions (address, slot)
  hasTimelock : ∀ wanted ∈ filter.hasTimelock,
    wanted = true ↔ ∃ slot, UnlockCondition.timelock slot ∈ output.unlockConditions
  timelocked : filter.timelocked.HoldsOf (IsFirst .timelock output.unlockConditions)
  issuer : ∀ wanted ∈ filter.issuer, FirstNames same .issuer id output.immutableFeatures wanted
  sender : ∀ wanted ∈ filter.sender, FirstNames same .sender id output.features wanted
  tag : ∀ wanted ∈ filter.tag, wanted ≠ [] → IsFirst .tag output.features wanted
  created : filter.created.HoldsOf (· = bookedAt)

/-- The options hold of a foundry.  Its token is named after the controlling account. -/
@[mk_iff]
structure FoundryFilter.HoldsOf (filter : FoundryFilter) (output : FoundryOutput)
    (bookedAt : Slot) : Prop where
  hasNativeToken : ∀ wanted ∈ filter.hasNativeToken,
    wanted = true ↔ ∃ token, Feature.token token ∈ output.features
  nativeToken : ∀ wanted ∈ filter.nativeToken, ∃ controller,
    IsFirst .immutableAccount output.unlockConditions (.account controller) ∧
      wanted = .ofFoundry controller output.serialNumber output.tokenScheme.kind
  account : ∀ wanted ∈ filter.account,
    FirstNames same .immutableAccount id output.unlockConditions wanted
  created : filter.created.HoldsOf (· = bookedAt)

/-- The options hold of a delegation. -/
@[mk_iff]
structure DelegationFilter.HoldsOf (filter : DelegationFilter) (output : DelegationOutput)
    (bookedAt : Slot) : Prop where
  address : ∀ wanted ∈ filter.address,
    FirstNames same .address id output.unlockConditions wanted
  validator : ∀ wanted ∈ filter.validator, same wanted (.account output.validatorAddress)
  created : filter.created.HoldsOf (· = bookedAt)

/-- The options of a filter for one kind hold of an output, which is of that kind. -/
def Filter.HoldsOf : Filter → Output → Slot → Prop
  | .basic filter, .basic output => filter.HoldsOf same output
  | .account filter, .account output => filter.HoldsOf same output
  | .anchor filter, .anchor output => filter.HoldsOf same output
  | .nft filter, .nft output => filter.HoldsOf same output
  | .foundry filter, .foundry output => filter.HoldsOf same output
  | .delegation filter, .delegation output => filter.HoldsOf same output
  | _, _ => fun _ => False

end HoldsOf

/-! ## The addresses that are asked for -/

/-- The options of a filter for one kind that are addresses. -/
def Filter.asked : Filter → List (Option Address)
  | .basic filter =>
    [filter.unlockableBy, filter.address, filter.storageDepositReturnAddress,
      filter.expirationReturnAddress, filter.sender]
  | .account filter => [filter.address, filter.issuer, filter.sender]
  | .anchor filter =>
    [filter.unlockableBy, filter.stateController, filter.governor, filter.issuer, filter.sender]
  | .nft filter =>
    [filter.unlockableBy, filter.address, filter.storageDepositReturnAddress,
      filter.expirationReturnAddress, filter.issuer, filter.sender]
  | .foundry filter => [filter.account]
  | .delegation filter => [filter.address, filter.validator]
  | .combined filter => [filter.unlockableBy]

/-- The kind that a filter is for, unless it is for all. -/
def Filter.kind? : Filter → Option OutputKind
  | .basic _ => some .basic
  | .account _ => some .account
  | .anchor _ => some .anchor
  | .nft _ => some .nft
  | .foundry _ => some .foundry
  | .delegation _ => some .delegation
  | .combined _ => none

/-- The address that is asked for, if any, is the same as one that the output carries exactly if
their keys are. -/
def SameByKey (same : Address → Address → Prop) (output : Output) (asked : Option Address) : Prop :=
  ∀ wanted ∈ asked, ∀ carried, output.Carries carried →
    (carried.key = wanted.key ↔ same wanted carried)

/-! ## Options on parts of an output -/

section Parts

variable {α β : Type} {form : β → α} {addressOf : β → Address} {list : List α} {part : Option β}

lemma Filter.admitsPresence_iff {option : Option Bool} {present : Bool} {p : Prop}
    (h : present = true ↔ p) :
    Filter.admitsPresence option present = true ↔ ∀ wanted ∈ option, (wanted = true ↔ p) := by
  rw [Filter.admitsPresence, Option.all_eq_true]
  exact forall₂_congr fun wanted _ => by rw [beq_iff_eq, Bool.eq_iff_iff, h]

lemma SlotRange.admits_iff_holdsOf {range : SlotRange} {slot : Option Slot} {has : Slot → Prop}
    (hslot : ∀ s, slot = some s ↔ has s) : range.admits slot = true ↔ range.HoldsOf has := by
  simp only [SlotRange.admits, SlotRange.holdsOf_iff, Bool.and_eq_true, Option.all_eq_true,
    Option.any_eq_true, decide_eq_true_eq, hslot, gt_iff_lt, Option.mem_def]

lemma SlotRange.admits_bookedAt_iff {range : SlotRange} {bookedAt : Slot} :
    range.admits (some bookedAt) = true ↔ range.HoldsOf (· = bookedAt) :=
  SlotRange.admits_iff_holdsOf fun _ => Option.some_inj.trans eq_comm

lemma Filter.admitsTag_iff {option : Option Bytes} {features : Features} :
    Filter.admitsTag option features.mark? = true ↔
      ∀ wanted ∈ option, wanted ≠ [] → IsFirst .tag features wanted := by
  rw [Filter.admitsTag, Option.all_eq_true]
  refine forall₂_congr fun wanted _ => ?_
  rw [Bool.or_eq_true, List.isEmpty_iff, beq_iff_eq, Features.mark?, Option.filter_eq_some_iff,
    features.isPart_tag?]
  constructor
  · rintro (hempty | ⟨hfirst, -⟩) hne
    · exact absurd hempty hne
    · exact hfirst
  · intro h
    by_cases hempty : wanted = []
    · exact .inl hempty
    · exact .inr ⟨h hempty, by simpa using hempty⟩

lemma Filter.admitsToken_iff {option : Option FoundryId} {features : Features} :
    (option.all fun id => features.nativeToken?.map (·.1) == some id) = true ↔
      ∀ wanted ∈ option, ∃ amount, IsFirst Feature.token features (wanted, amount) := by
  rw [Option.all_eq_true]
  refine forall₂_congr fun wanted _ => ?_
  rw [beq_iff_eq, Option.map_eq_some_iff]
  constructor
  · rintro ⟨⟨id, amount⟩, hfound, rfl⟩
    exact ⟨amount, (features.isPart_nativeToken? _).1 hfound⟩
  · rintro ⟨amount, hfirst⟩
    exact ⟨(wanted, amount), (features.isPart_nativeToken? _).2 hfirst, rfl⟩

lemma UnlockConditions.expirationSlot_eq_some_iff {conditions : UnlockConditions} (slot : Slot) :
    conditions.expiration?.map (·.2) = some slot ↔
      ∃ address, IsFirst UnlockCondition.expiry conditions (address, slot) := by
  rw [Option.map_eq_some_iff]
  constructor
  · rintro ⟨⟨address, slot⟩, hfound, rfl⟩
    exact ⟨address, (conditions.isPart_expiration? _).1 hfound⟩
  · rintro ⟨address, hfirst⟩
    exact ⟨(address, slot), (conditions.isPart_expiration? _).2 hfirst, rfl⟩

/-- A part of an output that names an address, which the output therefore carries. -/
structure Output.AddressPart (output : Output) (form : β → α) (addressOf : β → Address)
    (list : List α) (part : Option β) : Prop where
  isPart : IsPart form list part
  carries : ∀ found, part = some found → output.Carries (addressOf found)

variable {same : Address → Address → Prop} {output : Output} {asked : Option Address}
  {wanted : Address} {found : β}

namespace Output.AddressPart

lemma any_matchesKey_iff (h : output.AddressPart form addressOf list part)
    (hsame : SameByKey same output asked) (hwanted : wanted ∈ asked) :
    (part.map fun found => (addressOf found).key).any wanted.matchesKey = true ↔
      FirstNames same form addressOf list wanted := by
  rw [Option.any_map, Option.any_eq_true]
  refine exists_congr fun found => ?_
  rw [← h.isPart found]
  refine and_congr_right fun hfound => ?_
  rw [Address.matchesKey_iff]
  exact hsame wanted hwanted _ (h.carries found hfound)

lemma matchesKey_iff (h : output.AddressPart form addressOf list part)
    (hsame : SameByKey same output asked) (hfound : part = some found) (hwanted : wanted ∈ asked) :
    wanted.matchesKey (addressOf found).key = true ↔
      FirstNames same form addressOf list wanted := by
  rw [← h.any_matchesKey_iff hsame hwanted, hfound]
  rfl

lemma admitsKey_iff (h : output.AddressPart form addressOf list part)
    (hsame : SameByKey same output asked) (hfound : part = some found) :
    Filter.admitsKey asked (addressOf found).key = true ↔
      ∀ wanted ∈ asked, FirstNames same form addressOf list wanted := by
  rw [Filter.admitsKey, Option.all_eq_true]
  exact forall₂_congr fun wanted hwanted => h.matchesKey_iff hsame hfound hwanted

lemma admitsOptionalKey_iff (h : output.AddressPart form addressOf list part)
    (hsame : SameByKey same output asked) :
    Filter.admitsOptionalKey asked (part.map fun found => (addressOf found).key) = true ↔
      ∀ wanted ∈ asked, FirstNames same form addressOf list wanted := by
  rw [Filter.admitsOptionalKey, Option.all_eq_true]
  exact forall₂_congr fun wanted hwanted => h.any_matchesKey_iff hsame hwanted

end Output.AddressPart

namespace Output

variable (output)

lemma addressPart_address :
    output.AddressPart .address id output.unlockConditions output.unlockConditions.address? :=
  ⟨UnlockConditions.isPart_address? _, fun _ => .of_address?⟩

lemma addressPart_deposit :
    output.AddressPart .deposit Prod.fst output.unlockConditions
      output.unlockConditions.storageDepositReturn? :=
  ⟨UnlockConditions.isPart_storageDepositReturn? _, fun _ => .of_storageDepositReturn?⟩

lemma addressPart_expiry :
    output.AddressPart .expiry Prod.fst output.unlockConditions
      output.unlockConditions.expiration? :=
  ⟨UnlockConditions.isPart_expiration? _, fun _ => .of_expiration?⟩

lemma addressPart_stateController :
    output.AddressPart .stateController id output.unlockConditions
      output.unlockConditions.stateController? :=
  ⟨UnlockConditions.isPart_stateController? _, fun _ => .of_stateController?⟩

lemma addressPart_governor :
    output.AddressPart .governor id output.unlockConditions output.unlockConditions.governor? :=
  ⟨UnlockConditions.isPart_governor? _, fun _ => .of_governor?⟩

lemma addressPart_immutableAccount :
    output.AddressPart .immutableAccount id output.unlockConditions
      output.unlockConditions.immutableAccount? :=
  ⟨UnlockConditions.isPart_immutableAccount? _, fun _ => .of_immutableAccount?⟩

variable {output} {features : Features}

lemma addressPart_sender (h : output.features? = some features) :
    output.AddressPart .sender id features features.sender? :=
  ⟨features.isPart_sender?, fun _ => .of_sender h⟩

lemma addressPart_issuer (h : output.immutableFeatures? = some features) :
    output.AddressPart .issuer id features features.issuer? :=
  ⟨features.isPart_issuer?, fun _ => .of_issuer h⟩

end Output

/-- Of the three keys in a record, any may be that of the address asked for. -/
lemma Filter.admitsAnyKey_iff {owner : Address} (hsame : SameByKey same output asked)
    (howner : output.unlockConditions.address? = some owner) :
    Filter.admitsAnyKey asked owner.key
        (output.unlockConditions.expiration?.map fun found => found.1.key)
        (output.unlockConditions.storageDepositReturn?.map fun found => found.1.key) = true ↔
      ∀ wanted ∈ asked, output.unlockConditions.UnlockableBy same wanted := by
  rw [Filter.admitsAnyKey, Option.all_eq_true]
  refine forall₂_congr fun wanted hwanted => ?_
  rw [Bool.or_eq_true, Bool.or_eq_true, or_assoc]
  refine or_congr (output.addressPart_address.matchesKey_iff hsame howner hwanted) ?_
  exact or_congr (output.addressPart_expiry.any_matchesKey_iff hsame hwanted)
    (output.addressPart_deposit.any_matchesKey_iff hsame hwanted)

end Parts

/-! ## Records and outputs -/

section Records

open Output UnlockConditions Features OutputIndex.Filter

variable {same : Address → Address → Prop} {id : OutputId} {bookedAt : Slot} {committed : Bool}
  {record : OutputRecord}

lemma BasicFilter.admits_iff_holdsOf {filter : BasicFilter} {output : BasicOutput}
    (h : OutputRecord.ofOutput id (.basic output) bookedAt committed = .ok record)
    (hsame : ∀ asked ∈ (Filter.basic filter).asked, SameByKey same (.basic output) asked) :
    (Filter.basic filter).admits record = true ↔ filter.HoldsOf same output bookedAt := by
  obtain ⟨owner, howner, h⟩ := bind_eq_ok_iff.1 h
  cases h
  have howner := RequiredCondition.of_eq_ok howner
  simp only [Filter.asked, List.forall_mem_cons] at hsame
  obtain ⟨hunlockable, haddress, hdeposit, hexpiry, hsender, -⟩ := hsame
  simp only [Filter.admits, Filter.sources, List.any_cons, List.any_nil, Bool.or_false,
    BasicFilter.source, BasicFilter.admits, Bool.and_eq_true, and_assoc, holdsOf_iff]
  -- the record is live, and all else is one option after the other
  exact (and_iff_right rfl).trans <|
    and_congr (admitsPresence_iff (isPart_nativeToken? _).isSome_map_iff) <|
    and_congr admitsToken_iff <|
    and_congr (admitsAnyKey_iff hunlockable howner) <|
    and_congr ((addressPart_address _).admitsKey_iff haddress howner) <|
    and_congr (admitsPresence_iff (isPart_storageDepositReturn? _).isSome_map_iff) <|
    and_congr ((addressPart_deposit _).admitsOptionalKey_iff hdeposit) <|
    and_congr (admitsPresence_iff (isPart_expiration? _).isSome_map_iff) <|
    and_congr ((addressPart_expiry _).admitsOptionalKey_iff hexpiry) <|
    and_congr (SlotRange.admits_iff_holdsOf expirationSlot_eq_some_iff) <|
    and_congr (admitsPresence_iff (isPart_timelock? _).isSome_iff) <|
    and_congr (SlotRange.admits_iff_holdsOf (isPart_timelock? _)) <|
    and_congr ((addressPart_sender rfl).admitsOptionalKey_iff hsender) <|
    and_congr admitsTag_iff SlotRange.admits_bookedAt_iff

lemma AccountFilter.admits_iff_holdsOf {filter : AccountFilter} {output : AccountOutput}
    (h : OutputRecord.ofOutput id (.account output) bookedAt committed = .ok record)
    (hsame : ∀ asked ∈ (Filter.account filter).asked, SameByKey same (.account output) asked) :
    (Filter.account filter).admits record = true ↔ filter.HoldsOf same output bookedAt := by
  obtain ⟨owner, howner, h⟩ := bind_eq_ok_iff.1 h
  cases h
  have howner := RequiredCondition.of_eq_ok howner
  simp only [Filter.asked, List.forall_mem_cons] at hsame
  obtain ⟨haddress, hissuer, hsender, -⟩ := hsame
  simp only [Filter.admits, Filter.sources, List.any_cons, List.any_nil, Bool.or_false,
    AccountFilter.source, AccountFilter.admits, Bool.and_eq_true, and_assoc, holdsOf_iff]
  exact (and_iff_right rfl).trans <|
    and_congr ((addressPart_address _).admitsKey_iff haddress howner) <|
    and_congr ((addressPart_issuer rfl).admitsOptionalKey_iff hissuer) <|
    and_congr ((addressPart_sender rfl).admitsOptionalKey_iff hsender) SlotRange.admits_bookedAt_iff

lemma AnchorFilter.admits_iff_holdsOf {filter : AnchorFilter} {output : AnchorOutput}
    (h : OutputRecord.ofOutput id (.anchor output) bookedAt committed = .ok record)
    (hsame : ∀ asked ∈ (Filter.anchor filter).asked, SameByKey same (.anchor output) asked) :
    (Filter.anchor filter).admits record = true ↔ filter.HoldsOf same output bookedAt := by
  obtain ⟨controller, hcontroller, h⟩ := bind_eq_ok_iff.1 h
  obtain ⟨governor, hgovernor, h⟩ := bind_eq_ok_iff.1 h
  cases h
  have hcontroller := RequiredCondition.of_eq_ok hcontroller
  have hgovernor := RequiredCondition.of_eq_ok hgovernor
  simp only [Filter.asked, List.forall_mem_cons] at hsame
  obtain ⟨hunlockable, hcontrolled, hgoverned, hissuer, hsender, -⟩ := hsame
  simp only [Filter.admits, Filter.sources, List.any_cons, List.any_nil, Bool.or_false,
    AnchorFilter.source, AnchorFilter.admits, Bool.and_eq_true, Bool.or_eq_true,
    Option.all_eq_true, and_assoc, holdsOf_iff]
  refine (and_iff_right rfl).trans <| and_congr (forall₂_congr fun wanted hwanted => ?_) <|
    and_congr ((addressPart_stateController _).admitsKey_iff hcontrolled hcontroller) <|
    and_congr ((addressPart_governor _).admitsKey_iff hgoverned hgovernor) <|
    and_congr ((addressPart_issuer rfl).admitsOptionalKey_iff hissuer) <|
    and_congr ((addressPart_sender rfl).admitsOptionalKey_iff hsender) SlotRange.admits_bookedAt_iff
  exact or_congr
    ((addressPart_stateController _).matchesKey_iff hunlockable hcontroller hwanted)
    ((addressPart_governor _).matchesKey_iff hunlockable hgovernor hwanted)

lemma NftFilter.admits_iff_holdsOf {filter : NftFilter} {output : NftOutput}
    (h : OutputRecord.ofOutput id (.nft output) bookedAt committed = .ok record)
    (hsame : ∀ asked ∈ (Filter.nft filter).asked, SameByKey same (.nft output) asked) :
    (Filter.nft filter).admits record = true ↔ filter.HoldsOf same output bookedAt := by
  obtain ⟨owner, howner, h⟩ := bind_eq_ok_iff.1 h
  cases h
  have howner := RequiredCondition.of_eq_ok howner
  simp only [Filter.asked, List.forall_mem_cons] at hsame
  obtain ⟨hunlockable, haddress, hdeposit, hexpiry, hissuer, hsender, -⟩ := hsame
  simp only [Filter.admits, Filter.sources, List.any_cons, List.any_nil, Bool.or_false,
    NftFilter.source, NftFilter.admits, Bool.and_eq_true, and_assoc, holdsOf_iff]
  exact (and_iff_right rfl).trans <|
    and_congr (admitsAnyKey_iff hunlockable howner) <|
    and_congr ((addressPart_address _).admitsKey_iff haddress howner) <|
    and_congr (admitsPresence_iff (isPart_storageDepositReturn? _).isSome_map_iff) <|
    and_congr ((addressPart_deposit _).admitsOptionalKey_iff hdeposit) <|
    and_congr (admitsPresence_iff (isPart_expiration? _).isSome_map_iff) <|
    and_congr ((addressPart_expiry _).admitsOptionalKey_iff hexpiry) <|
    and_congr (SlotRange.admits_iff_holdsOf expirationSlot_eq_some_iff) <|
    and_congr (admitsPresence_iff (isPart_timelock? _).isSome_iff) <|
    and_congr (SlotRange.admits_iff_holdsOf (isPart_timelock? _)) <|
    and_congr ((addressPart_issuer rfl).admitsOptionalKey_iff hissuer) <|
    and_congr ((addressPart_sender rfl).admitsOptionalKey_iff hsender) <|
    and_congr admitsTag_iff SlotRange.admits_bookedAt_iff

lemma FoundryFilter.admits_iff_holdsOf {filter : FoundryFilter} {output : FoundryOutput}
    (h : OutputRecord.ofOutput id (.foundry output) bookedAt committed = .ok record)
    (hsame : ∀ asked ∈ (Filter.foundry filter).asked, SameByKey same (.foundry output) asked) :
    (Filter.foundry filter).admits record = true ↔ filter.HoldsOf same output bookedAt := by
  obtain ⟨owner, howner, h⟩ := bind_eq_ok_iff.1 h
  have howner := RequiredCondition.of_eq_ok howner
  cases owner with
  | account controller =>
    cases h
    have hfirst : ∀ other, IsFirst .immutableAccount output.unlockConditions (.account other) ↔
        controller = other := by
      intro other
      rw [← UnlockConditions.isPart_immutableAccount?, howner, Option.some_inj,
        Address.account.injEq]
    simp only [Filter.asked, List.forall_mem_cons] at hsame
    simp only [Filter.admits, Filter.sources, List.any_cons, List.any_nil, Bool.or_false,
      FoundryFilter.source, FoundryFilter.admits, Bool.and_eq_true, and_assoc, holdsOf_iff,
      Option.all_eq_true]
    refine (and_iff_right rfl).trans <|
      and_congr (admitsPresence_iff (isPart_nativeToken? _).isSome_iff) <|
      and_congr (forall₂_congr fun wanted _ => ?_) <|
      and_congr ((addressPart_immutableAccount _).admitsKey_iff hsame.1 howner)
        SlotRange.admits_bookedAt_iff
    simp only [beq_iff_eq, hfirst, exists_eq_left']
    exact eq_comm
  | _ => cases h

lemma DelegationFilter.admits_iff_holdsOf {filter : DelegationFilter} {output : DelegationOutput}
    (h : OutputRecord.ofOutput id (.delegation output) bookedAt committed = .ok record)
    (hsame : ∀ asked ∈ (Filter.delegation filter).asked,
      SameByKey same (.delegation output) asked) :
    (Filter.delegation filter).admits record = true ↔ filter.HoldsOf same output bookedAt := by
  obtain ⟨owner, howner, h⟩ := bind_eq_ok_iff.1 h
  cases h
  have howner := RequiredCondition.of_eq_ok howner
  simp only [Filter.asked, List.forall_mem_cons] at hsame
  obtain ⟨haddress, hvalidator, -⟩ := hsame
  simp only [Filter.admits, Filter.sources, List.any_cons, List.any_nil, Bool.or_false,
    DelegationFilter.source, DelegationFilter.admits, Bool.and_eq_true, and_assoc, holdsOf_iff]
  refine (and_iff_right rfl).trans <|
    and_congr ((addressPart_address _).admitsKey_iff haddress howner) <|
    and_congr ?_ SlotRange.admits_bookedAt_iff
  rw [Filter.admitsKey, Option.all_eq_true]
  refine forall₂_congr fun wanted hwanted => ?_
  rw [Address.matchesKey_iff]
  exact hvalidator wanted hwanted _ (.validator rfl)

/-- **Filtering records is filtering outputs.**  A filter for the kind of an output admits the
record of the output exactly if each of its options holds of the output, with addresses compared by
their keys; and with addresses compared as a whole, if those that are asked for can be told from
those that the output carries.  Marked as spent, the record is not admitted. -/
theorem Filter.admits_record_iff {filter : Filter} {output : Output}
    (h : OutputRecord.ofOutput id output bookedAt committed = .ok record)
    (hkind : filter.kind? = some output.kind) :
    (filter.admits record = true ↔
        filter.HoldsOf (fun wanted carried => carried.key = wanted.key) output bookedAt) ∧
      ((∀ wanted carried, some wanted ∈ filter.asked → output.Carries carried →
          Address.Identifiable {wanted, carried}) →
        (filter.admits record = true ↔ filter.HoldsOf (· = ·) output bookedAt)) ∧
      ∀ slot ≠ 0, filter.admits (record.spentAt slot) = false := by
  have hholds : ∀ same : Address → Address → Prop,
      (∀ asked ∈ filter.asked, SameByKey same output asked) →
        (filter.admits record = true ↔ filter.HoldsOf same output bookedAt) := by
    intro same hsame
    cases filter <;> cases output <;> cases hkind
    · exact BasicFilter.admits_iff_holdsOf h hsame
    · exact AccountFilter.admits_iff_holdsOf h hsame
    · exact AnchorFilter.admits_iff_holdsOf h hsame
    · exact NftFilter.admits_iff_holdsOf h hsame
    · exact FoundryFilter.admits_iff_holdsOf h hsame
    · exact DelegationFilter.admits_iff_holdsOf h hsame
  refine ⟨hholds _ fun asked _ wanted _ carried _ => Iff.rfl, fun hidentifiable => ?_, ?_⟩
  · refine hholds _ fun asked hasked wanted hwanted carried hcarried => ?_
    have hpair := hidentifiable wanted carried (hwanted ▸ hasked) hcarried
    rw [hpair.key_inj (.inr rfl) (.inl rfl), eq_comm]
  · intro slot hslot
    rw [← Bool.not_eq_true]
    intro hadmits
    have hlive := isLive_of_admits hadmits
    rw [OutputRecord.about_spentAt, RecordMeta.isLive, beq_iff_eq] at hlive
    exact hslot hlive

end Records

/-- An account that two holders own together. -/
def sampleAccount : Output :=
  Sample.account ⟨.replicate 32 7⟩ (Sample.multiAddress [.alice, .bob] 2)

/-- What belongs to an address and is booked after slot six. -/
def sampleFilter (owner : Address) : Filter :=
  .account { address := some owner, created := { after := some 6 } }

lemma carries_sampleAccount_iff {address : Address} :
    sampleAccount.Carries address ↔ address = Sample.multiAddress [.alice, .bob] 2 := by
  rw [← Output.mem_addresses_iff]
  exact List.mem_singleton

/-- The account is found by the address of its owners, and not by a restriction of it. -/
theorem Filter.admits_record_of_sampleAccount :
    ∃ record, OutputRecord.ofOutput (Sample.outputId 7 0) sampleAccount 7 true = .ok record ∧
      (sampleFilter (Sample.multiAddress [.alice, .bob] 2)).kind? = some sampleAccount.kind ∧
      (sampleFilter (Sample.multiAddress [.alice, .bob] 2)).admits record = true ∧
      (sampleFilter Address.sampleNested).admits record = false ∧
      (sampleFilter (Sample.multiAddress [.alice, .bob] 2)).admits (record.spentAt 9) = false := by
  have hidentifiable : ∀ owner ∈ ({Address.sampleNested, Sample.multiAddress [.alice, .bob] 2} :
      Set Address), ∀ wanted carried, some wanted ∈ (sampleFilter owner).asked →
        sampleAccount.Carries carried → Address.Identifiable {wanted, carried} := by
    intro owner howner wanted carried hwanted hcarried
    obtain rfl := carries_sampleAccount_iff.1 hcarried
    obtain rfl : wanted = owner := by simpa [sampleFilter, Filter.asked] using hwanted
    refine Address.identifiable_sampleNested.mono ?_
    rintro address (rfl | rfl)
    · exact howner
    · exact .inr rfl
  obtain ⟨record, hrecord⟩ : ∃ record,
      OutputRecord.ofOutput (Sample.outputId 7 0) sampleAccount 7 true = .ok record := ⟨_, rfl⟩
  have howners : (sampleFilter (Sample.multiAddress [.alice, .bob] 2)).kind? =
      some sampleAccount.kind := rfl
  have hrestricted : (sampleFilter Address.sampleNested).kind? = some sampleAccount.kind := rfl
  refine ⟨record, hrecord, howners, ?_, ?_, (Filter.admits_record_iff hrecord howners).2.2 9 nofun⟩
  · refine ((Filter.admits_record_iff hrecord howners).2.1 (hidentifiable _ (.inr rfl))).2 ?_
    exact {
      address := fun wanted hwanted =>
        ⟨_, ⟨[], [], rfl, fun _ => List.not_mem_nil⟩, (Option.some.inj hwanted).symm⟩
      issuer := nofun
      sender := nofun
      created := ⟨nofun, fun bound hbound => ⟨7, rfl, Option.some.inj hbound ▸ by decide⟩⟩ }
  · rw [← Bool.not_eq_true,
      (Filter.admits_record_iff hrecord hrestricted).2.1 (hidentifiable _ (.inl rfl))]
    rintro ⟨haddress, -, -, -⟩
    obtain ⟨found, ⟨before, after, hlist, -⟩, hfound⟩ := haddress _ rfl
    have hmem : UnlockCondition.address found ∈ before ++ .address found :: after := by simp
    rw [← hlist] at hmem
    obtain rfl := UnlockCondition.address.inj (List.mem_singleton.1 hmem)
    cases hfound

end OutputIndex
