import Mathlib.Tactic.Lemma
import OutputIndex.Proofs.Record

/-!
# The addresses that an output carries

An output carries an address if one of its conditions, features or immutable features names it, or
if it is the validator's (`Output.Carries`).  These are the addresses whose multi addresses are
referred to (`Output.mem_addresses_iff`), and the record of an output holds the keys of no other
addresses (`OutputRecord.Records.exists_carries`).
-/

namespace OutputIndex

/-- A condition names an address. -/
inductive UnlockCondition.Names : UnlockCondition → Address → Prop where
  | address (address : Address) : Names (.address address) address
  | storageDepositReturn (address : Address) (amount : Amount) :
    Names (.storageDepositReturn address amount) address
  | expiration (address : Address) (slot : Slot) : Names (.expiration address slot) address
  | stateController (address : Address) : Names (.stateController address) address
  | governor (address : Address) : Names (.governor address) address
  | immutableAccount (address : Address) : Names (.immutableAccount address) address

/-- A feature names an address. -/
inductive Feature.Names : Feature → Address → Prop where
  | sender (address : Address) : Names (.sender address) address
  | issuer (address : Address) : Names (.issuer address) address

/-- An output carries an address. -/
inductive Output.Carries (output : Output) : Address → Prop where
  | condition {condition : UnlockCondition} {address : Address}
      (hmem : condition ∈ output.unlockConditions) (h : condition.Names address) :
      Carries output address
  | feature {features : Features} {feature : Feature} {address : Address}
      (hfeatures : output.features? = some features) (hmem : feature ∈ features)
      (h : feature.Names address) : Carries output address
  | immutableFeature {features : Features} {feature : Feature} {address : Address}
      (hfeatures : output.immutableFeatures? = some features) (hmem : feature ∈ features)
      (h : feature.Names address) : Carries output address
  | validator {id : AccountId} (h : output.validator? = some id) : Carries output (.account id)

variable {address : Address}

/-! ## All addresses -/

lemma UnlockConditions.mem_addresses_iff {conditions : UnlockConditions} :
    address ∈ conditions.addresses ↔ ∃ condition ∈ conditions, condition.Names address := by
  rw [addresses, List.mem_filterMap]
  refine exists_congr fun condition => and_congr_right fun _ => ?_
  constructor
  · intro h
    cases condition <;> cases h <;> constructor
  · rintro (_ | _ | _ | _ | _ | _) <;> rfl

lemma Features.mem_addresses_iff {features : Features} :
    address ∈ features.addresses ↔ ∃ feature ∈ features, feature.Names address := by
  rw [addresses, List.mem_filterMap]
  refine exists_congr fun feature => and_congr_right fun _ => ?_
  constructor
  · intro h
    cases feature <;> cases h <;> constructor
  · rintro (_ | _) <;> rfl

lemma Features.mem_addresses_getD_iff {features? : Option Features} :
    address ∈ (features?.getD []).addresses ↔
      ∃ features, features? = some features ∧ ∃ feature ∈ features, feature.Names address := by
  rw [mem_addresses_iff]
  cases features? with
  | none => simp
  | some features => simp

lemma Output.mem_addresses_iff {output : Output} :
    address ∈ output.addresses ↔ output.Carries address := by
  rw [addresses, List.mem_append, List.mem_append, List.mem_append,
    UnlockConditions.mem_addresses_iff, Features.mem_addresses_getD_iff,
    Features.mem_addresses_getD_iff]
  constructor
  · rintro (((⟨condition, hmem, h⟩ | ⟨features, hfeatures, feature, hmem, h⟩) |
      ⟨features, hfeatures, feature, hmem, h⟩) | h)
    · exact .condition hmem h
    · exact .feature hfeatures hmem h
    · exact .immutableFeature hfeatures hmem h
    · obtain ⟨id, hid, rfl⟩ := List.mem_map.1 h
      exact .validator (Option.mem_toList.1 hid)
  · rintro (⟨hmem, h⟩ | ⟨hfeatures, hmem, h⟩ | ⟨hfeatures, hmem, h⟩ | h)
    · exact .inl (.inl (.inl ⟨_, hmem, h⟩))
    · exact .inl (.inl (.inr ⟨_, hfeatures, _, hmem, h⟩))
    · exact .inl (.inr ⟨_, hfeatures, _, hmem, h⟩)
    · exact .inr (List.mem_map_of_mem (Option.mem_toList.2 h))

/-! ## Recorded addresses -/

namespace Output.Carries

variable {output : Output}

/-- What is picked from the conditions is carried. -/
lemma of_pick {α : Type} {found : α} {pick : UnlockCondition → Option α} (addressOf : α → Address)
    (hpick : ∀ condition found, pick condition = some found → condition.Names (addressOf found))
    (h : output.unlockConditions.findSome? pick = some found) :
    output.Carries (addressOf found) := by
  obtain ⟨condition, hmem, hfound⟩ := List.exists_of_findSome?_eq_some h
  exact .condition hmem (hpick condition found hfound)

lemma of_address? (h : output.unlockConditions.address? = some address) :
    output.Carries address := by
  refine of_pick id (fun condition found hfound => ?_) h
  cases condition <;> cases hfound
  exact .address found

lemma of_storageDepositReturn? {found : Address × Amount}
    (h : output.unlockConditions.storageDepositReturn? = some found) : output.Carries found.1 := by
  refine of_pick Prod.fst (fun condition found hfound => ?_) h
  cases condition <;> cases hfound
  exact .storageDepositReturn _ _

lemma of_expiration? {found : Address × Slot}
    (h : output.unlockConditions.expiration? = some found) : output.Carries found.1 := by
  refine of_pick Prod.fst (fun condition found hfound => ?_) h
  cases condition <;> cases hfound
  exact .expiration _ _

lemma of_stateController? (h : output.unlockConditions.stateController? = some address) :
    output.Carries address := by
  refine of_pick id (fun condition found hfound => ?_) h
  cases condition <;> cases hfound
  exact .stateController found

lemma of_governor? (h : output.unlockConditions.governor? = some address) :
    output.Carries address := by
  refine of_pick id (fun condition found hfound => ?_) h
  cases condition <;> cases hfound
  exact .governor found

lemma of_immutableAccount? (h : output.unlockConditions.immutableAccount? = some address) :
    output.Carries address := by
  refine of_pick id (fun condition found hfound => ?_) h
  cases condition <;> cases hfound
  exact .immutableAccount found

lemma of_sender {features : Features} (hfeatures : output.features? = some features)
    (h : features.sender? = some address) : output.Carries address := by
  obtain ⟨feature, hmem, hfound⟩ := List.exists_of_findSome?_eq_some h
  refine .feature hfeatures hmem ?_
  cases feature <;> cases hfound
  exact .sender address

lemma of_issuer {features : Features} (hfeatures : output.immutableFeatures? = some features)
    (h : features.issuer? = some address) : output.Carries address := by
  obtain ⟨feature, hmem, hfound⟩ := List.exists_of_findSome?_eq_some h
  refine .immutableFeature hfeatures hmem ?_
  cases feature <;> cases hfound
  exact .issuer address

end Output.Carries

lemma RequiredCondition.of_eq_ok {condition : RequiredCondition} {found : Option Address}
    (h : condition.of found = .ok address) : found = some address := by
  cases found with
  | none => cases h
  | some owner =>
    cases h
    rfl

/-- A key that is recorded from an optional part is that of a carried address if the part is. -/
lemma exists_carries_of_mem_map {output : Output} {α : Type} {part : Option α} {key : AddressKey}
    (addressOf : α → Address) (h : key ∈ (part.map fun found => (addressOf found).key).toList)
    (hpart : ∀ found, part = some found → output.Carries (addressOf found)) :
    ∃ address, output.Carries address ∧ address.key = key := by
  cases part with
  | none => simp at h
  | some found =>
    obtain rfl : key = (addressOf found).key := by simpa using h
    exact ⟨_, hpart found rfl, rfl⟩

namespace OutputRecord

open Output.Carries

lemma exists_carries_of_ok {output : LedgerOutput} {committed : Bool} {record : OutputRecord}
    {key : AddressKey} (h : ofLedgerOutput output committed = .ok record)
    (hkey : key ∈ record.heldKeys) :
    ∃ address, output.output.Carries address ∧ address.key = key := by
  obtain ⟨id, output, slot⟩ := output
  unfold ofLedgerOutput ofOutput at h
  cases output with
  | basic output =>
    obtain ⟨owner, howner, h⟩ := bind_eq_ok_iff.1 h
    cases h
    simp only [heldKeys, List.mem_cons, List.mem_append] at hkey
    rcases hkey with rfl | (hkey | hkey) | hkey
    · exact ⟨owner, of_address? (RequiredCondition.of_eq_ok howner), rfl⟩
    · exact exists_carries_of_mem_map _ hkey fun _ => of_sender rfl
    · exact exists_carries_of_mem_map _ hkey fun _ h => of_storageDepositReturn? h
    · exact exists_carries_of_mem_map _ hkey fun _ h => of_expiration? h
  | account output =>
    obtain ⟨owner, howner, h⟩ := bind_eq_ok_iff.1 h
    cases h
    simp only [heldKeys, List.mem_cons, List.mem_append] at hkey
    rcases hkey with rfl | hkey | hkey
    · exact ⟨owner, of_address? (RequiredCondition.of_eq_ok howner), rfl⟩
    · exact exists_carries_of_mem_map _ hkey fun _ => of_issuer rfl
    · exact exists_carries_of_mem_map _ hkey fun _ => of_sender rfl
  | anchor output =>
    obtain ⟨controller, hcontroller, h⟩ := bind_eq_ok_iff.1 h
    obtain ⟨governor, hgovernor, h⟩ := bind_eq_ok_iff.1 h
    cases h
    simp only [heldKeys, List.mem_cons, List.mem_append] at hkey
    rcases hkey with rfl | rfl | hkey | hkey
    · exact ⟨controller, of_stateController? (RequiredCondition.of_eq_ok hcontroller), rfl⟩
    · exact ⟨governor, of_governor? (RequiredCondition.of_eq_ok hgovernor), rfl⟩
    · exact exists_carries_of_mem_map _ hkey fun _ => of_issuer rfl
    · exact exists_carries_of_mem_map _ hkey fun _ => of_sender rfl
  | foundry output =>
    obtain ⟨owner, howner, h⟩ := bind_eq_ok_iff.1 h
    cases owner with
    | account controller =>
      cases h
      obtain rfl := List.mem_singleton.1 hkey
      exact ⟨_, of_immutableAccount? (RequiredCondition.of_eq_ok howner), rfl⟩
    | _ => cases h
  | nft output =>
    obtain ⟨owner, howner, h⟩ := bind_eq_ok_iff.1 h
    cases h
    simp only [heldKeys, List.mem_cons, List.mem_append] at hkey
    rcases hkey with rfl | ((hkey | hkey) | hkey) | hkey
    · exact ⟨owner, of_address? (RequiredCondition.of_eq_ok howner), rfl⟩
    · exact exists_carries_of_mem_map _ hkey fun _ => of_issuer rfl
    · exact exists_carries_of_mem_map _ hkey fun _ => of_sender rfl
    · exact exists_carries_of_mem_map _ hkey fun _ h => of_storageDepositReturn? h
    · exact exists_carries_of_mem_map _ hkey fun _ h => of_expiration? h
  | delegation output =>
    obtain ⟨owner, howner, h⟩ := bind_eq_ok_iff.1 h
    cases h
    simp only [heldKeys, List.mem_cons, List.not_mem_nil, or_false] at hkey
    rcases hkey with rfl | rfl
    · exact ⟨owner, of_address? (RequiredCondition.of_eq_ok howner), rfl⟩
    · exact ⟨_, .validator rfl, rfl⟩

/-- Every address key in the record of an output is that of an address that the output carries. -/
lemma Records.exists_carries {record : OutputRecord} {output : LedgerOutput} {key : AddressKey}
    (h : record.Records output) (hkey : key ∈ record.addressKeys) :
    ∃ address, output.output.Carries address ∧ address.key = key := by
  refine exists_carries_of_ok h (mem_addressKeys_iff.1 ?_)
  rw [OutputRecord.spentAt, addressKeys_withAbout]
  exact hkey

end OutputRecord

end OutputIndex
