import OutputIndex.Proofs.Json
import OutputIndex.Proofs.Output

/-!
# Reading outputs back from JSON documents

What can go wrong with an output are its addresses.  A condition or feature fits if the address that
it names does (`UnlockCondition.Fits`, `Feature.Fits`), and an output fits if all its conditions and
features do, that is, if all addresses that it carries do (`Output.fits_iff`).  So the law of each
kind only says which fields it has, and the law of outputs is put together from those of the kinds
(`Output.inverts_json`).
-/

namespace OutputIndex

open Json (Inverts inverts_address)

/-! ## Conditions and features -/

namespace UnlockCondition

/-- The address that the condition names, if any, fits its spelled-out form. -/
def Fits (condition : UnlockCondition) : Prop :=
  ∀ address, condition.Names address → address.Fits

lemma fits_of_ofAddressJson? {make : Address → UnlockCondition} {json : Json}
    {condition : UnlockCondition} (hmake : ∀ owner, owner.Fits → (make owner).Fits)
    (h : ofAddressJson? make json = some condition) : condition.Fits := by
  obtain ⟨fields, -, h⟩ := Option.bind_eq_some_iff.1 h
  split at h
  · obtain ⟨owner, howner, h⟩ := Option.bind_eq_some_iff.1 h
    cases h
    exact hmake owner (inverts_address.fits_of_required howner)
  · cases h

lemma inverts_json : Inverts toJson ofJson? Fits where
  read_write condition h := by
    have hread : ∀ owner, condition.Names owner → Address.ofJson? owner.toJson = some owner :=
      fun owner howner => inverts_address.read_write owner (h owner howner)
    cases condition with
    | address owner => simp [toJson, ofJson?, ofAddressJson?, hread owner (.address owner)]
    | storageDepositReturn owner amount =>
      simp [toJson, ofJson?, hread owner (.storageDepositReturn owner amount)]
    | timelock slot => simp [toJson, ofJson?]
    | expiration owner slot => simp [toJson, ofJson?, hread owner (.expiration owner slot)]
    | stateController owner =>
      simp [toJson, ofJson?, ofAddressJson?, hread owner (.stateController owner)]
    | governor owner => simp [toJson, ofJson?, ofAddressJson?, hread owner (.governor owner)]
    | immutableAccount owner =>
      simp [toJson, ofJson?, ofAddressJson?, hread owner (.immutableAccount owner)]
  fits json condition h := by
    obtain ⟨⟨name, content⟩, -, h⟩ := Option.bind_eq_some_iff.1 h
    split at h
    · -- one case for each name, in the order in which the names are tried
      split at h
      · exact fits_of_ofAddressJson? (by rintro owner h _ ⟨⟩; exact h) h
      · obtain ⟨fields, -, h⟩ := Option.bind_eq_some_iff.1 h
        split at h
        · simp only [Option.bind_eq_bind, Option.bind_eq_some_iff] at h
          obtain ⟨owner, howner, amount, -, ⟨⟩⟩ := h
          rintro _ ⟨⟩
          exact inverts_address.fits_of_required howner
        · cases h
      · obtain ⟨fields, -, h⟩ := Option.bind_eq_some_iff.1 h
        split at h
        · obtain ⟨slot, -, ⟨⟩⟩ := Option.bind_eq_some_iff.1 h
          rintro _ ⟨⟩
        · cases h
      · obtain ⟨fields, -, h⟩ := Option.bind_eq_some_iff.1 h
        split at h
        · simp only [Option.bind_eq_bind, Option.bind_eq_some_iff] at h
          obtain ⟨owner, howner, slot, -, ⟨⟩⟩ := h
          rintro _ ⟨⟩
          exact inverts_address.fits_of_required howner
        · cases h
      · exact fits_of_ofAddressJson? (by rintro owner h _ ⟨⟩; exact h) h
      · exact fits_of_ofAddressJson? (by rintro owner h _ ⟨⟩; exact h) h
      · exact fits_of_ofAddressJson? (by rintro owner h _ ⟨⟩; exact h) h
      · cases h
    · cases h

end UnlockCondition

lemma UnlockConditions.inverts_json :
    Inverts toJson ofJson? fun conditions => ∀ condition ∈ conditions, condition.Fits :=
  UnlockCondition.inverts_json.list

namespace Feature

/-- The address that the feature names, if any, fits its spelled-out form. -/
def Fits (feature : Feature) : Prop :=
  ∀ address, feature.Names address → address.Fits

lemma inverts_json : Inverts toJson ofJson? Fits where
  read_write feature h := by
    have hread : ∀ owner, feature.Names owner → Address.ofJson? owner.toJson = some owner :=
      fun owner howner => inverts_address.read_write owner (h owner howner)
    cases feature with
    | sender owner => simp [toJson, ofJson?, hread owner (.sender owner)]
    | issuer owner => simp [toJson, ofJson?, hread owner (.issuer owner)]
    | metadata data => simp [toJson, ofJson?]
    | tag mark => simp [toJson, ofJson?]
    | nativeToken id amount => simp [toJson, ofJson?]
  fits json feature h := by
    obtain ⟨⟨name, content⟩, -, h⟩ := Option.bind_eq_some_iff.1 h
    split at h
    · -- the names `sender` and `issuer` come first, and no other feature names an address
      split at h
      · obtain ⟨fields, -, h⟩ := Option.bind_eq_some_iff.1 h
        split at h
        · obtain ⟨owner, howner, ⟨⟩⟩ := Option.bind_eq_some_iff.1 h
          rintro _ ⟨⟩
          exact inverts_address.fits_of_required howner
        · cases h
      · obtain ⟨fields, -, h⟩ := Option.bind_eq_some_iff.1 h
        split at h
        · obtain ⟨owner, howner, ⟨⟩⟩ := Option.bind_eq_some_iff.1 h
          rintro _ ⟨⟩
          exact inverts_address.fits_of_required howner
        · cases h
      · obtain ⟨fields, -, h⟩ := Option.bind_eq_some_iff.1 h
        split at h
        · obtain ⟨data, -, ⟨⟩⟩ := Option.bind_eq_some_iff.1 h
          rintro _ ⟨⟩
        · cases h
      · obtain ⟨fields, -, h⟩ := Option.bind_eq_some_iff.1 h
        split at h
        · obtain ⟨mark, -, ⟨⟩⟩ := Option.bind_eq_some_iff.1 h
          rintro _ ⟨⟩
        · cases h
      · obtain ⟨fields, -, h⟩ := Option.bind_eq_some_iff.1 h
        split at h
        · simp only [Option.bind_eq_bind, Option.bind_eq_some_iff] at h
          obtain ⟨id, -, amount, -, ⟨⟩⟩ := h
          rintro _ ⟨⟩
        · cases h
      · cases h
    · cases h

end Feature

lemma Features.inverts_json :
    Inverts toJson ofJson? fun features => ∀ feature ∈ features, feature.Fits :=
  Feature.inverts_json.list

@[simp] lemma TokenScheme.ofJson?_toJson (scheme : TokenScheme) :
    ofJson? scheme.toJson = some scheme := by
  obtain ⟨minted, melted, maximum⟩ := scheme
  simp [toJson, ofJson?]

/-! ## The six kinds -/

/-- The conditions and features of the output fit.  These are all its addresses but that of a
validator, which is an account and always fits. -/
structure Output.Fits (output : Output) : Prop where
  conditions : ∀ condition ∈ output.unlockConditions, condition.Fits
  features : ∀ features ∈ output.features?, ∀ feature ∈ features, feature.Fits
  immutableFeatures : ∀ features ∈ output.immutableFeatures?, ∀ feature ∈ features, feature.Fits

lemma Output.fits_iff {output : Output} :
    output.Fits ↔ ∀ address, output.Carries address → address.Fits := by
  constructor
  · rintro h address (⟨hmem, hnames⟩ | ⟨hlist, hmem, hnames⟩ | ⟨hlist, hmem, hnames⟩ | _)
    · exact h.conditions _ hmem address hnames
    · exact h.features _ hlist _ hmem address hnames
    · exact h.immutableFeatures _ hlist _ hmem address hnames
    · exact .account _
  · intro h
    constructor
    · exact fun _ hmem address hnames => h address (.condition hmem hnames)
    · exact fun _ hlist _ hmem address hnames => h address (.feature hlist hmem hnames)
    · exact fun _ hlist _ hmem address hnames => h address (.immutableFeature hlist hmem hnames)

namespace Output.Fits

variable {output : Output} {list : Features}

lemma read_conditions (h : output.Fits) :
    UnlockConditions.ofJson? output.unlockConditions.toJson = some output.unlockConditions :=
  UnlockConditions.inverts_json.read_write _ h.conditions

lemma read_features (h : output.Fits) (hlist : output.features? = some list) :
    Features.ofJson? list.toJson = some list :=
  Features.inverts_json.read_write _ (h.features _ hlist)

lemma read_immutableFeatures (h : output.Fits) (hlist : output.immutableFeatures? = some list) :
    Features.ofJson? list.toJson = some list :=
  Features.inverts_json.read_write _ (h.immutableFeatures _ hlist)

end Output.Fits

lemma Features.fits_of_withDefault {field : Json.Field} {features : Features}
    (hread : field.withDefault [] ofJson? = some features) : ∀ feature ∈ features, feature.Fits :=
  inverts_json.fits_of_withDefault (fun _ hmem => absurd hmem List.not_mem_nil) hread

lemma BasicOutput.inverts_json :
    Inverts toJson ofJson? fun output => (Output.basic output).Fits where
  read_write output h := by
    have hconditions : UnlockConditions.ofJson? output.unlockConditions.toJson =
        some output.unlockConditions := h.read_conditions
    have hfeatures := h.read_features rfl
    simp [ofJson?, toJson, hconditions, hfeatures]
  fits json output h := by
    obtain ⟨fields, -, h⟩ := Option.bind_eq_some_iff.1 h
    split at h
    · simp only [Option.bind_eq_bind, Option.bind_eq_some_iff] at h
      obtain ⟨amount, -, mana, -, conditions, hconditions, features, hfeatures, ⟨⟩⟩ := h
      refine ⟨UnlockConditions.inverts_json.fits_of_required hconditions, ?_, ?_⟩
      · rintro _ ⟨⟩
        exact Features.fits_of_withDefault hfeatures
      · rintro _ ⟨⟩
    · cases h

lemma AccountOutput.inverts_json :
    Inverts toJson ofJson? fun output => (Output.account output).Fits where
  read_write output h := by
    have hconditions : UnlockConditions.ofJson? output.unlockConditions.toJson =
        some output.unlockConditions := h.read_conditions
    have hfeatures := h.read_features rfl
    have himmutable := h.read_immutableFeatures rfl
    simp [ofJson?, toJson, hconditions, hfeatures, himmutable]
  fits json output h := by
    obtain ⟨fields, -, h⟩ := Option.bind_eq_some_iff.1 h
    split at h
    · simp only [Option.bind_eq_bind, Option.bind_eq_some_iff] at h
      obtain ⟨amount, -, mana, -, id, -, counter, -, conditions, hconditions, features,
        hfeatures, immutableFeatures, himmutable, ⟨⟩⟩ := h
      refine ⟨UnlockConditions.inverts_json.fits_of_required hconditions, ?_, ?_⟩
      · rintro _ ⟨⟩
        exact Features.fits_of_withDefault hfeatures
      · rintro _ ⟨⟩
        exact Features.fits_of_withDefault himmutable
    · cases h

lemma AnchorOutput.inverts_json :
    Inverts toJson ofJson? fun output => (Output.anchor output).Fits where
  read_write output h := by
    have hconditions : UnlockConditions.ofJson? output.unlockConditions.toJson =
        some output.unlockConditions := h.read_conditions
    have hfeatures := h.read_features rfl
    have himmutable := h.read_immutableFeatures rfl
    simp [ofJson?, toJson, hconditions, hfeatures, himmutable]
  fits json output h := by
    obtain ⟨fields, -, h⟩ := Option.bind_eq_some_iff.1 h
    split at h
    · simp only [Option.bind_eq_bind, Option.bind_eq_some_iff] at h
      obtain ⟨amount, -, mana, -, id, -, stateIndex, -, conditions, hconditions, features,
        hfeatures, immutableFeatures, himmutable, ⟨⟩⟩ := h
      refine ⟨UnlockConditions.inverts_json.fits_of_required hconditions, ?_, ?_⟩
      · rintro _ ⟨⟩
        exact Features.fits_of_withDefault hfeatures
      · rintro _ ⟨⟩
        exact Features.fits_of_withDefault himmutable
    · cases h

lemma FoundryOutput.inverts_json :
    Inverts toJson ofJson? fun output => (Output.foundry output).Fits where
  read_write output h := by
    have hconditions : UnlockConditions.ofJson? output.unlockConditions.toJson =
        some output.unlockConditions := h.read_conditions
    have hfeatures := h.read_features rfl
    have himmutable := h.read_immutableFeatures rfl
    simp [ofJson?, toJson, hconditions, hfeatures, himmutable]
  fits json output h := by
    obtain ⟨fields, -, h⟩ := Option.bind_eq_some_iff.1 h
    split at h
    · simp only [Option.bind_eq_bind, Option.bind_eq_some_iff] at h
      obtain ⟨amount, -, serialNumber, -, tokenScheme, -, conditions, hconditions, features,
        hfeatures, immutableFeatures, himmutable, ⟨⟩⟩ := h
      refine ⟨UnlockConditions.inverts_json.fits_of_required hconditions, ?_, ?_⟩
      · rintro _ ⟨⟩
        exact Features.fits_of_withDefault hfeatures
      · rintro _ ⟨⟩
        exact Features.fits_of_withDefault himmutable
    · cases h

lemma NftOutput.inverts_json :
    Inverts toJson ofJson? fun output => (Output.nft output).Fits where
  read_write output h := by
    have hconditions : UnlockConditions.ofJson? output.unlockConditions.toJson =
        some output.unlockConditions := h.read_conditions
    have hfeatures := h.read_features rfl
    have himmutable := h.read_immutableFeatures rfl
    simp [ofJson?, toJson, hconditions, hfeatures, himmutable]
  fits json output h := by
    obtain ⟨fields, -, h⟩ := Option.bind_eq_some_iff.1 h
    split at h
    · simp only [Option.bind_eq_bind, Option.bind_eq_some_iff] at h
      obtain ⟨amount, -, mana, -, id, -, conditions, hconditions, features, hfeatures,
        immutableFeatures, himmutable, ⟨⟩⟩ := h
      refine ⟨UnlockConditions.inverts_json.fits_of_required hconditions, ?_, ?_⟩
      · rintro _ ⟨⟩
        exact Features.fits_of_withDefault hfeatures
      · rintro _ ⟨⟩
        exact Features.fits_of_withDefault himmutable
    · cases h

lemma DelegationOutput.inverts_json :
    Inverts toJson ofJson? fun output => (Output.delegation output).Fits where
  read_write output h := by
    have hconditions : UnlockConditions.ofJson? output.unlockConditions.toJson =
        some output.unlockConditions := h.read_conditions
    simp [ofJson?, toJson, hconditions]
  fits json output h := by
    obtain ⟨fields, -, h⟩ := Option.bind_eq_some_iff.1 h
    split at h
    · simp only [Option.bind_eq_bind, Option.bind_eq_some_iff] at h
      obtain ⟨amount, -, delegatedAmount, -, id, -, validator, -, startEpoch, -, endEpoch, -,
        conditions, hconditions, ⟨⟩⟩ := h
      refine ⟨UnlockConditions.inverts_json.fits_of_required hconditions, ?_, ?_⟩
      · rintro _ ⟨⟩
      · rintro _ ⟨⟩
    · cases h

/-! ## Outputs of any kind -/

lemma Output.inverts_json : Inverts toJson ofJson? Fits where
  read_write output h := by
    cases output with
    | basic output => simp [toJson, ofJson?, BasicOutput.inverts_json.read_write output h]
    | account output => simp [toJson, ofJson?, AccountOutput.inverts_json.read_write output h]
    | anchor output => simp [toJson, ofJson?, AnchorOutput.inverts_json.read_write output h]
    | foundry output => simp [toJson, ofJson?, FoundryOutput.inverts_json.read_write output h]
    | nft output => simp [toJson, ofJson?, NftOutput.inverts_json.read_write output h]
    | delegation output =>
      simp [toJson, ofJson?, DelegationOutput.inverts_json.read_write output h]
  fits json output h := by
    obtain ⟨⟨name, content⟩, -, h⟩ := Option.bind_eq_some_iff.1 h
    split at h
    · split at h
      · obtain ⟨output, hread, rfl⟩ := Option.map_eq_some_iff.1 h
        exact BasicOutput.inverts_json.fits _ output hread
      · obtain ⟨output, hread, rfl⟩ := Option.map_eq_some_iff.1 h
        exact AccountOutput.inverts_json.fits _ output hread
      · obtain ⟨output, hread, rfl⟩ := Option.map_eq_some_iff.1 h
        exact AnchorOutput.inverts_json.fits _ output hread
      · obtain ⟨output, hread, rfl⟩ := Option.map_eq_some_iff.1 h
        exact FoundryOutput.inverts_json.fits _ output hread
      · obtain ⟨output, hread, rfl⟩ := Option.map_eq_some_iff.1 h
        exact NftOutput.inverts_json.fits _ output hread
      · obtain ⟨output, hread, rfl⟩ := Option.map_eq_some_iff.1 h
        exact DelegationOutput.inverts_json.fits _ output hread
      · cases h
    · cases h

end OutputIndex
