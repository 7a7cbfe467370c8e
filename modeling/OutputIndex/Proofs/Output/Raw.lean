import Mathlib.Tactic.IntervalCases
import OutputIndex.Output.Raw
import OutputIndex.Proofs.Binary.Format
import OutputIndex.Proofs.Output

/-!
# Reading raw outputs

An output reads back from its raw form whatever stands behind it, if its addresses fit and the form
is short enough for the counts in it.  The other way round, what is read as an output has begun with
the raw form of that output, except that some digits of metadata and tags may have been in capitals
(`Output.SpelledAs`).  Both are said by `Output.decode_raw`.
-/

namespace OutputIndex

open Format

/-! ## Unlock conditions -/

namespace UnlockCondition

lemma alternative_address : format.Alternative 0 Format.address address :=
  alternative_sum (by decide) (by decide) (fun _ => rfl) (fun _ => rfl) fun _ => rfl

lemma alternative_storageDepositReturn :
    format.Alternative 1 (Format.address.prod word64)
      fun (owner, amount) => storageDepositReturn owner amount :=
  alternative_sum (by decide) (by decide) (fun _ => rfl) (fun _ => rfl) fun _ => rfl

lemma alternative_timelock : format.Alternative 2 word32 timelock :=
  alternative_sum (by decide) (by decide) (fun _ => rfl) (fun _ => rfl) fun _ => rfl

lemma alternative_expiration :
    format.Alternative 3 (Format.address.prod word32) fun (owner, slot) => expiration owner slot :=
  alternative_sum (by decide) (by decide) (fun _ => rfl) (fun _ => rfl) fun _ => rfl

lemma alternative_stateController : format.Alternative 4 Format.address stateController :=
  alternative_sum (by decide) (by decide) (fun _ => rfl) (fun _ => rfl) fun _ => rfl

lemma alternative_governor : format.Alternative 5 Format.address governor :=
  alternative_sum (by decide) (by decide) (fun _ => rfl) (fun _ => rfl) fun _ => rfl

lemma alternative_immutableAccount : format.Alternative 6 Format.address immutableAccount :=
  alternative_sum (by decide) (by decide) (fun _ => rfl) (fun _ => rfl) fun _ => rfl

lemma readsShort {condition : UnlockCondition}
    (h : ∀ address, condition.Names address → address.Fits) : format.ReadsShort condition := by
  cases condition with
  | address owner =>
    exact alternative_address.readsShort (readsShort_address (h _ (.address owner)))
  | storageDepositReturn owner amount =>
    have howner := readsShort_address (h _ (.storageDepositReturn owner amount))
    have hboth := alternative_storageDepositReturn.readsShort
      (howner.prod (reads_word64 amount).short)
    exact hboth
  | timelock slot => exact alternative_timelock.readsShort (reads_word32 slot).short
  | expiration owner slot =>
    have howner := readsShort_address (h _ (.expiration owner slot))
    have hboth := alternative_expiration.readsShort (howner.prod (reads_word32 slot).short)
    exact hboth
  | stateController owner =>
    exact alternative_stateController.readsShort (readsShort_address (h _ (.stateController owner)))
  | governor owner =>
    exact alternative_governor.readsShort (readsShort_address (h _ (.governor owner)))
  | immutableAccount owner =>
    exact alternative_immutableAccount.readsShort
      (readsShort_address (h _ (.immutableAccount owner)))

lemma exact_format : format.Exact := by
  refine exact_sum fun number hnumber => ?_
  interval_cases number
  · exact ⟨_, _, _, alternative_address, exact_address⟩
  · exact ⟨_, _, _, alternative_storageDepositReturn, exact_address.prod exact_word64⟩
  · exact ⟨_, _, _, alternative_timelock, exact_word32⟩
  · exact ⟨_, _, _, alternative_expiration, exact_address.prod exact_word32⟩
  · exact ⟨_, _, _, alternative_stateController, exact_address⟩
  · exact ⟨_, _, _, alternative_governor, exact_address⟩
  · exact ⟨_, _, _, alternative_immutableAccount, exact_address⟩

end UnlockCondition

lemma UnlockConditions.readsShort {conditions : UnlockConditions}
    (h : ∀ condition ∈ conditions, ∀ address, condition.Names address → address.Fits) :
    UnlockConditions.format.ReadsShort conditions :=
  ReadsShort.list (fun condition hmem => UnlockCondition.readsShort (h condition hmem))
    fun condition _ => write_sum_ne_nil condition

lemma UnlockConditions.exact_format : UnlockConditions.format.Exact :=
  UnlockCondition.exact_format.list

/-! ## Token schemes -/

namespace TokenScheme

lemma alternative_simple :
    format.Alternative 0 (word128.prod (word128.prod word128))
      fun (minted, melted, maximum) => simple minted melted maximum := by
  unfold format
  exact alternative_sum (by decide) (by decide) (fun _ => rfl) (fun _ => rfl) fun _ => rfl

lemma reads (scheme : TokenScheme) : format.Reads scheme := by
  obtain ⟨minted, melted, maximum⟩ := scheme
  have hparts := alternative_simple.reads
    ((reads_word128 minted).prod ((reads_word128 melted).prod (reads_word128 maximum)))
  exact hparts

lemma exact_format : format.Exact := by
  unfold format
  refine exact_sum fun number hnumber => ?_
  interval_cases number
  exact ⟨_, _, _, alternative_simple, exact_word128.prod (exact_word128.prod exact_word128)⟩

end TokenScheme

/-! ## Features -/

namespace Feature

/-- A feature may be spelled with some digits of its metadata or tag in capitals. -/
inductive SpelledAs : Feature → Bytes → Prop where
  | written (feature : Feature) : SpelledAs feature (format.write feature)
  | metadata {data : Bytes} {digits : String} (h : digits.toLower = Hex.encode data) :
    SpelledAs (.metadata data) (littleEndian 4 2 ++ text.write digits)
  | tag {mark : Bytes} {digits : String} (h : digits.toLower = Hex.encode mark) :
    SpelledAs (.tag mark) (littleEndian 4 3 ++ text.write digits)

lemma alternative_sender : format.Alternative 0 Format.address sender :=
  alternative_sum (by decide) (by decide) (fun _ => rfl) (fun _ => rfl) fun _ => rfl

lemma alternative_issuer : format.Alternative 1 Format.address issuer :=
  alternative_sum (by decide) (by decide) (fun _ => rfl) (fun _ => rfl) fun _ => rfl

lemma alternative_metadata : format.Alternative 2 hex metadata :=
  alternative_sum (by decide) (by decide) (fun _ => rfl) (fun _ => rfl) fun _ => rfl

lemma alternative_tag : format.Alternative 3 hex tag :=
  alternative_sum (by decide) (by decide) (fun _ => rfl) (fun _ => rfl) fun _ => rfl

lemma alternative_nativeToken :
    format.Alternative 4 ((identifier .foundry).prod word128)
      fun (token, amount) => nativeToken token amount :=
  alternative_sum (by decide) (by decide) (fun _ => rfl) (fun _ => rfl) fun _ => rfl

lemma readsShort {feature : Feature} (h : ∀ address, feature.Names address → address.Fits) :
    format.ReadsShort feature := by
  cases feature with
  | sender address =>
    exact alternative_sender.readsShort (readsShort_address (h _ (.sender address)))
  | issuer address =>
    exact alternative_issuer.readsShort (readsShort_address (h _ (.issuer address)))
  | metadata data => exact alternative_metadata.readsShort (readsShort_hex data)
  | tag mark => exact alternative_tag.readsShort (readsShort_hex mark)
  | nativeToken id amount =>
    have hboth := alternative_nativeToken.readsShort
      ((reads_identifier id).prod (reads_word128 amount)).short
    exact hboth

/-- What is read from an alternative that is written in one way only is a written form. -/
lemma spelledAs_of_alternative {β : Type} {number : ℕ} {content : Format β} {ctor : β → Feature}
    (halt : format.Alternative number content ctor) (b : β) (form : Bytes)
    (hform : form = content.write b) : SpelledAs (ctor b) (littleEndian 4 number ++ form) := by
  rw [hform, ← halt.write_eq]
  exact .written (ctor b)

lemma readsFrom : format.ReadsFrom SpelledAs := by
  refine readsFrom_sum fun number hnumber => ?_
  interval_cases number
  · exact ⟨_, _, _, _, alternative_sender, exact_address.readsFrom,
      spelledAs_of_alternative alternative_sender⟩
  · exact ⟨_, _, _, _, alternative_issuer, exact_address.readsFrom,
      spelledAs_of_alternative alternative_issuer⟩
  · refine ⟨_, _, _, _, alternative_metadata, readsFrom_hex, ?_⟩
    rintro data form ⟨digits, hdigits, rfl⟩
    exact .metadata hdigits
  · refine ⟨_, _, _, _, alternative_tag, readsFrom_hex, ?_⟩
    rintro mark form ⟨digits, hdigits, rfl⟩
    exact .tag hdigits
  · exact ⟨_, _, _, _, alternative_nativeToken,
      ((exact_identifier _).prod exact_word128).readsFrom,
      spelledAs_of_alternative alternative_nativeToken⟩

end Feature

namespace Features

/-- A list of features is spelled as its features are, one after the other. -/
def SpelledAs (features : Features) (form : Bytes) : Prop :=
  ∃ forms, List.Forall₂ Feature.SpelledAs features forms ∧
    form = littleEndian 8 features.length ++ forms.flatten

lemma readsShort {features : Features}
    (h : ∀ feature ∈ features, ∀ address, feature.Names address → address.Fits) :
    Features.format.ReadsShort features :=
  ReadsShort.list (fun feature hmem => Feature.readsShort (h feature hmem))
    fun feature _ => write_sum_ne_nil feature

lemma readsFrom : Features.format.ReadsFrom SpelledAs := Feature.readsFrom.list

end Features

/-! ## The six kinds -/

/-- The form is the written one, except for how the features in the lists at its end are spelled. -/
def Format.Respelled {α : Type} (format : Format α) (lists : α → List Features) (value : α)
    (form : Bytes) : Prop :=
  ∃ head forms, format.write value = head ++ (lists value).flatMap Features.format.write ∧
    List.Forall₂ Features.SpelledAs (lists value) forms ∧ form = head ++ forms.flatten

section Respelled

variable {α β : Type} {first : Format α} {second : Format β} {lists : β → List Features}

lemma Features.readsFrom_respelled :
    Features.format.ReadsFrom (Features.format.Respelled fun features => [features]) :=
  Features.readsFrom.mono fun features form hform =>
    ⟨[], [form], by simp, .cons hform .nil, by simp⟩

lemma Features.prod_readsFrom_respelled :
    (Features.format.prod Features.format).ReadsFrom
      ((Features.format.prod Features.format).Respelled fun features =>
        [features.1, features.2]) := by
  refine (Features.readsFrom.prod Features.readsFrom).mono ?_
  rintro features form ⟨front, back, rfl, hfront, hback⟩
  exact ⟨[], [front, back], by simp [Format.prod], .cons hfront (.cons hback .nil), by simp⟩

lemma Format.Exact.respelled (h : first.Exact) :
    first.ReadsFrom (first.Respelled fun _ => []) := by
  refine h.readsFrom.mono ?_
  rintro value form rfl
  exact ⟨first.write value, [], by simp, .nil, by simp⟩

/-- What stands before the features is written in one way only. -/
lemma Format.Exact.prod_respelled (h : first.Exact)
    (h' : second.ReadsFrom (second.Respelled lists)) :
    (first.prod second).ReadsFrom ((first.prod second).Respelled fun value => lists value.2) := by
  refine (h.readsFrom.prod h').mono ?_
  rintro value form ⟨front, back, rfl, rfl, head, forms, hwrite, hforms, rfl⟩
  refine ⟨first.write value.1 ++ head, forms, ?_, hforms, (List.append_assoc ..).symm⟩
  rw [List.append_assoc, ← hwrite]
  rfl

lemma Format.ReadsFrom.map_respelled {forth : β → α} {back : α → β}
    (h : second.ReadsFrom (second.Respelled lists)) (hback : ∀ value, back (forth value) = value) :
    (second.map forth back).ReadsFrom
      ((second.map forth back).Respelled fun value => lists (back value)) :=
  (h.map fun _ value _ _ => hback value).mono fun _ _ hform => hform

end Respelled

lemma BasicOutput.readsFrom :
    BasicOutput.format.ReadsFrom (BasicOutput.format.Respelled fun output => [output.features]) :=
  (exact_word64.prod_respelled <| exact_word64.prod_respelled <|
    UnlockConditions.exact_format.prod_respelled Features.readsFrom_respelled).map_respelled
    fun _ => rfl

lemma AccountOutput.readsFrom :
    AccountOutput.format.ReadsFrom (AccountOutput.format.Respelled fun output =>
      [output.features, output.immutableFeatures]) :=
  (exact_word64.prod_respelled <| exact_word64.prod_respelled <|
    (exact_identifier _).prod_respelled <| exact_word32.prod_respelled <|
    UnlockConditions.exact_format.prod_respelled Features.prod_readsFrom_respelled).map_respelled
    fun _ => rfl

lemma AnchorOutput.readsFrom :
    AnchorOutput.format.ReadsFrom (AnchorOutput.format.Respelled fun output =>
      [output.features, output.immutableFeatures]) :=
  (exact_word64.prod_respelled <| exact_word64.prod_respelled <|
    (exact_identifier _).prod_respelled <| exact_word32.prod_respelled <|
    UnlockConditions.exact_format.prod_respelled Features.prod_readsFrom_respelled).map_respelled
    fun _ => rfl

lemma FoundryOutput.readsFrom :
    FoundryOutput.format.ReadsFrom (FoundryOutput.format.Respelled fun output =>
      [output.features, output.immutableFeatures]) :=
  (exact_word64.prod_respelled <| exact_word32.prod_respelled <|
    TokenScheme.exact_format.prod_respelled <|
    UnlockConditions.exact_format.prod_respelled Features.prod_readsFrom_respelled).map_respelled
    fun _ => rfl

lemma NftOutput.readsFrom :
    NftOutput.format.ReadsFrom (NftOutput.format.Respelled fun output =>
      [output.features, output.immutableFeatures]) :=
  (exact_word64.prod_respelled <| exact_word64.prod_respelled <|
    (exact_identifier _).prod_respelled <|
    UnlockConditions.exact_format.prod_respelled Features.prod_readsFrom_respelled).map_respelled
    fun _ => rfl

lemma DelegationOutput.exact_format : DelegationOutput.format.Exact := by
  have hfields := exact_word64.prod <| exact_word64.prod <|
    (exact_identifier .delegation).prod <| (exact_identifier .account).prod <|
    exact_word32.prod <| exact_word32.prod UnlockConditions.exact_format
  exact hfields.map fun _ _ _ _ => rfl

/-! ## Raw outputs -/

namespace Output

/-- The lists of features at the end of an output. -/
def featureLists (output : Output) : List Features :=
  output.features?.toList ++ output.immutableFeatures?.toList

/-- The form is the raw form of the output, except that some digits of its metadata and tags may be
in capitals. -/
def SpelledAs (output : Output) (form : Bytes) : Prop :=
  ∃ head forms, output.encode = head ++ output.featureLists.flatMap Features.format.write ∧
    List.Forall₂ Features.SpelledAs output.featureLists forms ∧ form = head ++ forms.flatten

/-- How the outputs of a kind are written and read. -/
structure HasFormat {α : Type} (kind : OutputKind) (format : Format α) (ctor : α → Output) :
    Prop where
  encode_eq : ∀ value, (ctor value).encode = kind.tag :: format.write value
  decodeFields_eq : ∀ input, decodeFields kind input = (format.decode input).map ctor

lemma decode_tag (kind : OutputKind) (fields : Bytes) :
    decode (kind.tag :: fields) = (decodeFields kind fields).mapError .malformed := by
  rw [decode, OutputKind.ofTag?_tag]

namespace HasFormat

variable {α : Type} {kind : OutputKind} {format : Format α} {ctor : α → Output} {value : α}
  {lists : α → List Features} {output : Output} {fields : Bytes}

lemma decode_encode (hkind : HasFormat kind format ctor) (h : format.Reads value) (rest : Bytes) :
    decode ((ctor value).encode ++ rest) = .ok (ctor value) := by
  rw [hkind.encode_eq, List.cons_append, decode_tag, mapError_eq_ok_iff, hkind.decodeFields_eq,
    h.decode]
  rfl

lemma decode_encode_of_short (hkind : HasFormat kind format ctor) (h : format.ReadsShort value)
    (hlength : (ctor value).encode.length < UInt64.size) (rest : Bytes) :
    decode ((ctor value).encode ++ rest) = .ok (ctor value) := by
  rw [hkind.encode_eq, List.length_cons] at hlength
  exact hkind.decode_encode (h (by omega)) rest

/-- Where the fields of an output are read, they begin with a spelling of what would be written. -/
lemma of_decodeFields (hkind : HasFormat kind format ctor)
    (hfrom : format.ReadsFrom (format.Respelled lists))
    (hlists : ∀ value, (ctor value).featureLists = lists value)
    (h : decodeFields kind fields = .ok output) :
    (∃ form rest, kind.tag :: fields = form ++ rest ∧ output.SpelledAs form) ∧
      ∀ rest, decode (output.encode ++ rest) = .ok output := by
  rw [hkind.decodeFields_eq, Format.decode] at h
  cases hread : format.read fields with
  | error cause =>
    rw [hread] at h
    cases h
  | ok found =>
    obtain ⟨value, rest⟩ := found
    rw [hread] at h
    cases h
    obtain ⟨hreads, form, rfl, head, forms, hwrite, hforms, rfl⟩ := hfrom _ _ _ hread
    refine ⟨⟨kind.tag :: (head ++ forms.flatten), rest, rfl, kind.tag :: head, forms, ?_, ?_, rfl⟩,
      hkind.decode_encode hreads⟩
    · rw [hkind.encode_eq, hwrite, hlists]
      rfl
    · rwa [hlists]

end HasFormat

lemma hasFormat_basic : HasFormat .basic BasicOutput.format .basic := ⟨fun _ => rfl, fun _ => rfl⟩

lemma hasFormat_account : HasFormat .account AccountOutput.format .account :=
  ⟨fun _ => rfl, fun _ => rfl⟩

lemma hasFormat_anchor : HasFormat .anchor AnchorOutput.format .anchor :=
  ⟨fun _ => rfl, fun _ => rfl⟩

lemma hasFormat_foundry : HasFormat .foundry FoundryOutput.format .foundry :=
  ⟨fun _ => rfl, fun _ => rfl⟩

lemma hasFormat_nft : HasFormat .nft NftOutput.format .nft := ⟨fun _ => rfl, fun _ => rfl⟩

lemma hasFormat_delegation : HasFormat .delegation DelegationOutput.format .delegation :=
  ⟨fun _ => rfl, fun _ => rfl⟩

section Fits

variable {output : Output} {features : Features}
  (h : ∀ address, output.Carries address → address.Fits)

include h

lemma readsShort_conditions : UnlockConditions.format.ReadsShort output.unlockConditions :=
  UnlockConditions.readsShort fun _ hmem address hnames => h address (.condition hmem hnames)

lemma readsShort_features (hfeatures : output.features? = some features) :
    Features.format.ReadsShort features :=
  Features.readsShort fun _ hmem address hnames => h address (.feature hfeatures hmem hnames)

lemma readsShort_immutableFeatures (hfeatures : output.immutableFeatures? = some features) :
    Features.format.ReadsShort features :=
  Features.readsShort fun _ hmem address hnames =>
    h address (.immutableFeature hfeatures hmem hnames)

/-- An output reads back from its raw form, whatever stands behind it. -/
lemma decode_encode (hlength : output.encode.length < UInt64.size) (rest : Bytes) :
    decode (output.encode ++ rest) = .ok output := by
  have hconditions := readsShort_conditions h
  cases output with
  | basic output =>
    have hfields := hconditions.prod (readsShort_features h rfl)
    refine hasFormat_basic.decode_encode_of_short (ReadsShort.map ?_ rfl) hlength rest
    exact (reads_word64 _).short.prod <| (reads_word64 _).short.prod hfields
  | account output =>
    have hfeatures := (readsShort_features h rfl).prod (readsShort_immutableFeatures h rfl)
    have hfields := hconditions.prod hfeatures
    refine hasFormat_account.decode_encode_of_short (ReadsShort.map ?_ rfl) hlength rest
    exact (reads_word64 _).short.prod <| (reads_word64 _).short.prod <|
      (reads_identifier _).short.prod <| (reads_word32 _).short.prod hfields
  | anchor output =>
    have hfeatures := (readsShort_features h rfl).prod (readsShort_immutableFeatures h rfl)
    have hfields := hconditions.prod hfeatures
    refine hasFormat_anchor.decode_encode_of_short (ReadsShort.map ?_ rfl) hlength rest
    exact (reads_word64 _).short.prod <| (reads_word64 _).short.prod <|
      (reads_identifier _).short.prod <| (reads_word32 _).short.prod hfields
  | foundry output =>
    have hfeatures := (readsShort_features h rfl).prod (readsShort_immutableFeatures h rfl)
    have hfields := hconditions.prod hfeatures
    refine hasFormat_foundry.decode_encode_of_short (ReadsShort.map ?_ rfl) hlength rest
    exact (reads_word64 _).short.prod <| (reads_word32 _).short.prod <|
      (TokenScheme.reads _).short.prod hfields
  | nft output =>
    have hfeatures := (readsShort_features h rfl).prod (readsShort_immutableFeatures h rfl)
    have hfields := hconditions.prod hfeatures
    refine hasFormat_nft.decode_encode_of_short (ReadsShort.map ?_ rfl) hlength rest
    exact (reads_word64 _).short.prod <| (reads_word64 _).short.prod <|
      (reads_identifier _).short.prod hfields
  | delegation output =>
    refine hasFormat_delegation.decode_encode_of_short (ReadsShort.map ?_ rfl) hlength rest
    exact (reads_word64 _).short.prod <| (reads_word64 _).short.prod <|
      (reads_identifier _).short.prod <| (reads_identifier _).short.prod <|
      (reads_word32 _).short.prod <| (reads_word32 _).short.prod hconditions

end Fits

lemma tag_of_ofTag? {tag : UInt8} {kind : OutputKind} (h : OutputKind.ofTag? tag = some kind) :
    kind.tag = tag := by
  have hfound := List.find?_some h
  exact beq_iff_eq.1 hfound

/-- **Raw outputs.**  An output whose addresses fit reads back from its raw form, whatever stands
behind it, as long as 64 bits can tell the length of the form.  Whatever is read as an output begins
with the raw form of that output, up to capitals among the digits of metadata and tags, and the
output reads back from the raw form. -/
theorem decode_raw :
    (∀ (output : Output) (rest : Bytes), (∀ address, output.Carries address → address.Fits) →
        output.encode.length < UInt64.size → decode (output.encode ++ rest) = .ok output) ∧
      ∀ input output, decode input = .ok output →
        (∃ form rest, input = form ++ rest ∧ output.SpelledAs form) ∧
          ∀ rest, decode (output.encode ++ rest) = .ok output := by
  refine ⟨fun output rest h hlength => decode_encode h hlength rest, fun input output h => ?_⟩
  cases input with
  | nil => cases h
  | cons tag fields =>
    unfold decode at h
    dsimp only at h
    split at h
    · cases h
    · rename_i kind hkind
      rw [← tag_of_ofTag? hkind]
      have hfields := mapError_eq_ok_iff.1 h
      cases kind with
      | basic => exact hasFormat_basic.of_decodeFields BasicOutput.readsFrom (fun _ => rfl) hfields
      | account =>
        exact hasFormat_account.of_decodeFields AccountOutput.readsFrom (fun _ => rfl) hfields
      | anchor =>
        exact hasFormat_anchor.of_decodeFields AnchorOutput.readsFrom (fun _ => rfl) hfields
      | foundry =>
        exact hasFormat_foundry.of_decodeFields FoundryOutput.readsFrom (fun _ => rfl) hfields
      | nft => exact hasFormat_nft.of_decodeFields NftOutput.readsFrom (fun _ => rfl) hfields
      | delegation =>
        exact hasFormat_delegation.of_decodeFields DelegationOutput.exact_format.respelled
          (fun _ => rfl) hfields

/-- A basic output of a multi address, with a tag. -/
def sampleTagged : Output :=
  .basic {
    amount := 5, mana := 0, unlockConditions := [.address (Sample.multiAddress [.alice, .bob] 2)],
    features := [.tag [0xab]] }

/-- The raw form of the output, but with the digits of the tag in capitals. -/
def sampleCapitals : Bytes :=
  sampleTagged.encode.take (sampleTagged.encode.length - 2) ++ Utf8.encode "AB"

/-- The output reads back, and it is read from the form with capitals too, which is the raw form of
the output up to these capitals. -/
theorem decode_sampleTagged :
    (∀ address, sampleTagged.Carries address → address.Fits) ∧
      sampleTagged.encode.length < UInt64.size ∧
      decode (sampleTagged.encode ++ [7]) = .ok sampleTagged ∧
      sampleCapitals ≠ sampleTagged.encode ∧
      decode (sampleCapitals ++ [7]) = .ok sampleTagged ∧
      ∃ form rest, sampleCapitals ++ [7] = form ++ rest ∧ sampleTagged.SpelledAs form := by
  have hfits : ∀ address, sampleTagged.Carries address → address.Fits := by
    intro address hcarries
    rw [← mem_addresses_iff] at hcarries
    obtain rfl := List.mem_singleton.1 hcarries
    exact Address.fits_multiAddress _ (by decide) 2
  have hlength : sampleTagged.encode.length < UInt64.size := by decide +kernel
  have hcapitals : decode (sampleCapitals ++ [7]) = .ok sampleTagged := by decide +kernel
  obtain ⟨hwritten, hread⟩ := decode_raw
  exact ⟨hfits, hlength, hwritten sampleTagged [7] hfits hlength, by decide +kernel, hcapitals,
    (hread _ _ hcapitals).1⟩

end Output

end OutputIndex
