import Mathlib.Tactic.IntervalCases
import OutputIndex.Proofs.Binary.Format
import OutputIndex.Record.Binary
import OutputIndex.Sample
import OutputIndex.Status

/-!
# Reading what is stored

Records and the status are kept in binary form.  Each of them reads back from its form whatever
stands behind it, if 64 bits can tell the length of the form, and is read from its form only.  The
fields of each kind are listed in the order of their format, and each law of the kind is that of its
fields one after the other.  A record is one of six alternatives (`OutputRecord.alternative_basic`
and its like).  The statement for records and the status is `Format.stored_records_and_status`.
-/

namespace OutputIndex

open Format

/-! ## The fields of records -/

lemma RecordMeta.reads (about : RecordMeta) : format.Reads about := by
  refine Reads.map ?_ rfl
  exact (reads_identifier _).prod <| (reads_word64 _).prod <| (reads_word32 _).prod <|
    (reads_word32 _).prod (reads_bool _)

lemma RecordMeta.exact_format : format.Exact :=
  ((exact_identifier _).prod <| exact_word64.prod <| exact_word32.prod <|
    exact_word32.prod exact_bool).map fun _ _ _ _ => rfl

section Optional

variable {kind : IdentifierKind}

/-- A byte string that may be missing. -/
lemma readsShort_bytes? (value : Option Bytes) : Format.bytes.option.ReadsShort value :=
  ReadsShort.option fun value _ => readsShort_bytes value

/-- An identifier that may be missing. -/
lemma readsShort_identifier? (value : Option (Identifier kind)) :
    (Format.identifier kind).option.ReadsShort value :=
  ReadsShort.option fun value _ => (reads_identifier value).short

/-- An amount that may be missing. -/
lemma readsShort_word64? (value : Option UInt64) : Format.word64.option.ReadsShort value :=
  ReadsShort.option fun value _ => (reads_word64 value).short

/-- A slot that may be missing. -/
lemma readsShort_word32? (value : Option UInt32) : Format.word32.option.ReadsShort value :=
  ReadsShort.option fun value _ => (reads_word32 value).short

end Optional

lemma BasicRecord.readsShort (record : BasicRecord) : format.ReadsShort record := by
  refine ReadsShort.map ?_ rfl
  exact record.about.reads.short.prod <| (readsShort_bytes _).prod <| (readsShort_bytes? _).prod <|
    (readsShort_bytes? _).prod <| (readsShort_identifier? _).prod <|
    (readsShort_word64? _).prod <| (readsShort_bytes? _).prod <| (readsShort_word32? _).prod <|
    (readsShort_word32? _).prod (readsShort_bytes? _)

lemma BasicRecord.exact_format : format.Exact :=
  (RecordMeta.exact_format.prod <| exact_bytes.prod <| exact_bytes.option.prod <|
    exact_bytes.option.prod <| (exact_identifier _).option.prod <| exact_word64.option.prod <|
    exact_bytes.option.prod <| exact_word32.option.prod <|
    exact_word32.option.prod exact_bytes.option).map fun _ _ _ _ => rfl

lemma AccountRecord.readsShort (record : AccountRecord) : format.ReadsShort record := by
  refine ReadsShort.map ?_ rfl
  exact record.about.reads.short.prod <| (reads_identifier _).short.prod <|
    (readsShort_bytes _).prod <| (readsShort_bytes? _).prod (readsShort_bytes? _)

lemma AccountRecord.exact_format : format.Exact :=
  (RecordMeta.exact_format.prod <| (exact_identifier _).prod <| exact_bytes.prod <|
    exact_bytes.option.prod exact_bytes.option).map fun _ _ _ _ => rfl

lemma AnchorRecord.readsShort (record : AnchorRecord) : format.ReadsShort record := by
  refine ReadsShort.map ?_ rfl
  exact record.about.reads.short.prod <| (reads_identifier _).short.prod <|
    (readsShort_bytes _).prod <| (readsShort_bytes _).prod <|
    (readsShort_bytes? _).prod (readsShort_bytes? _)

lemma AnchorRecord.exact_format : format.Exact :=
  (RecordMeta.exact_format.prod <| (exact_identifier _).prod <| exact_bytes.prod <|
    exact_bytes.prod <| exact_bytes.option.prod exact_bytes.option).map fun _ _ _ _ => rfl

lemma FoundryRecord.readsShort (record : FoundryRecord) : format.ReadsShort record := by
  refine ReadsShort.map ?_ rfl
  exact record.about.reads.short.prod <| (reads_identifier _).short.prod <|
    (readsShort_bytes _).prod (reads_bool _).short

lemma FoundryRecord.exact_format : format.Exact :=
  (RecordMeta.exact_format.prod <| (exact_identifier _).prod <|
    exact_bytes.prod exact_bool).map fun _ _ _ _ => rfl

lemma NftRecord.readsShort (record : NftRecord) : format.ReadsShort record := by
  refine ReadsShort.map ?_ rfl
  exact record.about.reads.short.prod <| (reads_identifier _).short.prod <|
    (readsShort_bytes _).prod <| (readsShort_bytes? _).prod <| (readsShort_bytes? _).prod <|
    (readsShort_bytes? _).prod <| (readsShort_word64? _).prod <| (readsShort_bytes? _).prod <|
    (readsShort_word32? _).prod <| (readsShort_word32? _).prod (readsShort_bytes? _)

lemma NftRecord.exact_format : format.Exact :=
  (RecordMeta.exact_format.prod <| (exact_identifier _).prod <| exact_bytes.prod <|
    exact_bytes.option.prod <| exact_bytes.option.prod <| exact_bytes.option.prod <|
    exact_word64.option.prod <| exact_bytes.option.prod <| exact_word32.option.prod <|
    exact_word32.option.prod exact_bytes.option).map fun _ _ _ _ => rfl

lemma DelegationRecord.readsShort (record : DelegationRecord) : format.ReadsShort record := by
  refine ReadsShort.map ?_ rfl
  exact record.about.reads.short.prod <| (reads_identifier _).short.prod <|
    (readsShort_bytes _).prod (readsShort_bytes _)

lemma DelegationRecord.exact_format : format.Exact :=
  (RecordMeta.exact_format.prod <| (exact_identifier _).prod <|
    exact_bytes.prod exact_bytes).map fun _ _ _ _ => rfl

/-! ## Records of any kind -/

namespace OutputRecord

lemma alternative_basic : format.Alternative 0 BasicRecord.format basic :=
  alternative_sum (by decide) (by decide) (fun _ => rfl) (fun _ => rfl) fun _ => rfl

lemma alternative_account : format.Alternative 1 AccountRecord.format account :=
  alternative_sum (by decide) (by decide) (fun _ => rfl) (fun _ => rfl) fun _ => rfl

lemma alternative_anchor : format.Alternative 2 AnchorRecord.format anchor :=
  alternative_sum (by decide) (by decide) (fun _ => rfl) (fun _ => rfl) fun _ => rfl

lemma alternative_foundry : format.Alternative 3 FoundryRecord.format foundry :=
  alternative_sum (by decide) (by decide) (fun _ => rfl) (fun _ => rfl) fun _ => rfl

lemma alternative_nft : format.Alternative 4 NftRecord.format nft :=
  alternative_sum (by decide) (by decide) (fun _ => rfl) (fun _ => rfl) fun _ => rfl

lemma alternative_delegation : format.Alternative 5 DelegationRecord.format delegation :=
  alternative_sum (by decide) (by decide) (fun _ => rfl) (fun _ => rfl) fun _ => rfl

lemma readsShort (record : OutputRecord) : format.ReadsShort record := by
  cases record with
  | basic record => exact alternative_basic.readsShort record.readsShort
  | account record => exact alternative_account.readsShort record.readsShort
  | anchor record => exact alternative_anchor.readsShort record.readsShort
  | foundry record => exact alternative_foundry.readsShort record.readsShort
  | nft record => exact alternative_nft.readsShort record.readsShort
  | delegation record => exact alternative_delegation.readsShort record.readsShort

lemma exact_format : format.Exact := by
  refine exact_sum fun number hnumber => ?_
  interval_cases number
  · exact ⟨_, _, _, alternative_basic, BasicRecord.exact_format⟩
  · exact ⟨_, _, _, alternative_account, AccountRecord.exact_format⟩
  · exact ⟨_, _, _, alternative_anchor, AnchorRecord.exact_format⟩
  · exact ⟨_, _, _, alternative_foundry, FoundryRecord.exact_format⟩
  · exact ⟨_, _, _, alternative_nft, NftRecord.exact_format⟩
  · exact ⟨_, _, _, alternative_delegation, DelegationRecord.exact_format⟩

end OutputRecord

/-! ## The status -/

lemma Status.readsShort (status : Status) : format.ReadsShort status := by
  refine ReadsShort.map ?_ rfl
  exact (reads_word32 _).short.prod <| (reads_word8 _).short.prod <|
    (readsShort_text _).prod (reads_word32 _).short

lemma Status.exact_format : format.Exact :=
  (exact_word32.prod <| exact_word8.prod <| exact_text.prod exact_word32).map fun _ _ _ _ => rfl

/-! ## What is stored -/

namespace Format

variable {α : Type} {format : Format α} {value : α}

/-- A value reads back from its form whatever stands behind it, if 64 bits can tell the length of
the form, and what is read as a value begins with the form of that value. -/
structure Stores (encode : α → Bytes) (decode : Bytes → Except CodecError α) : Prop where
  decode_encode : ∀ (value : α) (rest : Bytes), (encode value).length < UInt64.size →
    decode (encode value ++ rest) = .ok value
  encode_isPrefix : ∀ (input : Bytes) (value : α), decode input = .ok value →
    encode value <+: input

lemma stores (hreads : ∀ value, format.ReadsShort value) (hexact : format.Exact) :
    Stores format.write fun input => (format.decode input).mapError .malformed where
  decode_encode value rest hlength :=
    mapError_eq_ok_iff.2 ((hreads value hlength).decode rest)
  encode_isPrefix input value hdecode := by
    have hdecode := mapError_eq_ok_iff.1 hdecode
    unfold decode at hdecode
    cases hread : format.read input with
    | error cause =>
      rw [hread] at hdecode
      cases hdecode
    | ok found =>
      obtain ⟨value, rest⟩ := found
      rw [hread] at hdecode
      cases hdecode
      exact ⟨rest, (hexact.canonical _ _ _ hread).symm⟩

/-- **What is stored is what was written.**  A record of any kind and the status of an index, of a
network of any name, read back from their forms whatever stands behind them.  What is read begins
with the form of the record or status that is read, so each of them has one form only. -/
theorem stored_records_and_status :
    Stores OutputRecord.encode OutputRecord.decode ∧ Stores Status.encode Status.decode :=
  ⟨stores OutputRecord.readsShort OutputRecord.exact_format,
    stores Status.readsShort Status.exact_format⟩

/-- A record of an NFT that has some of the fields that may be missing. -/
def sampleRecord : OutputRecord :=
  .nft {
    about := ⟨Sample.outputId 5 0, 1000, 5, 7, true⟩, nftId := ⟨.replicate 32 0x11⟩,
    address := Sample.Holder.alice.key, issuer := none, sender := some Sample.Holder.bob.key,
    tag := some [1, 0], storageDepositReturn := some 3,
    storageDepositReturnAddress := some Sample.Holder.carol.key, timelockSlot := none,
    expirationSlot := some 9, expirationReturnAddress := none }

theorem stored_sampleRecord :
    sampleRecord.encode.length < UInt64.size ∧
      OutputRecord.decode (sampleRecord.encode ++ [0, 1]) = .ok sampleRecord ∧
      (Status.encode ⟨5, 3, "réseau", 1⟩).length < UInt64.size ∧
      Status.decode (Status.encode ⟨5, 3, "réseau", 1⟩ ++ [2]) = .ok ⟨5, 3, "réseau", 1⟩ ∧
      sampleRecord.encode <+: sampleRecord.encode ++ [0, 1] := by
  obtain ⟨hrecord, hstatus⟩ := stored_records_and_status
  have hlength : sampleRecord.encode.length < UInt64.size := by decide +kernel
  have hlength' : (Status.encode ⟨5, 3, "réseau", 1⟩).length < UInt64.size := by decide +kernel
  have hread := hrecord.decode_encode sampleRecord [0, 1] hlength
  exact ⟨hlength, hread, hlength', hstatus.decode_encode _ [2] hlength',
    hrecord.encode_isPrefix _ _ hread⟩

end Format

end OutputIndex
