import OutputIndex.Proofs.Address.Key
import OutputIndex.Proofs.Index.Residue
import OutputIndex.Proofs.Output
import OutputIndex.Proofs.Query.Answer

/-!
# The life of a multi address

The definition of a multi address is kept exactly as long as some row belongs to an output that
carries an address which is that multi address or wraps it (`Store.Refers`), whether the row is
final or tentative, live or dead.  Both reference tables name exactly these rows.

If every address comes from the parser, a kept definition can be read back, so it resolves to the
multi address with the key that was asked for.  As every row records a known output
(`Store.Reachable.recorded`), each key in a row belongs to an address that the row's output carries,
and therefore the multi address inside it resolves.  The main statement is
`Index.multiAddress_iff_refers`.
-/

namespace OutputIndex

namespace Store

/-! ## Every row records a known output -/

/-- Every row is the record of a known output. -/
def Recorded (known : Set LedgerOutput) (store : Store) : Prop :=
  AllRows (fun record => ∃ output ∈ known, record.Records output) store

variable {known : Set LedgerOutput} {store : Store} {writer last : Writer} {output : LedgerOutput}
  {record : OutputRecord}

namespace Recorded

lemma enter (h : Recorded known writer.store) (hknown : output ∈ known)
    (hrecord : record.Records output) : Recorded known (writer.enter record output).store :=
  AllRows.enter h ⟨output, hknown, hrecord⟩

lemma step {part : Part} (h : Recorded known writer.store)
    (hknown : ∀ output ∈ part.outputs, output ∈ known) (hready : writer.Ready)
    (hstep : Step writer part last) : Recorded known last.store := by
  cases hstep with
  | settle slot =>
    refine AllRows.settle h hready ?_
    rintro record left ⟨output, houtput, hrecords⟩ hswept
    obtain ⟨-, rfl⟩ := OutputRecord.swept_eq_some_iff.1 hswept
    refine ⟨output, houtput, ?_⟩
    unfold OutputRecord.unmarked
    split
    · exact hrecords.spentAt 0
    · exact hrecords
  | mark hrow =>
    obtain ⟨output, houtput, hrecords⟩ := h _ _ _ hrow
    exact AllRows.putRecord h ⟨output, houtput, hrecords.spentAt _⟩
  | @markUnseen spent _ hrow hrecord =>
    have hrecords := OutputRecord.records_of_ok hrecord
    exact h.enter (hknown _ (List.mem_singleton.2 rfl)) (hrecords.spentAt spent.spentAt)
  | remove spent => exact AllRows.leave h _ _
  | propose hrow hrecord | finalize hrow hrecord =>
    exact h.enter (hknown _ (List.mem_singleton.2 rfl)) (OutputRecord.records_of_ok hrecord)
  | finalizeSeen hrow =>
    obtain ⟨output, houtput, hrecords⟩ := h _ _ _ hrow
    exact AllRows.putRecord h ⟨output, houtput, hrecords.finalized⟩
  | purge => exact AllRows.of_row?_eq h (sameRecords_purgeOrphans _).row?_eq
  | markSame | proposeSeen | finalizeFinal => exact h

lemma stepsKeep {operation : Operation} (hknown : ∀ output ∈ operation.outputs, output ∈ known) :
    Index.StepsKeep (fun _ => Recorded known) operation := by
  intro part hpart _ writer last hready hstep h
  refine h.step (fun output houtput => ?_) hready hstep
  exact hknown output (Operation.mem_outputs_of_mem_parts hpart houtput)

end Recorded

lemma Reachable.recorded (h : Reachable known store) : Recorded known store := by
  obtain ⟨-, hrecorded⟩ := h.exists_unspent (AllRows.seesRows _) AllRows.empty
    (fun operation hknown => Recorded.stepsKeep hknown)
    fun output houtput _ _ record hrecord h =>
      Recorded.enter h houtput (OutputRecord.records_of_ok hrecord)
  exact hrecorded

/-! ## What rows refer to -/

/-- A row belongs to a known output with the identifier, and the output carries an address that is,
or wraps, the multi address with the key. -/
def Refers (known : Set LedgerOutput) (store : Store) (key : AddressKey) (id : OutputId) : Prop :=
  ∃ output ∈ known, output.outputId = id ∧
    (store.row? output.kind output.outputId).isSome = true ∧
    ∃ address, output.output.Carries address ∧
      ∃ definition, address.multiAddress? = some definition ∧ definition.key = key

lemma mem_rowReferences_iff {key : AddressKey} {id : OutputId} :
    (key, id) ∈ store.rowReferences known ↔ store.Refers known key id := by
  simp only [rowReferences, referencesFrom, Refers, Address.definitions, Set.mem_ofPred_eq,
    List.mem_filterMap]
  refine exists_congr fun output => and_congr_right fun _ => ?_
  constructor
  · rintro ⟨hrow, rfl, definition, ⟨address, haddress, hmulti⟩, hkey⟩
    exact ⟨rfl, hrow, address, Output.mem_addresses_iff.1 haddress, definition, hmulti, hkey⟩
  · rintro ⟨rfl, hrow, address, haddress, definition, hmulti, hkey⟩
    exact ⟨hrow, rfl, definition, ⟨address, Output.mem_addresses_iff.2 haddress, hmulti⟩, hkey⟩

/-- What a key in a row has inside is referred to by the row's output. -/
lemma Recorded.exists_refers (h : Recorded known store) (hkeyed : store.Keyed)
    (hrow : record ∈ store.rowSet) {addressKey key : AddressKey}
    (haddressKey : addressKey ∈ record.addressKeys)
    (hkey : Address.multiKey? addressKey = some key) :
    ∃ id, store.Refers known key id := by
  have hstored := hkeyed.mem_rowSet_iff.1 hrow
  obtain ⟨output, houtput, hrecords⟩ := h _ _ _ hstored
  obtain ⟨address, hcarries, rfl⟩ := hrecords.exists_carries haddressKey
  rw [Address.multiKey?_key, Option.map_eq_some_iff] at hkey
  rw [hrecords.kind, hrecords.outputId] at hstored
  refine ⟨output.outputId, output, houtput, rfl, ?_, address, hcarries, hkey⟩
  rw [hstored]
  rfl

/-! ## Reading definitions -/

/-- A definition that is kept is read back as a multi address with its key. -/
lemma Linked.exists_multiAddress? (h : Linked known store)
    (hparsed : ∀ output ∈ known, ∀ address, output.output.Carries address → address.Parsed)
    {key : AddressKey} (hdefined : (store.definitions.get? key).isSome = true) :
    ∃ definition, definition.key = key ∧ store.multiAddress? key = .ok (some definition) := by
  obtain ⟨bytes, hbytes⟩ := Option.isSome_iff_exists.1 hdefined
  obtain ⟨definition, ⟨output, houtput, hmem⟩, hkey, rfl⟩ := h.links.spelled key bytes hbytes
  obtain ⟨address, haddress, hmulti⟩ := List.mem_filterMap.1 hmem
  have hcarries := Output.mem_addresses_iff.1 haddress
  have hread := (hparsed output houtput address hcarries).ofBytes_multiAddress hmulti
  refine ⟨definition, hkey, ?_⟩
  rw [multiAddress?, hbytes]
  dsimp only
  rw [hread]
  rfl

lemma multiAddress?_eq_none {key : AddressKey} (h : (store.definitions.get? key).isSome = false) :
    store.multiAddress? key = .ok none := by
  have hnone : store.definitions.get? key = none := by simpa using h
  rw [multiAddress?, hnone]

end Store

namespace Index

variable {index : Index}

lemma run_multiAddress (hfault : index.fault ≠ .lookups) (key : AddressKey) :
    (multiAddress key).run.run index =
      match index.store.multiAddress? key with
      | .error cause => (.error (.codec cause), index)
      | .ok none => (.error (.multiAddressNotFound key), index)
      | .ok (some definition) => (.ok definition, index) := by
  have hcheck := run_checkLookups index
  rw [if_neg hfault] at hcheck
  have hget : (get : IndexM Index).run.run index = (.ok index, index) := rfl
  rw [multiAddress, run_bind_of_ok hcheck, run_bind_of_ok hget]
  rcases index.store.multiAddress? key with cause | _ | definition <;> rfl

/-- A purge after a sweep finds nothing to drop. -/
lemma purged_eq_zero {known : Set LedgerOutput} (hlinked : Store.Linked known index.store)
    (hexact : index.store.Exact) (hsame : SameOutputs known) (slot : Slot) {count : ℕ}
    {writer : Writer}
    (h : (do WriteM.removeUncommitted slot; WriteM.purgeOrphans).run
      (.start index.store index.fault) = .ok (count, writer)) : count = 0 := by
  have hready := Writer.ready_start hexact index.fault
  have hsettled : Store.Linked known ((Writer.start index.store index.fault).settle slot).store :=
    Store.Linked.settle hlinked hsame hready slot
  rw [WriteM.run_bind_of_ok (WriteM.run_removeUncommitted slot _), WriteM.run_purgeOrphans,
    hsettled.links.purgeOrphans_eq] at h
  exact (congrArg Prod.fst (Except.ok.inj h)).symm

/-- **The life of a multi address.**  In every reachable store where an identifier always stands for
the same output and all addresses come from the parser, a definition is kept under a key if and only
if some row refers to the key; the reference tables name exactly the rows that do, in both
directions; and looking the key up gives a multi address with that key, or that it is not found.  So
every multi address inside a key of a row resolves, and there is never a definition to purge, not
even after a sweep. -/
theorem multiAddress_iff_refers (known : Set LedgerOutput) (hsame : SameOutputs known)
    (hparsed : ∀ output ∈ known, ∀ address, output.output.Carries address → address.Parsed)
    (index : Index) (hreachable : Store.Reachable known index.store)
    (hfault : index.fault ≠ .lookups) :
    (∀ key, (index.store.definitions.get? key).isSome = true ↔
        ∃ id, index.store.Refers known key id) ∧
      (∀ key id, (key, id) ∈ index.store.references.keys ↔ index.store.Refers known key id) ∧
      (∀ key id,
        (id, key) ∈ index.store.referencesByOutput.keys ↔ index.store.Refers known key id) ∧
      (∀ key, (∃ id, index.store.Refers known key id) →
        ∃ definition, definition.key = key ∧
          (multiAddress key).run.run index = (.ok definition, index)) ∧
      (∀ key, ¬(∃ id, index.store.Refers known key id) →
        (multiAddress key).run.run index = (.error (.multiAddressNotFound key), index)) ∧
      (∀ record ∈ index.store.rowSet, ∀ addressKey ∈ record.addressKeys, ∀ key,
        Address.multiKey? addressKey = some key →
          ∃ definition, definition.key = key ∧
            (multiAddress key).run.run index = (.ok definition, index)) ∧
      index.store.purgeOrphans = (0, index.store) ∧
      ∀ slot count writer, (do WriteM.removeUncommitted slot; WriteM.purgeOrphans).run
        (.start index.store index.fault) = .ok (count, writer) → count = 0 := by
  have hexact := hreachable.exact
  have hlinked := hreachable.linked hsame
  have hdefined : ∀ key, (index.store.definitions.get? key).isSome = true ↔
      ∃ id, index.store.Refers known key id := by
    intro key
    rw [hlinked.links.defined key]
    exact exists_congr fun id => Store.mem_rowReferences_iff
  have hresolves : ∀ key, (∃ id, index.store.Refers known key id) →
      ∃ definition, definition.key = key ∧
        (multiAddress key).run.run index = (.ok definition, index) := by
    intro key hrefers
    obtain ⟨definition, hkey, hread⟩ :=
      hlinked.exists_multiAddress? hparsed ((hdefined key).2 hrefers)
    refine ⟨definition, hkey, ?_⟩
    rw [run_multiAddress hfault, hread]
  refine ⟨hdefined, fun key id => ?_, fun key id => ?_, hresolves, fun key hnone => ?_, ?_,
    hlinked.links.purgeOrphans_eq, fun slot count writer h => ?_⟩
  · rw [hlinked.links.references, Store.mem_rowReferences_iff]
  · rw [hlinked.links.byOutput, Store.mem_rowReferences_iff]
  · have hundefined : (index.store.definitions.get? key).isSome = false := by
      rw [← Bool.not_eq_true, hdefined]
      exact hnone
    rw [run_multiAddress hfault, Store.multiAddress?_eq_none hundefined]
  · intro record hrow addressKey haddressKey key hkey
    exact hresolves key
      (hreachable.recorded.exists_refers hexact.keyed hrow haddressKey hkey)
  · exact purged_eq_zero hlinked hexact hsame slot h

lemma parsed_sampleKnown : ∀ output ∈ sampleKnown, ∀ address, output.output.Carries address →
    address.Parsed := by
  intro output houtput address hcarries
  have hmem := Output.mem_addresses_iff.2 hcarries
  rcases houtput with rfl | rfl
  · obtain rfl := List.mem_singleton.1 hmem
    exact ⟨Sample.Holder.alice.address.toBytes, [], rfl⟩
  · obtain rfl := List.mem_singleton.1 hmem
    exact ⟨(Sample.multiAddress [.alice, .bob] 2).toBytes, [], rfl⟩

/-- The multi address of the sample resolves while its output is only proposed. -/
theorem multiAddress_sampleUpdate :
    SameOutputs sampleKnown ∧
      (∀ output ∈ sampleKnown, ∀ address, output.output.Carries address → address.Parsed) ∧
      Store.Reachable sampleKnown (sampleIndex.after (.accept sampleUpdate)).store ∧
      (sampleIndex.after (.accept sampleUpdate)).fault ≠ .lookups ∧
      ∃ definition, definition.key = (Sample.multiAddress [.alice, .bob] 2).key ∧
        (multiAddress (Sample.multiAddress [.alice, .bob] 2).key).run.run
          (sampleIndex.after (.accept sampleUpdate)) =
            (.ok definition, sampleIndex.after (.accept sampleUpdate)) := by
  have hreachable : Store.Reachable sampleKnown
      (sampleIndex.after (.accept sampleUpdate)).store := by
    refine .operation _ ?_ reachable_sampleIndex
    simp [Operation.outputs, sampleUpdate, sampleKnown]
  have hfault : (sampleIndex.after (.accept sampleUpdate)).fault ≠ .lookups := by
    decide +kernel
  obtain ⟨-, -, -, hresolves, -⟩ := multiAddress_iff_refers sampleKnown
    consistent_sampleKnown.sameOutputs parsed_sampleKnown _ hreachable hfault
  refine ⟨consistent_sampleKnown.sameOutputs, parsed_sampleKnown, hreachable, hfault, ?_⟩
  refine hresolves _ ⟨sampleCreated.outputId, sampleCreated, .inr rfl, rfl, ?_, ?_⟩
  · decide +kernel
  · exact ⟨_, .condition List.mem_cons_self (.address _), _, rfl, rfl⟩

end Index

end OutputIndex
