import OutputIndex.Proofs.Output.Json
import OutputIndex.Sample
import OutputIndex.Status

/-!
# Reading ledger data back from JSON documents

A node tells its ledger as JSON documents.  All outputs, updates and events whose addresses fit are
read back as they were written, and whatever was read from some document is read again from the one
that is written for it (`Json.roundTrips_ledger`).  A document may say the same in many ways, and
the example has some of them.
-/

namespace OutputIndex

open Json (Inverts)

/-! ## Booked and consumed outputs -/

/-- Every address of the output fits its spelled-out form. -/
def LedgerOutput.Fits (output : LedgerOutput) : Prop := output.output.Fits

lemma LedgerOutput.inverts_json : Inverts toJson ofJson? Fits where
  read_write output h := by
    have houtput := Output.inverts_json.read_write output.output h
    simp [ofJson?, toJson, houtput]
  fits json output h := by
    obtain ⟨fields, -, h⟩ := Option.bind_eq_some_iff.1 h
    split at h
    · simp only [Option.bind_eq_bind, Option.bind_eq_some_iff] at h
      obtain ⟨id, -, output, houtput, bookedAt, -, ⟨⟩⟩ := h
      exact Output.inverts_json.fits_of_required houtput
    · cases h

/-- Every address of the consumed output fits its spelled-out form. -/
def LedgerSpent.Fits (spent : LedgerSpent) : Prop := spent.output.Fits

lemma LedgerSpent.inverts_json : Inverts toJson ofJson? Fits where
  read_write spent h := by
    have houtput := LedgerOutput.inverts_json.read_write spent.output h
    simp [ofJson?, toJson, houtput]
  fits json spent h := by
    obtain ⟨fields, -, h⟩ := Option.bind_eq_some_iff.1 h
    split at h
    · simp only [Option.bind_eq_bind, Option.bind_eq_some_iff] at h
      obtain ⟨output, houtput, spentAt, -, ⟨⟩⟩ := h
      exact LedgerOutput.inverts_json.fits_of_required houtput
    · cases h

/-! ## Updates and events -/

/-- Every address of the update's outputs fits its spelled-out form. -/
structure LedgerUpdate.Fits (update : LedgerUpdate) : Prop where
  consumed : ∀ spent ∈ update.consumed, spent.Fits
  created : ∀ output ∈ update.created, output.Fits

lemma LedgerUpdate.inverts_json : Inverts toJson ofJson? Fits where
  read_write update h := by
    have hconsumed := LedgerSpent.inverts_json.list.read_write update.consumed h.consumed
    have hcreated := LedgerOutput.inverts_json.list.read_write update.created h.created
    simp [ofJson?, toJson, hconsumed, hcreated]
  fits json update h := by
    obtain ⟨fields, -, h⟩ := Option.bind_eq_some_iff.1 h
    split at h
    · simp only [Option.bind_eq_bind, Option.bind_eq_some_iff] at h
      obtain ⟨slot, -, consumed, hconsumed, created, hcreated, ⟨⟩⟩ := h
      constructor
      · exact LedgerSpent.inverts_json.list.fits_of_withDefault (by simp) hconsumed
      · exact LedgerOutput.inverts_json.list.fits_of_withDefault (by simp) hcreated
    · cases h

/-- Every address of the event's outputs fits its spelled-out form. -/
def LedgerEvent.Fits (event : LedgerEvent) : Prop := event.update.Fits

lemma LedgerEvent.inverts_json : Inverts toJson ofJson? Fits where
  read_write event h := by
    have hupdate := LedgerUpdate.inverts_json.read_write event.update h
    cases event with
    | accepted update =>
      dsimp only [LedgerEvent.update] at hupdate
      simp [ofJson?, toJson, hupdate]
    | committed update =>
      dsimp only [LedgerEvent.update] at hupdate
      simp [ofJson?, toJson, hupdate]
  fits json event h := by
    obtain ⟨⟨name, content⟩, -, h⟩ := Option.bind_eq_some_iff.1 h
    split at h
    · split at h
      · obtain ⟨update, hupdate, rfl⟩ := Option.map_eq_some_iff.1 h
        exact LedgerUpdate.inverts_json.fits _ update hupdate
      · obtain ⟨update, hupdate, rfl⟩ := Option.map_eq_some_iff.1 h
        exact LedgerUpdate.inverts_json.fits _ update hupdate
      · cases h
    · cases h

/-! ## A node and an index -/

lemma NodeInfo.inverts_json : Inverts toJson ofJson? fun _ => True :=
  .of_forall fun info => by simp [ofJson?, toJson]

lemma Status.inverts_json : Inverts toJson ofJson? fun _ => True :=
  .of_forall fun status => by simp [ofJson?, toJson]

/-! ## Ledger data -/

namespace Json

/-- **Ledger data survives JSON.**  An output, a booked or consumed output, an update, an event, a
node's information or a status is read back from the document that is written for it, provided that
its addresses fit their spelled-out form.  And whatever was read from a document, however it was
written, is read again from the document that is written for it. -/
theorem roundTrips_ledger :
    RoundTrips Output.toJson Output.ofJson? Output.Fits ∧
      RoundTrips LedgerOutput.toJson LedgerOutput.ofJson? LedgerOutput.Fits ∧
      RoundTrips LedgerSpent.toJson LedgerSpent.ofJson? LedgerSpent.Fits ∧
      RoundTrips LedgerUpdate.toJson LedgerUpdate.ofJson? LedgerUpdate.Fits ∧
      RoundTrips LedgerEvent.toJson LedgerEvent.ofJson? LedgerEvent.Fits ∧
      RoundTrips NodeInfo.toJson NodeInfo.ofJson? (fun _ => True) ∧
      RoundTrips Status.toJson Status.ofJson? fun _ => True :=
  ⟨Output.inverts_json.roundTrips, LedgerOutput.inverts_json.roundTrips,
    LedgerSpent.inverts_json.roundTrips, LedgerUpdate.inverts_json.roundTrips,
    LedgerEvent.inverts_json.roundTrips, NodeInfo.inverts_json.roundTrips,
    Status.inverts_json.roundTrips⟩

/-- An output of two holders who have to sign together. -/
def sampleOutput : Output := Sample.basic (Sample.multiAddress [.alice, .bob] 2) 7

lemma fits_sampleOutput : sampleOutput.Fits := by
  refine ⟨fun condition hcondition => ?_, fun features h => ?_, fun features h => ?_⟩
  · obtain rfl := List.mem_singleton.1 hcondition
    rintro _ ⟨⟩
    exact Address.fits_multiAddress _ (by decide) 2
  · cases h
    simp
  · cases h

/-- The identifier of an output of a single holder. -/
def sampleId : OutputId := .ofParts (.replicate 32 0xcd) 5 0

/-- An update that creates the output. -/
def sampleUpdate : LedgerUpdate where
  slot := 5
  consumed := []
  created := [⟨sampleId, Sample.basic Sample.Holder.alice.address 7, 5⟩]

/-- A text in capitals. -/
def capitals (text : String) : Json := .text (.ofList (text.toList.map Char.toUpper))

/-- The update as another program may write it: with members in another order, digits in capitals
and an unknown member, but without mana, features and consumed outputs. -/
def sampleDocument : Json :=
  .ofFields
    [("created", .array
      [.ofFields
        [("output", .ofVariant "basic"
          [("unlock_conditions", .array
            [.ofVariant "address" [("address", capitals Sample.Holder.alice.address.hex)]]),
           ("amount", .natural 7)]),
         ("output_id", capitals sampleId.hex),
         ("booked_at", .natural 5)]]),
     ("note", .null),
     ("slot", .natural 5)]

theorem roundTrips_sample :
    sampleOutput.Fits ∧ Output.ofJson? sampleOutput.toJson = some sampleOutput ∧
      LedgerUpdate.ofJson? sampleDocument = some sampleUpdate ∧
      sampleUpdate.toJson ≠ sampleDocument ∧
      LedgerUpdate.ofJson? sampleUpdate.toJson = some sampleUpdate := by
  obtain ⟨houtput, -, -, hupdate, -⟩ := roundTrips_ledger
  have hread : LedgerUpdate.ofJson? sampleDocument = some sampleUpdate := by decide +kernel
  have hother : sampleUpdate.toJson ≠ sampleDocument := by
    intro h
    simp [LedgerUpdate.toJson, sampleDocument, ofFields] at h
  exact ⟨fits_sampleOutput, houtput.read_write _ fits_sampleOutput, hread, hother,
    hupdate.read_again _ _ hread⟩

end Json

end OutputIndex
