import Mathlib.Data.Set.Insert
import OutputIndex.Proofs.Table
import OutputIndex.Record.Extract

/-!
# What a record is the record of

A record changes while its output comes along: it becomes final, and it is marked as spent and
unmarked.  All the rest is fixed by the output (`OutputRecord.ofLedgerOutput_eq_ok`).  So a record
is that of an output (`OutputRecord.Records`) when unmarking it gives what the output is recorded
as.  The output, whether the record is final and when it is spent determine the record
(`OutputRecord.Records.eq`).
-/

namespace OutputIndex

lemma bind_eq_ok_iff {ε α β : Type} {x : Except ε α} {f : α → Except ε β} {b : β} :
    (x >>= f) = .ok b ↔ ∃ a, x = .ok a ∧ f a = .ok b := by
  cases x <;> simp [bind, Except.bind]

namespace OutputRecord

variable {record other : OutputRecord} {output : LedgerOutput} {committed : Bool} {slot : Slot}

/-- Putting the keys of a record in order adds none and loses none. -/
lemma mem_addressKeys_iff {key : AddressKey} :
    key ∈ record.addressKeys ↔ key ∈ record.heldKeys := KeySet.mem_keys_ofList

/-! ## Marks -/

@[simp] lemma withAbout_about (record : OutputRecord) :
    record.withAbout record.about = record := by cases record <;> rfl

@[simp] lemma withAbout_withAbout (about about' : RecordMeta) (record : OutputRecord) :
    (record.withAbout about).withAbout about' = record.withAbout about' := by
  cases record <;> rfl

@[simp] lemma kind_spentAt (record : OutputRecord) (slot : Slot) :
    (record.spentAt slot).kind = record.kind :=
  kind_withAbout _ record

@[simp] lemma about_spentAt (record : OutputRecord) (slot : Slot) :
    (record.spentAt slot).about = { record.about with deletedAtSlot := slot } :=
  about_withAbout _ record

@[simp] lemma outputId_spentAt (record : OutputRecord) (slot : Slot) :
    (record.spentAt slot).outputId = record.outputId := by simp [outputId]

@[simp] lemma spentAt_spentAt (record : OutputRecord) (slot slot' : Slot) :
    (record.spentAt slot).spentAt slot' = record.spentAt slot' := by simp [spentAt]

lemma spentAt_deletedAtSlot (record : OutputRecord) :
    record.spentAt record.about.deletedAtSlot = record := withAbout_about record

@[simp] lemma kind_finalized (record : OutputRecord) : record.finalized.kind = record.kind :=
  kind_withAbout _ record

@[simp] lemma about_finalized (record : OutputRecord) :
    record.finalized.about = { record.about with committed := true } :=
  about_withAbout _ record

@[simp] lemma outputId_finalized (record : OutputRecord) :
    record.finalized.outputId = record.outputId := by simp [outputId]

/-! ## The record of an output -/

/-- What the records of an output have in common with all others. -/
def aboutOf (output : LedgerOutput) (committed : Bool) : RecordMeta where
  outputId := output.outputId
  amount := output.output.amount
  createdAtSlot := output.bookedAt
  deletedAtSlot := 0
  committed := committed

/-- An output that can be recorded as tentative can be recorded as final, and the other way round,
and the two records differ in nothing else. -/
lemma ofLedgerOutput_eq_ok (h : ofLedgerOutput output committed = .ok record) :
    record.kind = output.kind ∧ record.about = aboutOf output committed ∧
      ∀ c, ofLedgerOutput output c = .ok (record.withAbout (aboutOf output c)) := by
  obtain ⟨id, output, slot⟩ := output
  unfold ofLedgerOutput ofOutput at h
  cases output with
  | basic output =>
    obtain ⟨owner, howner, h⟩ := bind_eq_ok_iff.1 h
    cases h
    exact ⟨rfl, rfl, fun c => bind_eq_ok_iff.2 ⟨owner, howner, rfl⟩⟩
  | account output =>
    obtain ⟨owner, howner, h⟩ := bind_eq_ok_iff.1 h
    cases h
    exact ⟨rfl, rfl, fun c => bind_eq_ok_iff.2 ⟨owner, howner, rfl⟩⟩
  | anchor output =>
    obtain ⟨controller, hcontroller, h⟩ := bind_eq_ok_iff.1 h
    obtain ⟨governor, hgovernor, h⟩ := bind_eq_ok_iff.1 h
    cases h
    exact ⟨rfl, rfl, fun c => bind_eq_ok_iff.2
      ⟨controller, hcontroller, bind_eq_ok_iff.2 ⟨governor, hgovernor, rfl⟩⟩⟩
  | foundry output =>
    obtain ⟨owner, howner, h⟩ := bind_eq_ok_iff.1 h
    -- only an account records, all other owners are refused
    cases owner with
    | account controller =>
      cases h
      exact ⟨rfl, rfl, fun c => bind_eq_ok_iff.2 ⟨_, howner, rfl⟩⟩
    | _ => cases h
  | nft output =>
    obtain ⟨owner, howner, h⟩ := bind_eq_ok_iff.1 h
    cases h
    exact ⟨rfl, rfl, fun c => bind_eq_ok_iff.2 ⟨owner, howner, rfl⟩⟩
  | delegation output =>
    obtain ⟨owner, howner, h⟩ := bind_eq_ok_iff.1 h
    cases h
    exact ⟨rfl, rfl, fun c => bind_eq_ok_iff.2 ⟨owner, howner, rfl⟩⟩

/-- The record is that of an output, as far as the output has come. -/
def Records (record : OutputRecord) (output : LedgerOutput) : Prop :=
  ofLedgerOutput output record.about.committed = .ok (record.spentAt 0)

lemma records_of_ok (h : ofLedgerOutput output committed = .ok record) : record.Records output := by
  obtain ⟨-, habout, hall⟩ := ofLedgerOutput_eq_ok h
  rw [Records, hall, spentAt, habout]
  rfl

lemma about_of_ok (h : ofLedgerOutput output committed = .ok record) :
    record.about = aboutOf output committed :=
  (ofLedgerOutput_eq_ok h).2.1

namespace Records

lemma kind (h : record.Records output) : record.kind = output.kind := by
  rw [← kind_spentAt record 0]
  exact (ofLedgerOutput_eq_ok h).1

lemma about (h : record.Records output) :
    { record.about with deletedAtSlot := 0 } = aboutOf output record.about.committed := by
  rw [← about_spentAt record 0]
  exact (ofLedgerOutput_eq_ok h).2.1

lemma outputId (h : record.Records output) : record.outputId = output.outputId :=
  congrArg RecordMeta.outputId h.about

/-- What the output is recorded as, tentative or final. -/
lemma ofLedgerOutput_eq (h : record.Records output) (c : Bool) :
    ofLedgerOutput output c =
      .ok (record.withAbout { record.about with deletedAtSlot := 0, committed := c }) := by
  have habout : aboutOf output c = { record.about with deletedAtSlot := 0, committed := c } :=
    congrArg (fun about : RecordMeta => { about with committed := c }) h.about.symm
  rw [(ofLedgerOutput_eq_ok h).2.2 c, habout, OutputRecord.spentAt, withAbout_withAbout]

lemma exists_ok (h : record.Records output) (c : Bool) :
    ∃ r, OutputRecord.ofLedgerOutput output c = .ok r :=
  ⟨_, h.ofLedgerOutput_eq c⟩

lemma spentAt (h : record.Records output) (slot : Slot) :
    (record.spentAt slot).Records output := by
  rw [Records, about_spentAt, spentAt_spentAt]
  exact h

lemma finalized (h : record.Records output) : record.finalized.Records output := by
  rw [Records, about_finalized, h.ofLedgerOutput_eq]
  simp [OutputRecord.spentAt, OutputRecord.finalized]

/-- The output, whether it is final and when it is spent determine a record. -/
lemma eq (h : record.Records output) (h' : other.Records output)
    (hcommitted : record.about.committed = other.about.committed)
    (hdeleted : record.about.deletedAtSlot = other.about.deletedAtSlot) : record = other := by
  have hlive : record.spentAt 0 = other.spentAt 0 := by
    rw [Records, hcommitted, h'] at h
    exact (Except.ok.inj h).symm
  calc
    record = (record.spentAt 0).spentAt record.about.deletedAtSlot := by
      rw [spentAt_spentAt, spentAt_deletedAtSlot]
    _ = (other.spentAt 0).spentAt other.about.deletedAtSlot := by rw [hlive, hdeleted]
    _ = other := by rw [spentAt_spentAt, spentAt_deletedAtSlot]

end Records

end OutputRecord

end OutputIndex
