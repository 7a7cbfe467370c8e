import OutputIndex.Proofs.Index.Residue
import OutputIndex.Proofs.Index.Rows

/-!
# Parts of accepted updates

The parts of accepted updates only add to what is there.  Where an identifier stands for one output,
what one part adds is what any other part about the output needs: so the same parts succeed before
and after any of them (`Part.Speculates.runs_iff`), and a list of parts goes through if each part
would succeed at once (`Part.exists_run_forM_iff`).  If moreover an output is spent in one slot, any
two parts commute on every row (`Part.Speculates.onRow_comm`).

Nothing is released, so the references are those from before and those of the outputs whose rows are
new (`Store.Grows`).
-/

namespace OutputIndex

namespace Store

/-- An output can be taken over: it has a row, or it can be recorded. -/
def Takes (store : Store) (output : LedgerOutput) : Prop :=
  (store.row? output.kind output.outputId).isSome = true ∨
    ∃ record, OutputRecord.ofLedgerOutput output false = .ok record

end Store

/-! ## Which parts succeed -/

namespace Part

variable {writer last : Writer} {part other : Part} {parts : List Part} {kind : OutputKind}
  {id : OutputId} {row : Option OutputRecord} {output : LedgerOutput} {listed : Set LedgerOutput}

/-- The part succeeds on a writer. -/
def Runs (writer : Writer) (part : Part) : Prop := ∃ last, part.run.run writer = .ok ((), last)

/-- The part belongs to an accepted update and is about a listed output. -/
structure Speculates (listed : Set LedgerOutput) (part : Part) : Prop where
  speculative : part.IsSpeculative
  listed : ∀ output ∈ part.outputs, output ∈ listed

lemma speculates_of_mem {update : LedgerUpdate} (h : part ∈ (Operation.accept update).parts)
    (hlisted : ∀ output ∈ (Operation.accept update).outputs, output ∈ listed) :
    part.Speculates listed where
  speculative := isSpeculative_of_mem_accept h
  listed output houtput := hlisted output (Operation.mem_outputs_of_mem_parts h houtput)

/-- Where rows can be written, a part succeeds if its output can be taken over. -/
lemma IsSpeculative.runs_iff (h : part.IsSpeculative)
    (hfault : writer.fault ≠ .writer .writeOutput) :
    part.Runs writer ↔ ∀ output ∈ part.outputs, writer.store.Takes output := by
  cases part with
  | mark spent =>
    have hrun := WriteM.run_markSpent spent writer
    simp only [Runs, run, outputs, List.mem_singleton, forall_eq, Store.Takes, hrun]
    cases hrow : writer.store.row? spent.output.kind spent.outputId with
    | some record =>
      have hwrite := WriteM.run_writeOutput (record.spentAt spent.spentAt) writer
      rw [if_neg hfault] at hwrite
      have hsome : (writer.store.row? spent.output.kind spent.output.outputId).isSome = true :=
        Option.isSome_iff_exists.2 ⟨record, hrow⟩
      refine iff_of_true ?_ (.inl hsome)
      dsimp only
      split
      · exact ⟨_, hwrite⟩
      · exact ⟨writer, rfl⟩
    | none =>
      have hnone : ¬(writer.store.row? spent.output.kind spent.output.outputId).isSome = true := by
        rw [show writer.store.row? spent.output.kind spent.output.outputId = none from hrow]
        simp
      cases hrecord : OutputRecord.ofLedgerOutput spent.output false with
      | error cause => simp [hnone]
      | ok record => simp [hfault]
  | propose output =>
    have hrun := WriteM.run_insertOutput output false writer
    simp only [Runs, run, outputs, List.mem_singleton, forall_eq, Store.Takes, hrun]
    cases hrow : writer.store.row? output.kind output.outputId with
    | some record => simp
    | none =>
      cases hrecord : OutputRecord.ofLedgerOutput output false with
      | error cause => simp
      | ok record => simp [hfault]
  | settle slot | remove spent | finalize output | purge => cases h

/-- Where no row can be written, a part that succeeds changes nothing. -/
lemma IsSpeculative.eq_of_run (h : part.IsSpeculative)
    (hfault : writer.fault = .writer .writeOutput) (hrun : part.run.run writer = .ok ((), last)) :
    last = writer := by
  cases part with
  | mark spent =>
    rw [run, WriteM.run_markSpent] at hrun
    split at hrun
    · split at hrun
      · rw [WriteM.run_writeOutput, if_pos hfault] at hrun
        cases hrun
      · cases hrun
        rfl
    · split at hrun
      · cases hrun
      · rw [if_pos hfault] at hrun
        cases hrun
  | propose output =>
    rw [run, WriteM.run_insertOutput] at hrun
    split at hrun
    · cases hrun
      rfl
    · split at hrun
      · cases hrun
      · rw [if_pos hfault] at hrun
        cases hrun
  | settle slot | remove spent | finalize output | purge => cases h

lemma eq_of_run_forM (h : ∀ part ∈ parts, part.IsSpeculative)
    (hfault : writer.fault = .writer .writeOutput)
    (hrun : (parts.forM run).run writer = .ok ((), last)) : last = writer := by
  induction parts with
  | nil =>
    cases hrun
    rfl
  | cons part rest ih =>
    obtain ⟨_, middle, hfirst, hrest⟩ := WriteM.run_bind_eq_ok_iff.1 hrun
    obtain rfl := (h part List.mem_cons_self).eq_of_run hfault hfirst
    exact ih (fun p hp => h p (List.mem_cons_of_mem part hp)) hrest

lemma isSome_proposed_iff :
    (output.proposed row).isSome = true ↔
      row.isSome = true ∨ ∃ record, OutputRecord.ofLedgerOutput output false = .ok record := by
  cases row with
  | some record => simp [LedgerOutput.proposed]
  | none =>
    rw [LedgerOutput.proposed]
    cases OutputRecord.ofLedgerOutput output false <;> simp [Except.toOption]

/-- An output has a row after a part if it had one or if the part records it. -/
lemma IsSpeculative.isSome_onRow_iff (h : part.IsSpeculative) :
    (part.onRow kind id row).isSome = true ↔
      row.isSome = true ∨ ∃ output ∈ part.outputs, output.IsAt kind id ∧
        ∃ record, OutputRecord.ofLedgerOutput output false = .ok record := by
  cases part with
  | mark spent =>
    by_cases hat : spent.output.IsAt kind id
    · simp [onRow, outputs, hat, LedgerSpent.marked, isSome_proposed_iff]
    · simp [onRow, outputs, hat]
  | propose output =>
    by_cases hat : output.IsAt kind id
    · simp [onRow, outputs, hat, isSome_proposed_iff]
    · simp [onRow, outputs, hat]
  | settle slot | remove spent | finalize output | purge => cases h

/-- The same outputs can be taken over before and after a step. -/
lemma Speculates.takes_iff (h : part.Speculates listed) (hconsistent : Consistent listed)
    (hready : writer.Ready) (hstep : Step writer part last) (houtput : output ∈ listed) :
    last.store.Takes output ↔ writer.store.Takes output := by
  rw [Store.Takes, hstep.row?_eq hready, h.speculative.isSome_onRow_iff]
  constructor
  · rintro ((hrow | ⟨o, ho, hat, hrecord⟩) | hrecord)
    · exact .inl hrow
    · obtain rfl := hconsistent o (h.listed o ho) output houtput hat.2
      exact .inr hrecord
    · exact .inr hrecord
  · rintro (hrow | hrecord)
    · exact .inl (.inl hrow)
    · exact .inr hrecord

/-- The same parts succeed before and after a part. -/
lemma Speculates.runs_iff (h : part.Speculates listed) (hother : other.Speculates listed)
    (hconsistent : Consistent listed) (hready : writer.Ready)
    (hrun : part.run.run writer = .ok ((), last)) : other.Runs last ↔ other.Runs writer := by
  have hstep := Step.of_run hrun
  by_cases hfault : writer.fault = .writer .writeOutput
  · rw [h.speculative.eq_of_run hfault hrun]
  · have hfault' : last.fault ≠ .writer .writeOutput := by
      rw [hstep.sameFrame.fault]
      exact hfault
    rw [hother.speculative.runs_iff hfault', hother.speculative.runs_iff hfault]
    exact forall₂_congr fun output houtput =>
      h.takes_iff hconsistent hready hstep (hother.listed output houtput)

/-- Parts succeed one after another if each of them succeeds at the start, and then the same parts
succeed at the end as at the start. -/
lemma exists_run_forM_iff (hparts : ∀ part ∈ parts, part.Speculates listed)
    (hconsistent : Consistent listed) (hready : writer.Ready) :
    (∃ last, (parts.forM run).run writer = .ok ((), last)) ↔ ∀ part ∈ parts, part.Runs writer := by
  induction parts generalizing writer with
  | nil => exact iff_of_true ⟨writer, rfl⟩ nofun
  | cons part rest ih =>
    have hpart := hparts part List.mem_cons_self
    have hrest := fun p hp => hparts p (List.mem_cons_of_mem part hp)
    constructor
    · rintro ⟨last, hrun⟩
      obtain ⟨_, middle, hfirst, hlast⟩ := WriteM.run_bind_eq_ok_iff.1 hrun
      have hruns := (ih hrest ((Step.of_run hfirst).ready hready)).1 ⟨last, hlast⟩
      intro p hp
      rcases List.mem_cons.1 hp with rfl | hp
      · exact ⟨middle, hfirst⟩
      · exact (hpart.runs_iff (hrest p hp) hconsistent hready hfirst).1 (hruns p hp)
    · intro hruns
      obtain ⟨middle, hfirst⟩ := hruns part List.mem_cons_self
      have hruns' : ∀ p ∈ rest, p.Runs middle := fun p hp =>
        (hpart.runs_iff (hrest p hp) hconsistent hready hfirst).2
          (hruns p (List.mem_cons_of_mem part hp))
      obtain ⟨last, hlast⟩ := (ih hrest ((Step.of_run hfirst).ready hready)).2 hruns'
      exact ⟨last, (WriteM.run_bind_of_ok hfirst).trans hlast⟩

lemma runs_iff_of_run_forM (hparts : ∀ part ∈ parts, part.Speculates listed)
    (hother : other.Speculates listed) (hconsistent : Consistent listed) (hready : writer.Ready)
    (hrun : (parts.forM run).run writer = .ok ((), last)) :
    other.Runs last ↔ other.Runs writer := by
  induction parts generalizing writer with
  | nil =>
    cases hrun
    rfl
  | cons part rest ih =>
    have hpart := hparts part List.mem_cons_self
    obtain ⟨_, middle, hfirst, hlast⟩ := WriteM.run_bind_eq_ok_iff.1 hrun
    rw [ih (fun p hp => hparts p (List.mem_cons_of_mem part hp))
      ((Step.of_run hfirst).ready hready) hlast]
    exact hpart.runs_iff hother hconsistent hready hfirst

/-! ## Parts commute on rows -/

lemma proposed_idem (output : LedgerOutput) (row : Option OutputRecord) :
    output.proposed (output.proposed row) = output.proposed row := by
  cases h : output.proposed row with
  | some record => rfl
  | none =>
    cases row with
    | some record => cases h
    | none => exact h

lemma proposed_marked (spent : LedgerSpent) (row : Option OutputRecord) :
    spent.output.proposed (spent.marked row) = spent.marked row := by
  rw [LedgerSpent.marked]
  cases h : spent.output.proposed row with
  | some record => rfl
  | none =>
    cases row with
    | some record => cases h
    | none => exact h

lemma marked_proposed (spent : LedgerSpent) (row : Option OutputRecord) :
    spent.marked (spent.output.proposed row) = spent.marked row := by
  rw [LedgerSpent.marked, proposed_idem]
  rfl

/-- What a part of an accepted update makes of the row of its output. -/
def onOwn (row : Option OutputRecord) : Part → Option OutputRecord
  | mark spent => spent.marked row
  | propose output => output.proposed row
  | settle _ | remove _ | finalize _ | purge => row

/-- A part is about one output at most. -/
lemma eq_of_mem_outputs {output' : LedgerOutput} (h : output ∈ part.outputs)
    (h' : output' ∈ part.outputs) : output = output' := by
  cases part with
  | mark spent | remove spent | propose o | finalize o =>
    rw [List.mem_singleton.1 h, List.mem_singleton.1 h']
  | settle slot | purge => cases h

lemma IsSpeculative.exists_onRow_eq (h : part.IsSpeculative) (kind : OutputKind) (id : OutputId) :
    ∃ output ∈ part.outputs, ∀ row, part.onRow kind id row =
      if output.IsAt kind id then part.onOwn row else row := by
  cases part with
  | mark spent => exact ⟨spent.output, List.mem_cons_self, fun _ => rfl⟩
  | propose output => exact ⟨output, List.mem_cons_self, fun _ => rfl⟩
  | settle slot | remove spent | finalize output | purge => cases h

lemma onOwn_comm (h : part.IsSpeculative) (hother : other.IsSpeculative)
    (houtput : ∀ o ∈ part.outputs, ∀ o' ∈ other.outputs, o = o')
    (hspent : ∀ spent, part = .mark spent → ∀ again, other = .mark again →
      spent.spentAt = again.spentAt) (row : Option OutputRecord) :
    other.onOwn (part.onOwn row) = part.onOwn (other.onOwn row) := by
  cases part with
  | mark spent =>
    cases other with
    | mark again =>
      have hsame : spent.output = again.output :=
        houtput _ List.mem_cons_self _ List.mem_cons_self
      have hslot := hspent spent rfl again rfl
      obtain rfl : spent = again := by
        cases spent
        cases again
        cases hsame
        cases hslot
        rfl
      rfl
    | propose output =>
      obtain rfl := houtput _ List.mem_cons_self _ List.mem_cons_self
      exact (proposed_marked spent row).trans (marked_proposed spent row).symm
    | settle slot | remove _ | finalize _ | purge => cases hother
  | propose output =>
    cases other with
    | mark again =>
      obtain rfl := houtput _ List.mem_cons_self _ List.mem_cons_self
      exact (marked_proposed again row).trans (proposed_marked again row).symm
    | propose output' =>
      obtain rfl := houtput _ List.mem_cons_self _ List.mem_cons_self
      rfl
    | settle slot | remove _ | finalize _ | purge => cases hother
  | settle slot | remove spent | finalize output | purge => cases h

/-- Where an identifier stands for one output, spent in one slot, parts of accepted updates
commute. -/
lemma Speculates.onRow_comm (h : part.Speculates listed) (hother : other.Speculates listed)
    (hconsistent : Consistent listed)
    (hspent : ∀ spent, part = .mark spent → ∀ again, other = .mark again →
      spent.outputId = again.outputId → spent.spentAt = again.spentAt)
    (row : Option OutputRecord) :
    other.onRow kind id (part.onRow kind id row) =
      part.onRow kind id (other.onRow kind id row) := by
  obtain ⟨output, houtput, hpart⟩ := h.speculative.exists_onRow_eq kind id
  obtain ⟨output', houtput', hother'⟩ := hother.speculative.exists_onRow_eq kind id
  by_cases hat : output.IsAt kind id <;> by_cases hat' : output'.IsAt kind id
  · -- both are about the output with the identifier, which is one and the same
    rw [hpart, hpart, hother', hother', if_pos hat, if_pos hat, if_pos hat', if_pos hat']
    have hids : ∀ o ∈ part.outputs, ∀ o' ∈ other.outputs, o.outputId = o'.outputId := by
      intro o ho o' ho'
      rw [eq_of_mem_outputs ho houtput, eq_of_mem_outputs ho' houtput']
      exact hat.2.trans hat'.2.symm
    refine onOwn_comm h.speculative hother.speculative (fun o ho o' ho' => ?_) ?_ row
    · exact hconsistent o (h.listed o ho) o' (hother.listed o' ho') (hids o ho o' ho')
    · rintro spent rfl again rfl
      exact hspent spent rfl again rfl (hids _ List.mem_cons_self _ List.mem_cons_self)
  · rw [hother', hother', if_neg hat', if_neg hat']
  · rw [hpart, hpart, if_neg hat, if_neg hat]
  · rw [hpart, hpart, if_neg hat, if_neg hat]

end Part

/-! ## References grow -/

namespace Store

variable {listed fresh : Set LedgerOutput} {definitions : Set MultiAddress}
  {refers : Set (AddressKey × OutputId)} {before store other : Store} {writer last : Writer}
  {part : Part} {output : LedgerOutput} {record : OutputRecord}

/-- The listed outputs that have no row. -/
def unseen (listed : Set LedgerOutput) (store : Store) : Set LedgerOutput :=
  {output ∈ listed | store.row? output.kind output.outputId = none}

/-- The store has come from another one by new rows of listed outputs, and what they refer to has
been added to what was referred to before. -/
structure Grows (listed : Set LedgerOutput) (definitions : Set MultiAddress) (before : Store)
    (refers : Set (AddressKey × OutputId)) (store : Store) : Prop where
  rows : ∀ kind id, store.row? kind id = none → before.row? kind id = none
  links : store.Links (store.rowReferences (before.unseen listed) ∪ refers) definitions

namespace Grows

lemma refl (listed : Set LedgerOutput) (h : store.Links refers definitions) :
    Grows listed definitions store refers store where
  rows _ _ hnone := hnone
  links := by
    have hnone : store.rowReferences (store.unseen listed) = ∅ := by
      ext reference
      simp only [rowReferences, unseen, Set.mem_ofPred_eq, Set.mem_empty_iff_false, iff_false]
      rintro ⟨output, ⟨-, hrow⟩, hsome, -⟩
      rw [hrow] at hsome
      cases hsome
    rw [hnone, Set.empty_union]
    exact h

/-- Rows may be rewritten as long as the same outputs have one. -/
lemma of_isSome_eq (h : Grows listed definitions before refers store)
    (hrows : ∀ kind id, (other.row? kind id).isSome = (store.row? kind id).isSome)
    (hlinks : other.links = store.links) : Grows listed definitions before refers other where
  rows kind id hnone := by
    have hisSome := hrows kind id
    rw [hnone] at hisSome
    exact h.rows kind id (by simpa using hisSome.symm)
  links := by
    rw [rowReferences_eq_of_isSome_eq hrows]
    exact h.links.of_links_eq hlinks

lemma seesRows (listed : Set LedgerOutput) (definitions : Set MultiAddress) (before : Store)
    (refers : Set (AddressKey × OutputId)) :
    SeesRows fun _ => Grows listed definitions before refers :=
  fun _ _ _ hrows hlinks h => h.of_isSome_eq (fun kind id => by rw [hrows]) hlinks

/-- Putting the mark on a row leaves the references alone. -/
lemma putRecord (h : Grows listed definitions before refers writer.store)
    (hrow : (writer.store.row? record.kind record.outputId).isSome = true) :
    Grows listed definitions before refers (writer.putRecord record).store := by
  refine h.of_isSome_eq (fun kind id => ?_) (Writer.rowsOnly_putRecord writer record).links
  rw [Writer.row?_putRecord]
  split
  · rename_i hkey
    rw [hkey.1, hkey.2, hrow]
    rfl
  · rfl

/-- An output that is entered brings its references, which were not there before. -/
lemma enter (h : Grows listed definitions before refers writer.store)
    (hconsistent : Consistent listed) (hlisted : output ∈ listed)
    (hdefinitions : ∀ d ∈ Address.definitions output.output.addresses, d ∈ definitions)
    (hrecords : record.Records output)
    (hrow : writer.store.row? output.kind output.outputId = none) :
    Grows listed definitions before refers (writer.enter record output).store where
  rows kind id hnone := by
    rw [Writer.row?_enter] at hnone
    split at hnone
    · cases hnone
    · exact h.rows kind id hnone
  links := by
    have hunseen : output ∈ before.unseen listed := ⟨hlisted, h.rows _ _ hrow⟩
    have hsame : SameOutputs (before.unseen listed) :=
      (hconsistent.mono fun _ ho => ho.1).sameOutputs
    rw [rowReferences_enter hsame hunseen hrecords.kind hrecords.outputId, Set.union_assoc]
    exact h.links.enter record hdefinitions

/-- The parts of accepted updates make a store grow. -/
lemma step (h : Grows listed definitions before refers writer.store)
    (hconsistent : Consistent listed)
    (hdefinitions : ∀ output ∈ listed,
      ∀ d ∈ Address.definitions output.output.addresses, d ∈ definitions)
    (hpart : part.Speculates listed) (hready : writer.Ready) (hstep : Step writer part last) :
    Grows listed definitions before refers last.store := by
  have hkeyed := hready.exact.keyed
  have hlisted := hpart.listed
  have hspeculative := hpart.speculative
  cases hstep with
  | mark hrow =>
    obtain ⟨hkind, hid⟩ := hkeyed _ _ _ hrow
    refine h.putRecord ?_
    rw [OutputRecord.kind_spentAt, OutputRecord.outputId_spentAt, hkind, hid, hrow]
    rfl
  | @markUnseen spent record hrow hrecord =>
    have houtput := hlisted spent.output (List.mem_singleton.2 rfl)
    have hrecords := (OutputRecord.records_of_ok hrecord).spentAt spent.spentAt
    exact h.enter hconsistent houtput (hdefinitions _ houtput) hrecords hrow
  | @propose output record hrow hrecord =>
    have houtput := hlisted output (List.mem_singleton.2 rfl)
    have hrecords := OutputRecord.records_of_ok hrecord
    exact h.enter hconsistent houtput (hdefinitions _ houtput) hrecords hrow
  | markSame | proposeSeen => exact h
  | settle | remove | finalizeFinal | finalizeSeen | finalize | purge => cases hspeculative

end Grows

end Store

end OutputIndex
