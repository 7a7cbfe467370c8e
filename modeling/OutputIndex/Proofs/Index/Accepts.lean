import Mathlib.Data.List.Forall2
import OutputIndex.Proofs.Index.Speculation

/-!
# Accepted updates in any order

Where an identifier stands for one output, booked and spent in one slot each, it does not matter in
which order updates are accepted, nor in which order an update lists its outputs
(`Index.foldl_accept_reorders`).

Whether an update can be accepted does not change while others are (`Index.succeeds_after_accept`),
so the same updates succeed in any order.  Their parts commute on every row, which gives the rows,
and the multi addresses follow from the rows that have come.
-/

namespace OutputIndex

/-! ## Which updates are accepted -/

namespace LedgerUpdate

/-- The other update lists the same outputs in another order. -/
structure Rearranges (update other : LedgerUpdate) : Prop where
  slot : update.slot = other.slot
  consumed : update.consumed.Perm other.consumed
  created : update.created.Perm other.created

/-- The outputs that some updates list. -/
def listed (updates : List LedgerUpdate) : Set LedgerOutput :=
  {output | ∃ update ∈ updates, output ∈ (Operation.accept update).outputs}

/-- Every occurrence of an identifier in the updates is that of the same output, booked in the same
slot and spent in the same slot. -/
structure Agree (updates : List LedgerUpdate) : Prop where
  consistent : Consistent (listed updates)
  spentAt : ∀ update ∈ updates, ∀ spent ∈ update.consumed, ∀ other ∈ updates,
    ∀ again ∈ other.consumed, spent.outputId = again.outputId → spent.spentAt = again.spentAt

/-- The others are the same updates in another order, with their outputs in another order. -/
def Reorders (updates others : List LedgerUpdate) : Prop :=
  ∃ middle, updates.Perm middle ∧ List.Forall₂ Rearranges middle others

variable {update other : LedgerUpdate} {updates others : List LedgerUpdate}

/-- Rearranged updates have the same parts. -/
lemma Rearranges.parts_perm (h : update.Rearranges other) :
    (Operation.accept update).parts.Perm (Operation.accept other).parts := by
  have hconsumed : update.netConsumed.Perm other.netConsumed := by
    simp only [netConsumed, h.created.any_eq]
    exact h.consumed.filter _
  have hcreated : update.netCreated.Perm other.netCreated := by
    simp only [netCreated, h.consumed.any_eq]
    exact h.created.filter _
  exact (hconsumed.map _).append (hcreated.map _)

lemma Rearranges.mem_outputs_iff (h : update.Rearranges other) {output : LedgerOutput} :
    output ∈ (Operation.accept update).outputs ↔ output ∈ (Operation.accept other).outputs :=
  ((h.consumed.map _).append h.created).mem_iff

lemma exists_of_mem_parts {p : LedgerUpdate → Bool} {part : Part}
    (h : part ∈ ((updates.filter p).map Operation.accept).flatMap Operation.parts) :
    ∃ update ∈ updates, part ∈ (Operation.accept update).parts := by
  obtain ⟨_, hmem, hpart⟩ := List.mem_flatMap.1 h
  obtain ⟨update, hupdate, rfl⟩ := List.mem_map.1 hmem
  exact ⟨update, (List.mem_filter.1 hupdate).1, hpart⟩

/-- Reordered updates list the same outputs. -/
lemma Reorders.listed_subset (h : Reorders updates others) : listed others ⊆ listed updates := by
  obtain ⟨middle, hperm, hmatch⟩ := h
  have hmiddle : ∀ other ∈ others, ∃ update ∈ middle, update.Rearranges other := by
    clear hperm
    induction hmatch with
    | nil => exact nofun
    | @cons update other _ _ hhead _ ih =>
      intro o ho
      rcases List.mem_cons.1 ho with rfl | ho
      · exact ⟨update, List.mem_cons_self, hhead⟩
      · obtain ⟨u, hu, hmatched⟩ := ih o ho
        exact ⟨u, List.mem_cons_of_mem _ hu, hmatched⟩
  rintro output ⟨other, hother, houtput⟩
  obtain ⟨update, hupdate, hmatched⟩ := hmiddle other hother
  exact ⟨update, hperm.mem_iff.2 hupdate, hmatched.mem_outputs_iff.2 houtput⟩

/-- Reordered updates have the same parts, and so have those of them that a condition selects which
does not depend on the order of outputs. -/
lemma Reorders.parts_perm (h : Reorders updates others) {p : LedgerUpdate → Bool}
    (hp : ∀ update ∈ updates, ∀ other, update.Rearranges other → p update = p other) :
    (((updates.filter p).map Operation.accept).flatMap Operation.parts).Perm
      (((others.filter p).map Operation.accept).flatMap Operation.parts) := by
  obtain ⟨middle, hperm, hmatch⟩ := h
  have hp' : ∀ update ∈ middle, ∀ other, update.Rearranges other → p update = p other :=
    fun update hupdate => hp update (hperm.mem_iff.2 hupdate)
  refine (((hperm.filter p).map Operation.accept).flatMap_right Operation.parts).trans ?_
  clear hperm hp
  induction hmatch with
  | nil => exact .refl _
  | @cons update other _ _ hhead _ ih =>
    have hrest := ih fun u hu => hp' u (List.mem_cons_of_mem _ hu)
    have hsame : p update = p other := hp' update List.mem_cons_self other hhead
    rw [List.filter_cons, List.filter_cons, ← hsame]
    split
    · exact hhead.parts_perm.append hrest
    · exact hrest

end LedgerUpdate

namespace Index

variable {index : Index} {update other : LedgerUpdate} {updates others : List LedgerUpdate}
  {listed : Set LedgerOutput} {writer : Writer}

/-- An update is accepted: its slot is not committed, and its parts succeed. -/
structure Accepts (index : Index) (update : LedgerUpdate) (writer : Writer) : Prop where
  ahead : index.committedSlot < update.slot
  parts : ((Operation.accept update).parts.forM Part.run).run (.start index.store index.fault) =
    .ok ((), writer)
  commit : index.fault ≠ .writer .commit

lemma run_accept_eq_ok_iff {next : Index} :
    (accept update).run.run index = (.ok (), next) ↔
      ∃ writer, Accepts index update writer ∧ next = { index with store := writer.store } := by
  rw [run_accept]
  constructor
  · intro h
    split at h
    · cases h
    · rename_i hslot
      obtain ⟨writer, hwrite, hcommit, rfl⟩ := run_transact_eq_ok_iff.1 h
      rw [acceptWrite_eq] at hwrite
      have hsame : writer.fault = index.fault := (Steps.of_run hwrite).sameFrame.fault
      exact ⟨writer, ⟨UInt32.not_le.1 hslot, hwrite, hsame ▸ hcommit⟩, rfl⟩
  · rintro ⟨writer, h, rfl⟩
    have hsame : writer.fault = index.fault := (Steps.of_run h.parts).sameFrame.fault
    rw [if_neg (UInt32.not_le.2 h.ahead)]
    refine run_transact_eq_ok_iff.2 ⟨writer, ?_, hsame ▸ h.commit, rfl⟩
    rw [acceptWrite_eq]
    exact h.parts

lemma accepts_of_succeeds (h : index.succeeds (.accept update) = true) :
    ∃ writer, Accepts index update writer ∧
      index.after (.accept update) = { index with store := writer.store } :=
  run_accept_eq_ok_iff.1 (succeeds_iff.1 h)

lemma Accepts.succeeds (h : Accepts index update writer) :
    index.succeeds (.accept update) = true := by
  have hrun := run_accept_eq_ok_iff.2 ⟨writer, h, rfl⟩
  have hafter : index.after (.accept update) = { index with store := writer.store } :=
    congrArg Prod.snd hrun
  exact succeeds_iff.2 (hafter ▸ hrun)

/-- Another write may go on where this one has ended. -/
lemma Accepts.start_eq (h : Accepts index update writer) :
    Writer.start writer.store index.fault = writer := by
  have hframe := (Steps.of_run h.parts).sameFrame
  cases writer
  rw [Writer.start, Writer.mk.injEq]
  exact ⟨rfl, hframe.indexed.symm, hframe.fault.symm⟩

/-- An update is accepted if its slot is not committed and each of its parts succeeds at once. -/
lemma succeeds_accept_iff (hexact : index.store.Exact) (hconsistent : Consistent listed)
    (hlisted : ∀ output ∈ (Operation.accept update).outputs, output ∈ listed) :
    index.succeeds (.accept update) = true ↔
      index.committedSlot < update.slot ∧ index.fault ≠ .writer .commit ∧
        ∀ part ∈ (Operation.accept update).parts,
          part.Runs (.start index.store index.fault) := by
  have hready := Writer.ready_start hexact index.fault
  have hparts : ∀ part ∈ (Operation.accept update).parts, part.Speculates listed :=
    fun part hpart => Part.speculates_of_mem hpart hlisted
  rw [← Part.exists_run_forM_iff hparts hconsistent hready]
  constructor
  · intro h
    obtain ⟨writer, haccepts, -⟩ := accepts_of_succeeds h
    exact ⟨haccepts.ahead, haccepts.commit, writer, haccepts.parts⟩
  · rintro ⟨hahead, hcommit, writer, hrun⟩
    exact Accepts.succeeds ⟨hahead, hrun, hcommit⟩

/-- Whether an update can be accepted does not change while others are. -/
lemma succeeds_after_accept (hexact : index.store.Exact) (hconsistent : Consistent listed)
    (hlisted : ∀ output ∈ (Operation.accept update).outputs, output ∈ listed)
    (hlisted' : ∀ output ∈ (Operation.accept other).outputs, output ∈ listed) :
    (index.after (.accept update)).succeeds (.accept other) =
      index.succeeds (.accept other) := by
  cases hsucceeds : index.succeeds (.accept update) with
  | false => rw [after_eq_self hsucceeds]
  | true =>
    have hexact' := exact_after hexact (.accept update)
    obtain ⟨writer, haccepts, hafter⟩ := accepts_of_succeeds hsucceeds
    rw [hafter] at hexact' ⊢
    rw [Bool.eq_iff_iff, succeeds_accept_iff hexact' hconsistent hlisted',
      succeeds_accept_iff hexact hconsistent hlisted']
    refine and_congr_right fun _ => and_congr_right fun _ => forall₂_congr fun part hpart => ?_
    rw [haccepts.start_eq]
    exact Part.runs_iff_of_run_forM (fun p hp => Part.speculates_of_mem hp hlisted)
      (Part.speculates_of_mem hpart hlisted') hconsistent (Writer.ready_start hexact index.fault)
      haccepts.parts

/-- Of updates that are accepted one after another those succeed that would succeed at once. -/
lemma successes_accept (hexact : index.store.Exact) (hconsistent : Consistent listed)
    (hlisted : LedgerUpdate.listed updates ⊆ listed) :
    index.successes (updates.map .accept) =
      (updates.filter fun update => index.succeeds (.accept update)).map .accept := by
  induction updates generalizing index with
  | nil => rfl
  | cons update rest ih =>
    have hfirst : ∀ output ∈ (Operation.accept update).outputs, output ∈ listed :=
      fun output houtput => hlisted ⟨update, List.mem_cons_self, houtput⟩
    have hrest : LedgerUpdate.listed rest ⊆ listed := fun output ⟨u, hu, houtput⟩ =>
      hlisted ⟨u, List.mem_cons_of_mem update hu, houtput⟩
    have hsame : (rest.filter fun u => (index.after (.accept update)).succeeds (.accept u)) =
        rest.filter fun u => index.succeeds (.accept u) := by
      refine List.filter_congr fun u hu => ?_
      exact succeeds_after_accept hexact hconsistent hfirst
        fun output houtput => hrest ⟨u, hu, houtput⟩
    rw [List.map_cons, successes, ih (exact_after hexact _) hrest, hsame, List.filter_cons]
    split <;> rfl

/-- Rearranged updates succeed alike. -/
lemma succeeds_of_rearranges (hexact : index.store.Exact) (hconsistent : Consistent listed)
    (hlisted : ∀ output ∈ (Operation.accept update).outputs, output ∈ listed)
    (h : update.Rearranges other) :
    index.succeeds (.accept update) = index.succeeds (.accept other) := by
  have hlisted' : ∀ output ∈ (Operation.accept other).outputs, output ∈ listed :=
    fun output houtput => hlisted output (h.mem_outputs_iff.2 houtput)
  rw [Bool.eq_iff_iff, succeeds_accept_iff hexact hconsistent hlisted,
    succeeds_accept_iff hexact hconsistent hlisted', h.slot]
  refine and_congr_right fun _ => and_congr_right fun _ => forall_congr' fun part => ?_
  rw [h.parts_perm.mem_iff]

/-! ## Accepting in any order -/

/-- The handles know of the same slot and fail alike, and their stores have the same status. -/
structure SameFrame (index other : Index) : Prop where
  status : other.store.status = index.store.status
  committedSlot : other.committedSlot = index.committedSlot
  fault : other.fault = index.fault

lemma SameFrame.symm {other : Index} (h : SameFrame index other) : SameFrame other index :=
  ⟨h.status.symm, h.committedSlot.symm, h.fault.symm⟩

lemma SameFrame.trans {other third : Index} (h : SameFrame index other)
    (h' : SameFrame other third) : SameFrame index third :=
  ⟨h'.status.trans h.status, h'.committedSlot.trans h.committedSlot, h'.fault.trans h.fault⟩

lemma sameFrame_after_accept (index : Index) (update : LedgerUpdate) :
    SameFrame index (index.after (.accept update)) := by
  cases hsucceeds : index.succeeds (.accept update) with
  | false =>
    rw [after_eq_self hsucceeds]
    exact ⟨rfl, rfl, rfl⟩
  | true =>
    obtain ⟨hfault, hslot⟩ := handle_after hsucceeds
    exact ⟨status_after hsucceeds, hslot, hfault⟩

lemma sameFrame_foldl_accept (index : Index) (updates : List LedgerUpdate) :
    SameFrame index ((updates.map .accept).foldl after index) := by
  induction updates generalizing index with
  | nil => exact ⟨rfl, rfl, rfl⟩
  | cons update rest ih =>
    exact (sameFrame_after_accept index update).trans (ih (index.after (.accept update)))

/-- Handles in the same frame are equal if their stores have the same rows and multi addresses. -/
lemma SameFrame.eq {other : Index} (h : SameFrame index other) (hexact : index.store.Exact)
    (hexact' : other.store.Exact)
    (hrows : ∀ kind id, index.store.row? kind id = other.store.row? kind id)
    (hlinks : index.store.links = other.store.links) : index = other := by
  have hstore : index.store = other.store :=
    hexact.eq_of_row?_eq hexact' hrows hlinks h.status.symm
  obtain ⟨-, hslot, hfault⟩ := h
  cases index
  cases other
  cases hstore
  cases hslot
  cases hfault
  rfl

lemma grows_foldl_accept {definitions : Set MultiAddress} {refers : Set (AddressKey × OutputId)}
    (hexact : index.store.Exact) (hconsistent : Consistent listed)
    (hlisted : LedgerUpdate.listed updates ⊆ listed)
    (hdefinitions : ∀ output ∈ listed,
      ∀ d ∈ Address.definitions output.output.addresses, d ∈ definitions)
    (hlinks : index.store.Links refers definitions) :
    Store.Grows listed definitions index.store refers
      ((updates.map .accept).foldl after index).store := by
  refine (foldl_after_preserves ∅ (Store.Grows.seesRows _ _ _ _) ?_ hexact
    (.refl listed hlinks)).2
  intro operation hoperation part hpart _ writer last hready hstep hgrows
  obtain ⟨update, hupdate, rfl⟩ := List.mem_map.1 (mem_of_mem_successes hoperation)
  have houtputs : ∀ output ∈ (Operation.accept update).outputs, output ∈ listed :=
    fun output houtput => hlisted ⟨update, hupdate, houtput⟩
  exact hgrows.step hconsistent hdefinitions (Part.speculates_of_mem hpart houtputs) hready hstep

/-- Parts of updates that agree commute. -/
lemma onRow_comm_of_agree (hagree : LedgerUpdate.Agree updates) {kind : OutputKind} {id : OutputId}
    (hupdate : update ∈ updates) (hother : other ∈ updates) {part part' : Part}
    (hpart : part ∈ (Operation.accept update).parts)
    (hpart' : part' ∈ (Operation.accept other).parts) (row : Option OutputRecord) :
    part'.onRow kind id (part.onRow kind id row) =
      part.onRow kind id (part'.onRow kind id row) := by
  have hspeculates : part.Speculates (LedgerUpdate.listed updates) :=
    Part.speculates_of_mem hpart fun output houtput => ⟨update, hupdate, houtput⟩
  have hspeculates' : part'.Speculates (LedgerUpdate.listed updates) :=
    Part.speculates_of_mem hpart' fun output houtput => ⟨other, hother, houtput⟩
  refine hspeculates.onRow_comm hspeculates' hagree.consistent ?_ row
  rintro spent rfl again rfl hid
  obtain ⟨_, hsame, hspent⟩ := Operation.accept_of_mark_mem_parts hpart
  obtain ⟨_, hsame', hagain⟩ := Operation.accept_of_mark_mem_parts hpart'
  cases hsame
  cases hsame'
  exact hagree.spentAt update hupdate spent (LedgerUpdate.mem_netConsumed_iff.1 hspent).1
    other hother again (LedgerUpdate.mem_netConsumed_iff.1 hagain).1 hid

/-- **Accepted updates commute.**  From any reachable state, updates in which an identifier always
stands for the same output, booked and spent in the same slots, can be accepted in any order and
with their outputs in any order: those succeed that would succeed at once, an update succeeds no
matter how its outputs are arranged, and the index ends up the same, with the same store. -/
theorem foldl_accept_reorders (known : Set LedgerOutput)
    (hdigests : Store.DigestsDiffer (Store.definitionsOf known)) (index : Index)
    (hreachable : Store.Reachable known index.store) (updates others : List LedgerUpdate)
    (hknown : LedgerUpdate.listed updates ⊆ known) (hagree : LedgerUpdate.Agree updates)
    (hreorders : LedgerUpdate.Reorders updates others) :
    index.successes (updates.map .accept) =
        (updates.filter fun update => index.succeeds (.accept update)).map .accept ∧
      index.successes (others.map .accept) =
        (others.filter fun update => index.succeeds (.accept update)).map .accept ∧
      (∀ update ∈ updates, ∀ other, update.Rearranges other →
        index.succeeds (.accept update) = index.succeeds (.accept other)) ∧
      (updates.map .accept).foldl after index = (others.map .accept).foldl after index := by
  have hexact := hreachable.exact
  have hconsistent := hagree.consistent
  have hlisted := hreorders.listed_subset
  have hsuccesses := successes_accept hexact hconsistent (subset_refl _)
  have hsuccesses' := successes_accept hexact hconsistent hlisted
  have halike : ∀ update ∈ updates, ∀ other, update.Rearranges other →
      index.succeeds (.accept update) = index.succeeds (.accept other) :=
    fun update hupdate other h => succeeds_of_rearranges hexact hconsistent
      (fun output houtput => ⟨update, hupdate, houtput⟩) h
  refine ⟨hsuccesses, hsuccesses', halike, ?_⟩
  have hrows : ∀ kind id, ((updates.map .accept).foldl after index).store.row? kind id =
      ((others.map .accept).foldl after index).store.row? kind id := by
    intro kind id
    rw [row?_foldl_after hexact, row?_foldl_after hexact, hsuccesses, hsuccesses']
    refine (hreorders.parts_perm halike).foldl_eq' (fun part hpart part' hpart' row => ?_) _
    obtain ⟨update, hupdate, hpart⟩ := LedgerUpdate.exists_of_mem_parts hpart
    obtain ⟨update', hupdate', hpart'⟩ := LedgerUpdate.exists_of_mem_parts hpart'
    exact onRow_comm_of_agree hagree hupdate hupdate' hpart hpart' row
  obtain ⟨refers, hlinks⟩ := hreachable.exists_links
  have hdefinitions : ∀ output ∈ LedgerUpdate.listed updates,
      ∀ d ∈ Address.definitions output.output.addresses, d ∈ Store.definitionsOf known :=
    fun output houtput d hd => ⟨output, hknown houtput, hd⟩
  have hgrows := grows_foldl_accept hexact hconsistent (subset_refl _) hdefinitions hlinks
  have hgrows' := grows_foldl_accept hexact hconsistent hlisted hdefinitions hlinks
  have hlinks_eq : ((updates.map .accept).foldl after index).store.links =
      ((others.map .accept).foldl after index).store.links := by
    have hreferences : Store.rowReferences (index.store.unseen (LedgerUpdate.listed updates))
        ((updates.map .accept).foldl after index).store =
          Store.rowReferences (index.store.unseen (LedgerUpdate.listed updates))
            ((others.map .accept).foldl after index).store :=
      Store.rowReferences_eq_of_isSome_eq fun kind id => congrArg Option.isSome (hrows kind id)
    refine hgrows.links.links_eq (hreferences ▸ hgrows'.links) fun d hd e he => ?_
    exact hdigests.toBytes_eq hd he
  have hframe : SameFrame ((updates.map .accept).foldl after index)
      ((others.map .accept).foldl after index) :=
    (sameFrame_foldl_accept index updates).symm.trans (sameFrame_foldl_accept index others)
  exact hframe.eq (exact_foldl_after hexact) (exact_foldl_after hexact) hrows hlinks_eq

/-- The sample update, and one that spends what it creates. -/
def sampleChain : List LedgerUpdate := [sampleUpdate, ⟨7, [⟨sampleCreated, 7⟩], []⟩]

/-- An output may be spent by an update that is accepted before the one that creates it. -/
theorem foldl_accept_sampleChain :
    Store.DigestsDiffer (Store.definitionsOf sampleKnown) ∧
      Store.Reachable sampleKnown sampleIndex.store ∧
      LedgerUpdate.listed sampleChain ⊆ sampleKnown ∧ LedgerUpdate.Agree sampleChain ∧
      LedgerUpdate.Reorders sampleChain sampleChain.reverse ∧
      sampleIndex.successes (sampleChain.reverse.map .accept) =
        sampleChain.reverse.map .accept ∧
      (sampleChain.map .accept).foldl after sampleIndex =
        (sampleChain.reverse.map .accept).foldl after sampleIndex := by
  have houtputs : ∀ update ∈ sampleChain, ∀ output ∈ (Operation.accept update).outputs,
      output = sampleSpent ∨ output = sampleCreated := by
    decide +kernel
  have hknown : LedgerUpdate.listed sampleChain ⊆ sampleKnown := by
    rintro output ⟨update, hupdate, houtput⟩
    exact houtputs update hupdate output houtput
  have hagree : LedgerUpdate.Agree sampleChain :=
    ⟨consistent_sampleKnown.mono hknown, by decide +kernel⟩
  have hreorders : LedgerUpdate.Reorders sampleChain sampleChain.reverse := by
    refine ⟨sampleChain.reverse, (List.reverse_perm _).symm, List.forall₂_same.2 fun _ _ => ?_⟩
    exact ⟨rfl, .refl _, .refl _⟩
  obtain ⟨-, hsuccesses, -, hsame⟩ := foldl_accept_reorders sampleKnown digestsDiffer_sampleKnown
    sampleIndex reachable_sampleIndex sampleChain sampleChain.reverse hknown hagree hreorders
  have hall : ∀ update ∈ sampleChain.reverse, sampleIndex.succeeds (.accept update) = true := by
    decide +kernel
  rw [List.filter_eq_self.2 hall] at hsuccesses
  exact ⟨digestsDiffer_sampleKnown, reachable_sampleIndex, hknown, hagree, hreorders, hsuccesses,
    hsame⟩

end Index

end OutputIndex
