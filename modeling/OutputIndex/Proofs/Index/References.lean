import OutputIndex.Proofs.Index.Reachable

/-!
# What the rows of an index refer to

Where every identifier stands for one output, the references that an index keeps are those of the
outputs that have a row (`Store.Linked`): an output's references come with its row and go with it,
whether it is final or not.  Each step keeps this (`Store.Linked.step`), so it holds of every
reachable store (`Store.Reachable.linked`).
-/

namespace OutputIndex

/-- Entries with the same identifier are about the same output, whenever it is booked. -/
def SameOutputs (known : Set LedgerOutput) : Prop :=
  ∀ output ∈ known, ∀ other ∈ known, output.outputId = other.outputId → output.output = other.output

lemma SameOutputs.kind_eq {known : Set LedgerOutput} {output other : LedgerOutput}
    (h : SameOutputs known) (houtput : output ∈ known) (hother : other ∈ known)
    (hid : output.outputId = other.outputId) : output.kind = other.kind :=
  congrArg Output.kind (h output houtput other hother hid)

namespace Store

/-- The multi addresses of some outputs. -/
def definitionsOf (known : Set LedgerOutput) : Set MultiAddress :=
  {definition | ∃ output ∈ known, definition ∈ Address.definitions output.output.addresses}

/-- The references of the known outputs that have a row. -/
def rowReferences (known : Set LedgerOutput) (store : Store) : Set (AddressKey × OutputId) :=
  {reference | ∃ output ∈ known, (store.row? output.kind output.outputId).isSome ∧
    reference ∈ referencesFrom output.outputId output.output.addresses}

lemma rowReferences_eq_of_isSome_eq {known : Set LedgerOutput} {store other : Store}
    (hrows : ∀ kind id, (other.row? kind id).isSome = (store.row? kind id).isSome) :
    other.rowReferences known = store.rowReferences known := by
  simp only [rowReferences, hrows]

/-- Every row is that of a known output, and the references are those of the outputs with a row. -/
structure Linked (known : Set LedgerOutput) (store : Store) : Prop where
  shelved : ∀ kind id, (store.row? kind id).isSome →
    ∃ output ∈ known, output.kind = kind ∧ output.outputId = id
  links : store.Links (store.rowReferences known) (definitionsOf known)

variable {known : Set LedgerOutput} {store other : Store} {output : LedgerOutput}
  {record : OutputRecord} {reference : AddressKey × OutputId}

/-- The references of the rows, when an output is entered. -/
lemma rowReferences_enter {writer : Writer} (hsame : SameOutputs known) (hknown : output ∈ known)
    (hkind : record.kind = output.kind) (hid : record.outputId = output.outputId) :
    (writer.enter record output).store.rowReferences known =
      referencesFrom output.outputId output.output.addresses ∪
        writer.store.rowReferences known := by
  have hrows := Writer.row?_enter writer record output
  rw [hkind, hid] at hrows
  ext reference
  constructor
  · rintro ⟨o, ho, hrow, href⟩
    rw [hrows] at hrow
    split at hrow
    · rename_i hkey
      rw [hsame o ho output hknown hkey.2, hkey.2] at href
      exact .inl href
    · exact .inr ⟨o, ho, hrow, href⟩
  · rintro (href | ⟨o, ho, hrow, href⟩)
    · refine ⟨output, hknown, ?_, href⟩
      rw [hrows, if_pos ⟨rfl, rfl⟩]
      rfl
    · refine ⟨o, ho, ?_, href⟩
      rw [hrows]
      split
      · rfl
      · exact hrow

lemma Links.enter {writer : Writer} {refers : Set (AddressKey × OutputId)}
    {definitions : Set MultiAddress} (h : writer.store.Links refers definitions)
    (record : OutputRecord)
    (hdefinitions : ∀ d ∈ Address.definitions output.output.addresses, d ∈ definitions) :
    (writer.enter record output).store.Links
      (referencesFrom output.outputId output.output.addresses ∪ refers) definitions := by
  have hput := h.of_links_eq (Writer.rowsOnly_putRecord writer record).links
  exact hput.recordReferences output.outputId output.output.addresses hdefinitions

namespace Linked

lemma empty (known : Set LedgerOutput) : Linked known Store.empty where
  shelved kind id h := by
    rw [row?_empty] at h
    cases h
  links := by
    have hnone : Store.empty.rowReferences known = ∅ := by
      ext reference
      simp [rowReferences, row?_empty]
    rw [hnone]
    exact links_empty _

/-- Rows may be rewritten as long as the same outputs have one. -/
lemma of_isSome_iff (h : Linked known store)
    (hrows : ∀ kind id, (other.row? kind id).isSome = (store.row? kind id).isSome)
    (hlinks : other.links = store.links) : Linked known other where
  shelved kind id hrow := by
    rw [hrows] at hrow
    exact h.shelved kind id hrow
  links := by
    rw [rowReferences_eq_of_isSome_eq hrows]
    exact h.links.of_links_eq hlinks

lemma seesRows (known : Set LedgerOutput) : SeesRows fun _ => Linked known :=
  fun _ _ _ hrows hlinks h => h.of_isSome_iff (fun kind id => by rw [hrows]) hlinks

/-- Rewriting a row keeps the references. -/
lemma putRecord {writer : Writer} (h : Linked known writer.store)
    (hrow : (writer.store.row? record.kind record.outputId).isSome) :
    Linked known (writer.putRecord record).store := by
  refine h.of_isSome_iff (fun kind id => ?_) (Writer.rowsOnly_putRecord writer record).links
  rw [Writer.row?_putRecord]
  split
  · rename_i hkey
    rw [hkey.1, hkey.2, hrow]
    rfl
  · rfl

/-- Entering an output brings its references. -/
lemma enter {writer : Writer} (h : Linked known writer.store) (hsame : SameOutputs known)
    (hknown : output ∈ known) (hkind : record.kind = output.kind)
    (hid : record.outputId = output.outputId) :
    Linked known (writer.enter record output).store := by
  refine ⟨fun kind id hrow => ?_, ?_⟩
  · rw [Writer.row?_enter, hkind, hid] at hrow
    split at hrow
    · rename_i hkey
      exact ⟨output, hknown, hkey.1.symm, hkey.2.symm⟩
    · exact h.shelved kind id hrow
  · rw [rowReferences_enter hsame hknown hkind hid]
    exact h.links.enter record fun d hd => ⟨output, hknown, hd⟩

/-- Outputs may lose their rows together with their references. -/
lemma of_gone (h : Linked known store) (gone : Set OutputId)
    (hrows : ∀ kind id, (other.row? kind id).isSome → (store.row? kind id).isSome)
    (hgone : ∀ output ∈ known, (other.row? output.kind output.outputId).isSome ↔
      (store.row? output.kind output.outputId).isSome ∧ output.outputId ∉ gone)
    (hlinks : other.Links {reference ∈ store.rowReferences known | reference.2 ∉ gone}
      (definitionsOf known)) : Linked known other where
  shelved kind id hrow := h.shelved kind id (hrows kind id hrow)
  links := by
    convert hlinks using 1
    ext reference
    constructor
    · rintro ⟨o, ho, hrow, href⟩
      obtain ⟨hrow', hnot⟩ := (hgone o ho).1 hrow
      exact ⟨⟨o, ho, hrow', href⟩, href.1 ▸ hnot⟩
    · rintro ⟨⟨o, ho, hrow, href⟩, hnot⟩
      rw [href.1] at hnot
      exact ⟨o, ho, (hgone o ho).2 ⟨hrow, hnot⟩, href⟩

/-- An output that leaves takes its references along. -/
lemma leave {writer : Writer} (h : Linked known writer.store) (hsame : SameOutputs known)
    (hknown : output ∈ known) :
    Linked known (writer.leave output.kind output.outputId).store := by
  cases hrow : writer.store.row? output.kind output.outputId with
  | none =>
    have hleave : writer.leave output.kind output.outputId = writer := by
      rw [Writer.leave, hrow]
    rw [hleave]
    exact h
  | some record =>
    have hrows := Writer.row?_leave writer output.kind
    refine h.of_gone {output.outputId} (fun kind id hsome => ?_) (fun o ho => ?_) ?_
    · rw [hrows] at hsome
      split at hsome
      · cases hsome
      · exact hsome
    · rw [hrows, Set.mem_singleton_iff]
      by_cases hid : o.outputId = output.outputId
      · simp [hsame.kind_eq ho hknown hid, hid]
      · simp [hid]
    · have htaken := h.links.of_links_eq
        (Writer.rowsOnly_takeRecord writer output.kind output.outputId).links
      rw [Writer.leave, hrow]
      exact htaken.releaseReferences output.outputId

lemma links_foldl_release {refers : Set (AddressKey × OutputId)} {definitions : Set MultiAddress}
    {writer : Writer} (h : writer.store.Links refers definitions) (ids : List OutputId) :
    (ids.foldl Writer.release writer).store.Links {reference ∈ refers | reference.2 ∉ ids}
      definitions := by
  induction ids generalizing writer refers with
  | nil => simpa using h
  | cons id rest ih =>
    have hreleased : (writer.release id).store.Links _ definitions := h.releaseReferences id
    have hrest := ih hreleased
    rw [List.foldl_cons]
    convert hrest using 1
    ext reference
    simp only [Set.mem_sep_iff, List.mem_cons, not_or, and_assoc, ne_eq]

/-- Settling drops the references of the rows that it drops. -/
lemma settle {writer : Writer} (h : Linked known writer.store) (hsame : SameOutputs known)
    (hready : writer.Ready) (slot : Slot) : Linked known (writer.settle slot).store := by
  refine h.of_gone {id | id ∈ (writer.discard slot).1} (fun kind id hsome => ?_)
    (fun o ho => ?_) ?_
  · rw [Writer.row?_settle hready] at hsome
    cases hrow : writer.store.row? kind id with
    | none =>
      rw [hrow] at hsome
      cases hsome
    | some record => rfl
  · rw [Writer.row?_settle hready, Set.mem_ofPred_eq, Writer.mem_discard_iff hready.exact]
    cases hrow : writer.store.row? o.kind o.outputId with
    | none => simp
    | some record =>
      have hlapses : record.Lapses slot ↔
          ∃ kind r, writer.store.row? kind o.outputId = some r ∧ r.Lapses slot := by
        refine ⟨fun hl => ⟨o.kind, record, hrow, hl⟩, ?_⟩
        rintro ⟨kind, r, hr, hl⟩
        -- no output has rows of two kinds
        obtain ⟨o', ho', rfl, hid⟩ := h.shelved kind o.outputId (by rw [hr]; rfl)
        rw [hsame.kind_eq ho' ho hid, hrow] at hr
        exact Option.some.inj hr ▸ hl
      rw [← hlapses]
      by_cases hl : record.Lapses slot <;> simp [OutputRecord.swept, hl]
  · have hdiscarded := h.links.of_links_eq (Writer.rowsOnly_discard writer slot).links
    have hreleased := links_foldl_release hdiscarded (writer.discard slot).1
    exact hreleased.of_links_eq (Writer.rowsOnly_revive _ slot).links

/-- Every step keeps the references in line with the rows. -/
lemma step {writer last : Writer} {part : Part} (h : Linked known writer.store)
    (hsame : SameOutputs known) (hknown : ∀ output ∈ part.outputs, output ∈ known)
    (hready : writer.Ready) (hstep : Step writer part last) : Linked known last.store := by
  have hkeyed := hready.exact.keyed
  cases hstep with
  | settle slot => exact h.settle hsame hready slot
  | mark hrow =>
    obtain ⟨hkind, hid⟩ := hkeyed _ _ _ hrow
    refine h.putRecord ?_
    rw [OutputRecord.kind_spentAt, OutputRecord.outputId_spentAt, hkind, hid, hrow]
    rfl
  | @markUnseen spent _ hrow hrecord =>
    have hrecords := (OutputRecord.records_of_ok hrecord).spentAt spent.spentAt
    exact h.enter hsame (hknown _ (List.mem_singleton.2 rfl)) hrecords.kind hrecords.outputId
  | remove spent => exact h.leave hsame (hknown _ (List.mem_singleton.2 rfl))
  | propose hrow hrecord | finalize hrow hrecord =>
    have hrecords := OutputRecord.records_of_ok hrecord
    exact h.enter hsame (hknown _ (List.mem_singleton.2 rfl)) hrecords.kind hrecords.outputId
  | finalizeSeen hrow =>
    obtain ⟨hkind, hid⟩ := hkeyed _ _ _ hrow
    refine h.putRecord ?_
    rw [OutputRecord.kind_finalized, OutputRecord.outputId_finalized, hkind, hid, hrow]
    rfl
  | purge =>
    rw [Writer.purge, h.links.purgeOrphans_eq]
    exact h
  | markSame | proposeSeen | finalizeFinal => exact h

lemma stepsKeep {operation : Operation} (hsame : SameOutputs known)
    (hknown : ∀ output ∈ operation.outputs, output ∈ known) :
    Index.StepsKeep (fun _ => Linked known) operation := by
  intro part hpart unspent writer last hready hstep h
  refine h.step hsame (fun output houtput => ?_) hready hstep
  exact hknown output (Operation.mem_outputs_of_mem_parts hpart houtput)

end Linked

/-- In every reachable store the references are those of the outputs with a row. -/
lemma Reachable.linked (h : Reachable known store) (hsame : SameOutputs known) :
    Linked known store := by
  obtain ⟨-, hlinked⟩ := h.exists_unspent (Linked.seesRows known) (Linked.empty known)
    (fun operation hknown => Linked.stepsKeep hsame hknown)
    fun output houtput _ _ record hrecord h =>
      have hrecords := OutputRecord.records_of_ok hrecord
      h.enter hsame houtput hrecords.kind hrecords.outputId
  exact hlinked

/-! ## References of any outputs -/

/-- Every step keeps the tables of multi addresses in line with each other, even where an identifier
stands for several outputs. -/
lemma exists_links_of_step {writer last : Writer} {part : Part} {definitions : Set MultiAddress}
    (h : ∃ refers, writer.store.Links refers definitions)
    (hdefinitions : ∀ output ∈ part.outputs,
      ∀ d ∈ Address.definitions output.output.addresses, d ∈ definitions)
    (hstep : Step writer part last) : ∃ refers, last.store.Links refers definitions := by
  obtain ⟨refers, hlinks⟩ := h
  cases hstep with
  | settle slot =>
    have hdiscarded := hlinks.of_links_eq (Writer.rowsOnly_discard writer slot).links
    have hreleased := Linked.links_foldl_release hdiscarded (writer.discard slot).1
    exact ⟨_, hreleased.of_links_eq (Writer.rowsOnly_revive _ slot).links⟩
  | mark | finalizeSeen =>
    exact ⟨refers, hlinks.of_links_eq (Writer.rowsOnly_putRecord writer _).links⟩
  | markUnseen | propose | finalize =>
    exact ⟨_, hlinks.enter _ (hdefinitions _ (List.mem_singleton.2 rfl))⟩
  | remove spent =>
    unfold Writer.leave
    split
    · exact ⟨refers, hlinks⟩
    · have htaken := hlinks.of_links_eq
        (Writer.rowsOnly_takeRecord writer spent.output.kind spent.outputId).links
      exact ⟨_, htaken.releaseReferences spent.outputId⟩
  | purge =>
    rw [Writer.purge, hlinks.purgeOrphans_eq]
    exact ⟨refers, hlinks⟩
  | markSame | proposeSeen | finalizeFinal => exact ⟨refers, hlinks⟩

/-- In every reachable store the definitions are those that some output refers to. -/
lemma Reachable.exists_links (h : Reachable known store) :
    ∃ refers, store.Links refers (definitionsOf known) := by
  have hsees : SeesRows fun _ store => ∃ refers, store.Links refers (definitionsOf known) :=
    fun _ _ _ _ hlinks ⟨refers, h⟩ => ⟨refers, h.of_links_eq hlinks⟩
  have hdefinitions : ∀ output ∈ known,
      ∀ d ∈ Address.definitions output.output.addresses, d ∈ definitionsOf known :=
    fun output houtput d hd => ⟨output, houtput, hd⟩
  obtain ⟨-, hlinks⟩ := h.exists_unspent hsees ⟨∅, links_empty _⟩
    (fun operation hknown part hpart _ _ _ _ hstep hlinks =>
      exists_links_of_step hlinks (fun output houtput => hdefinitions output
        (hknown output (Operation.mem_outputs_of_mem_parts hpart houtput))) hstep)
    fun output houtput _ _ record _ hlinks =>
      have ⟨_, hlinks⟩ := hlinks
      ⟨_, hlinks.enter record (hdefinitions output houtput)⟩
  exact hlinks

end Store

end OutputIndex
