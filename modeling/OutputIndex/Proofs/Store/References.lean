import OutputIndex.Proofs.Store.Exact

/-!
# Multi addresses and the outputs that refer to them

A store keeps the definition of a multi address exactly as long as some output refers to it, and it
keeps the references in both directions.  `Store.Links store refers known` says so for a set
`refers` of references, each from an output to the key of a definition among `known`.

Recording the references of an output adds them to the set (`Store.Links.recordReferences`), and
releasing them takes them out (`Store.Links.releaseReferences`); a definition goes with the last
reference, so there is never one to purge (`Store.Links.purgeOrphans_eq`).  Where no two known
definitions share a key, the references determine all three tables (`Store.Links.links_eq`).
-/

namespace OutputIndex

/-! ## The multi addresses among addresses -/

namespace Address

/-- The definitions of the multi addresses that some addresses are or wrap. -/
def definitions (addresses : List Address) : List MultiAddress :=
  addresses.filterMap multiAddress?

private lemma mem_foldl_distinct (definitions : List MultiAddress)
    (found : List (AddressKey × MultiAddress)) :
    let result := definitions.foldl
      (fun found definition =>
        if found.any fun entry => entry.1 == definition.key then found
        else found ++ [(definition.key, definition)]) found
    (∀ entry ∈ result, entry ∈ found ∨ entry.2 ∈ definitions ∧ entry.1 = entry.2.key) ∧
      (∀ entry ∈ found, entry ∈ result) ∧
      ∀ definition ∈ definitions, ∃ entry ∈ result, entry.1 = definition.key := by
  induction definitions generalizing found with
  | nil => exact ⟨fun entry h => .inl h, fun entry h => h, by simp⟩
  | cons definition rest ih =>
    simp only [List.foldl_cons]
    split
    · rename_i hany
      obtain ⟨hfrom, hkeep, hall⟩ := ih found
      refine ⟨fun entry h => ?_, hkeep, fun d hd => ?_⟩
      · rcases hfrom entry h with h | ⟨h, hkey⟩
        · exact .inl h
        · exact .inr ⟨List.mem_cons_of_mem _ h, hkey⟩
      · rcases List.mem_cons.1 hd with rfl | hd
        · obtain ⟨entry, hentry, hkey⟩ := List.any_eq_true.1 hany
          exact ⟨entry, hkeep entry hentry, by simpa using hkey⟩
        · exact hall d hd
    · obtain ⟨hfrom, hkeep, hall⟩ := ih (found ++ [(definition.key, definition)])
      -- the new entry is kept, and it is the one that its key is found by
      have hself := hkeep (definition.key, definition) (by simp)
      refine ⟨fun entry h => ?_, fun entry h => hkeep entry (by simp [h]), fun d hd => ?_⟩
      · rcases hfrom entry h with h | ⟨h, hkey⟩
        · rcases List.mem_append.1 h with h | h
          · exact .inl h
          · rw [List.mem_singleton.1 h]
            exact .inr ⟨List.mem_cons_self, rfl⟩
        · exact .inr ⟨List.mem_cons_of_mem _ h, hkey⟩
      · rcases List.mem_cons.1 hd with rfl | hd
        · exact ⟨_, hself, rfl⟩
        · exact hall d hd

lemma mem_multiAddresses {addresses : List Address} {entry : AddressKey × MultiAddress}
    (h : entry ∈ multiAddresses addresses) :
    entry.2 ∈ definitions addresses ∧ entry.1 = entry.2.key := by
  rcases (mem_foldl_distinct (definitions addresses) []).1 entry h with h | h
  · exact absurd h (by simp)
  · exact h

/-- Of the definitions that share a key, one is kept. -/
lemma exists_mem_multiAddresses {addresses : List Address} {definition : MultiAddress}
    (h : definition ∈ definitions addresses) :
    ∃ entry ∈ multiAddresses addresses, entry.2.key = definition.key := by
  obtain ⟨entry, hentry, hkey⟩ :=
    (mem_foldl_distinct (definitions addresses) []).2.2 definition h
  exact ⟨entry, hentry, (mem_multiAddresses hentry).2.symm.trans hkey⟩

end Address

namespace Store

variable {store other : Store} {refers : Set (AddressKey × OutputId)} {known : Set MultiAddress}

/-! ## What references leave alone -/

/-- The stores differ at most in their multi addresses. -/
structure SameRecords (store other : Store) : Prop where
  kinds : other.kinds = store.kinds
  uncommitted : other.uncommitted = store.uncommitted
  spent : other.spent = store.spent
  status : other.status = store.status

namespace SameRecords

lemma trans {third : Store} (h : SameRecords store other) (h' : SameRecords other third) :
    SameRecords store third :=
  ⟨h'.kinds.trans h.kinds, h'.uncommitted.trans h.uncommitted, h'.spent.trans h.spent,
    h'.status.trans h.status⟩

lemma row?_eq (h : SameRecords store other) (kind : OutputKind) (id : OutputId) :
    other.row? kind id = store.row? kind id := by
  rw [row?, row?, tables, tables, h.kinds]

lemma besides_eq (h : SameRecords store other) : other.besides = store.besides := by
  simp only [besides, tables, h.kinds, h.uncommitted, h.spent]

end SameRecords

lemma sameRecords_recordReferences (store : Store) (id : OutputId) (addresses : List Address) :
    SameRecords store (store.recordReferences id addresses) := by
  unfold recordReferences
  induction Address.multiAddresses addresses generalizing store with
  | nil => exact ⟨rfl, rfl, rfl, rfl⟩
  | cons entry rest ih =>
    have hstep : SameRecords store (store.addReference id entry.2) := ⟨rfl, rfl, rfl, rfl⟩
    exact hstep.trans (ih _)

lemma sameRecords_dropReference (id : OutputId) (state : Nat × Store) (key : AddressKey) :
    SameRecords state.2 (dropReference id state key).2 := by
  unfold dropReference
  dsimp only
  split <;> exact ⟨rfl, rfl, rfl, rfl⟩

lemma sameRecords_releaseReferences (store : Store) (id : OutputId) :
    SameRecords store (store.releaseReferences id).2 := by
  have hfold : ∀ (keys : List AddressKey) (state : Nat × Store),
      SameRecords state.2 (keys.foldl (dropReference id) state).2 := by
    intro keys
    induction keys with
    | nil => exact fun state => ⟨rfl, rfl, rfl, rfl⟩
    | cons key rest ih =>
      exact fun state => (sameRecords_dropReference id state key).trans (ih _)
  have hfilter : SameRecords store { store with
      referencesByOutput :=
        store.referencesByOutput.filter fun reference _ => reference.1 != id } :=
    ⟨rfl, rfl, rfl, rfl⟩
  exact hfilter.trans (hfold _ (0, _))

lemma sameRecords_purgeOrphans (store : Store) : SameRecords store store.purgeOrphans.2 :=
  ⟨rfl, rfl, rfl, rfl⟩

/-! ## Links -/

/-- The references to multi addresses are those of a set, and the definitions that are kept are
those that some output refers to. -/
structure Defines (store : Store) (refers : Set (AddressKey × OutputId))
    (known : Set MultiAddress) : Prop where
  references : ∀ key id, (key, id) ∈ store.references.keys ↔ (key, id) ∈ refers
  defined : ∀ key, (store.definitions.get? key).isSome ↔ ∃ id, (key, id) ∈ refers
  spelled : ∀ key bytes, store.definitions.get? key = some bytes →
    ∃ definition ∈ known, definition.key = key ∧ definition.toBytes = bytes

/-- As `Store.Defines`, with the references kept in both directions. -/
structure Links (store : Store) (refers : Set (AddressKey × OutputId))
    (known : Set MultiAddress) : Prop extends Defines store refers known where
  byOutput : ∀ key id, (id, key) ∈ store.referencesByOutput.keys ↔ (key, id) ∈ refers

lemma links_empty (known : Set MultiAddress) : empty.Links ∅ known where
  references key id := by simp [empty]
  defined key := by simp [empty, Table.get?_empty]
  spelled key bytes h := absurd h (by simp [empty, Table.get?_empty])
  byOutput key id := by simp [empty]

lemma Links.of_links_eq (h : store.Links refers known) (heq : other.links = store.links) :
    other.Links refers known := by
  simp only [links, Prod.mk.injEq] at heq
  obtain ⟨hdefinitions, hreferences, hbyOutput⟩ := heq
  exact {
    references := fun key id => by rw [hreferences]; exact h.references key id
    defined := fun key => by rw [hdefinitions]; exact h.defined key
    spelled := fun key bytes => by rw [hdefinitions]; exact h.spelled key bytes
    byOutput := fun key id => by rw [hbyOutput]; exact h.byOutput key id }

/-- If no two known definitions share a key, the references determine the tables. -/
lemma Links.links_eq (h : store.Links refers known) (h' : other.Links refers known)
    (hkeys : ∀ d ∈ known, ∀ e ∈ known, d.key = e.key → d.toBytes = e.toBytes) :
    store.links = other.links := by
  simp only [links, Prod.mk.injEq]
  refine ⟨Table.ext_get? fun key => ?_, KeySet.ext_keys fun reference => ?_,
    KeySet.ext_keys fun reference => ?_⟩
  · have hsome := (h.defined key).trans (h'.defined key).symm
    cases hget : store.definitions.get? key with
    | none =>
      rw [hget] at hsome
      have hnone : other.definitions.get? key = none := by simpa using hsome
      rw [hnone]
    | some bytes =>
      rw [hget] at hsome
      obtain ⟨bytes', hget'⟩ := Option.isSome_iff_exists.1 (hsome.1 rfl)
      obtain ⟨d, hd, hdkey, hdbytes⟩ := h.spelled key bytes hget
      obtain ⟨e, he, hekey, hebytes⟩ := h'.spelled key bytes' hget'
      rw [hget', ← hdbytes, ← hebytes, hkeys d hd e he (hdkey.trans hekey.symm)]
  · obtain ⟨key, id⟩ := reference
    rw [h.references, h'.references]
  · obtain ⟨id, key⟩ := reference
    rw [h.byOutput, h'.byOutput]

lemma Links.addReference (h : store.Links refers known) (id : OutputId)
    {definition : MultiAddress} (hknown : definition ∈ known) :
    (store.addReference id definition).Links (insert (definition.key, id) refers) known where
  references key i := by
    simp only [Store.addReference]
    rw [KeySet.mem_add, h.references, Set.mem_insert_iff]
  defined key := by
    simp only [Store.addReference, Set.mem_insert_iff, Prod.mk.injEq]
    have hdefined := h.defined key
    split
    · rename_i hcontains
      -- the key is defined, so some output refers to it already
      rw [hdefined]
      constructor
      · rintro ⟨i, hi⟩
        exact ⟨i, .inr hi⟩
      · rintro ⟨i, ⟨rfl, -⟩ | hi⟩
        · exact hdefined.1 hcontains
        · exact ⟨i, hi⟩
    · rw [Table.get?_insert]
      by_cases hkey : key = definition.key
      · simp [hkey]
      · simp [hkey, hdefined]
  spelled key bytes hget := by
    simp only [Store.addReference] at hget
    split at hget
    · exact h.spelled key bytes hget
    · rw [Table.get?_insert] at hget
      split at hget
      · rename_i hkey
        exact ⟨definition, hknown, hkey.symm, Option.some.inj hget⟩
      · exact h.spelled key bytes hget
  byOutput key i := by
    simp only [Store.addReference]
    rw [KeySet.mem_add, h.byOutput, Set.mem_insert_iff, Prod.mk.injEq, Prod.mk.injEq, and_comm]

/-- The references from an output to the multi addresses among some addresses. -/
def referencesFrom (id : OutputId) (addresses : List Address) : Set (AddressKey × OutputId) :=
  {reference | reference.2 = id ∧
    ∃ definition ∈ Address.definitions addresses, definition.key = reference.1}

lemma Links.foldl_addReference (h : store.Links refers known) (id : OutputId)
    (entries : List (AddressKey × MultiAddress)) (hknown : ∀ entry ∈ entries, entry.2 ∈ known) :
    (entries.foldl (fun store entry => store.addReference id entry.2) store).Links
      ({reference | reference.2 = id ∧ ∃ entry ∈ entries, entry.2.key = reference.1} ∪ refers)
      known := by
  induction entries generalizing store refers with
  | nil => simpa using h
  | cons entry rest ih =>
    have hrest := ih (h.addReference id (hknown entry List.mem_cons_self))
      fun e he => hknown e (List.mem_cons_of_mem _ he)
    rw [List.foldl_cons]
    convert hrest using 1
    ext ⟨key, i⟩
    simp only [Set.mem_union, Set.mem_ofPred_eq, List.mem_cons, Set.mem_insert_iff, Prod.mk.injEq]
    constructor
    · rintro (⟨rfl, e, rfl | he, hkey⟩ | h)
      · exact .inr (.inl ⟨hkey.symm, rfl⟩)
      · exact .inl ⟨rfl, e, he, hkey⟩
      · exact .inr (.inr h)
    · rintro (⟨rfl, e, he, hkey⟩ | ⟨hkey, rfl⟩ | h)
      · exact .inl ⟨rfl, e, .inr he, hkey⟩
      · exact .inl ⟨rfl, entry, .inl rfl, hkey.symm⟩
      · exact .inr h

/-- Recording what an output refers to adds its references. -/
lemma Links.recordReferences (h : store.Links refers known) (id : OutputId)
    (addresses : List Address) (hknown : ∀ d ∈ Address.definitions addresses, d ∈ known) :
    (store.recordReferences id addresses).Links (referencesFrom id addresses ∪ refers) known := by
  have hentries := h.foldl_addReference id (Address.multiAddresses addresses)
    fun entry hentry => hknown _ (Address.mem_multiAddresses hentry).1
  unfold Store.recordReferences
  convert hentries using 2
  ext ⟨key, i⟩
  simp only [referencesFrom, Set.mem_ofPred_eq]
  refine and_congr_right fun _ => ⟨?_, ?_⟩
  · rintro ⟨definition, hdefinition, rfl⟩
    exact Address.exists_mem_multiAddresses hdefinition
  · rintro ⟨entry, hentry, rfl⟩
    exact ⟨entry.2, (Address.mem_multiAddresses hentry).1, rfl⟩

/-! ## Releasing references -/

lemma isReferenced_iff {key : AddressKey} :
    store.isReferenced key = true ↔ ∃ id, (key, id) ∈ store.references.keys := by
  simp only [isReferenced, List.any_eq_true, beq_iff_eq]
  constructor
  · rintro ⟨⟨k, id⟩, hmem, rfl⟩
    exact ⟨id, hmem⟩
  · rintro ⟨id, hmem⟩
    exact ⟨(key, id), hmem, rfl⟩

lemma mem_referencesOf_iff {id : OutputId} {key : AddressKey} :
    key ∈ store.referencesOf id ↔ (id, key) ∈ store.referencesByOutput.keys := by
  simp only [referencesOf, List.mem_map, List.mem_filter, beq_iff_eq]
  constructor
  · rintro ⟨⟨i, k⟩, ⟨hmem, rfl⟩, rfl⟩
    exact hmem
  · intro hmem
    exact ⟨(id, key), ⟨hmem, rfl⟩, rfl⟩

/-- Dropping a reference takes it out of the set, and its definition goes if it was the last. -/
lemma Defines.dropReference {state : Nat × Store} (h : state.2.Defines refers known)
    (id : OutputId) (key : AddressKey) :
    (Store.dropReference id state key).2.Defines (refers \ {(key, id)}) known := by
  have hreferences : ∀ k i, (k, i) ∈ (state.2.references.erase (key, id)).keys ↔
      (k, i) ∈ refers \ {(key, id)} := by
    intro k i
    rw [KeySet.mem_erase, h.references, Set.mem_sdiff, Set.mem_singleton_iff, and_comm]
  -- other keys are defined as before, since only references to `key` are touched
  have hother : ∀ k, k ≠ key →
      ((∃ i, (k, i) ∈ refers \ {(key, id)}) ↔ ∃ i, (k, i) ∈ refers) := by
    intro k hk
    refine exists_congr fun i => ?_
    rw [Set.mem_sdiff, Set.mem_singleton_iff, Prod.mk.injEq]
    exact and_iff_left fun heq => hk heq.1
  unfold Store.dropReference
  dsimp only
  split
  · rename_i hreferenced
    -- another output still refers to the key, so its definition stays
    obtain ⟨i, hi⟩ := isReferenced_iff.1 hreferenced
    have hkept : (key, i) ∈ refers \ {(key, id)} := (hreferences key i).1 hi
    refine ⟨hreferences, fun k => ?_, h.spelled⟩
    by_cases hk : k = key
    · subst hk
      exact iff_of_true ((h.defined k).2 ⟨i, hkept.1⟩) ⟨i, hkept⟩
    · exact (h.defined k).trans (hother k hk).symm
  · rename_i hunreferenced
    refine ⟨hreferences, fun k => ?_, fun k bytes hget => ?_⟩
    · rw [Table.get?_erase]
      by_cases hk : k = key
      · subst hk
        refine iff_of_false (by simp) ?_
        rintro ⟨i, hi⟩
        exact hunreferenced (isReferenced_iff.2 ⟨i, (hreferences k i).2 hi⟩)
      · rw [if_neg hk]
        exact (h.defined k).trans (hother k hk).symm
    · rw [Table.get?_erase] at hget
      split at hget
      · exact absurd hget (by simp)
      · exact h.spelled k bytes hget

lemma Defines.foldl_dropReference (state : Nat × Store) (h : state.2.Defines refers known)
    (id : OutputId) (keys : List AddressKey) :
    (keys.foldl (Store.dropReference id) state).2.Defines
      {reference ∈ refers | ¬(reference.2 = id ∧ reference.1 ∈ keys)} known := by
  induction keys generalizing state refers with
  | nil => simpa using h
  | cons key rest ih =>
    have hrest := ih _ (h.dropReference id key)
    rw [List.foldl_cons]
    convert hrest using 1
    ext ⟨k, i⟩
    simp only [Set.mem_sep_iff, Set.mem_sdiff, Set.mem_singleton_iff, List.mem_cons]
    constructor
    · rintro ⟨hmem, hnot⟩
      refine ⟨⟨hmem, fun heq => ?_⟩, fun hin => hnot ⟨hin.1, .inr hin.2⟩⟩
      obtain ⟨rfl, rfl⟩ := Prod.mk.inj heq
      exact hnot ⟨rfl, .inl rfl⟩
    · rintro ⟨⟨hmem, hne⟩, hnot⟩
      refine ⟨hmem, ?_⟩
      rintro ⟨rfl, rfl | hin⟩
      · exact hne rfl
      · exact hnot ⟨rfl, hin⟩

lemma referencesByOutput_foldl_dropReference (id : OutputId) (keys : List AddressKey)
    (state : Nat × Store) :
    (keys.foldl (dropReference id) state).2.referencesByOutput = state.2.referencesByOutput := by
  induction keys generalizing state with
  | nil => rfl
  | cons key rest ih =>
    rw [List.foldl_cons, ih]
    unfold dropReference
    dsimp only
    split <;> rfl

/-- Releasing what an output refers to takes out its references and no other. -/
lemma Links.releaseReferences (h : store.Links refers known) (id : OutputId) :
    (store.releaseReferences id).2.Links {reference ∈ refers | reference.2 ≠ id} known where
  toDefines := by
    have hfiltered : Defines { store with
        referencesByOutput := store.referencesByOutput.filter fun reference _ =>
          reference.1 != id } refers known := ⟨h.references, h.defined, h.spelled⟩
    have hdropped := Defines.foldl_dropReference (0, _) hfiltered id
      (store.referencesOf id)
    unfold Store.releaseReferences
    convert hdropped using 1
    ext ⟨key, i⟩
    simp only [Set.mem_sep_iff]
    refine and_congr_right fun hmem => not_congr ⟨?_, And.left⟩
    -- every reference from the output is among those that are dropped
    rintro rfl
    exact ⟨rfl, mem_referencesOf_iff.2 ((h.byOutput key i).2 hmem)⟩
  byOutput key i := by
    unfold Store.releaseReferences
    rw [referencesByOutput_foldl_dropReference, KeySet.mem_filter, h.byOutput, Set.mem_sep_iff]
    simp

/-- No definition is without a reference, so there is none to purge. -/
lemma Links.purgeOrphans_eq (h : store.Links refers known) :
    store.purgeOrphans = (0, store) := by
  have hkept : store.definitions.filter (fun key _ => store.isReferenced key) =
      store.definitions := by
    refine Table.ext_get? fun key => Option.ext fun bytes => ?_
    rw [Table.get?_filter]
    refine and_iff_left_of_imp fun hget => isReferenced_iff.2 ?_
    obtain ⟨id, hid⟩ := (h.defined key).1 (by rw [hget]; rfl)
    exact ⟨id, (h.references key id).2 hid⟩
  simp only [purgeOrphans, hkept, Nat.sub_self]

end Store

end OutputIndex
