import OutputIndex.Index.Bootstrap
import OutputIndex.Proofs.Index.Import

/-!
# Imports of snapshots

The node's unspent outputs are imported batch by batch.  The batches make up the whole list again
(`Index.flatten_batches`), and a batch that is imported is a batch without an error, loaded by one
call of the import (`Index.exists_addAll_of_importBatch`).  So an import that succeeds has loaded
all that the node lists, in its order, by some calls (`Index.Imports`), and one that fails changes
nothing, however many batches it has loaded before (`Index.eq_of_run_importSnapshot_error`).
-/

namespace OutputIndex

namespace Index

variable {index next : Index} {bridge : Bridge} {status : Status}

/-! ## Running what draws on a bridge -/

section ToBridge

variable {σ α : Type} {s t : σ}

lemma run_toBridge (operation : ExceptT IndexError (StateM σ) α) (s : σ) :
    (toBridge operation).run.run s =
      match operation.run.run s with
      | (.error cause, t) => (.error (.index cause), t)
      | (.ok result, t) => (.ok result, t) := by
  rw [toBridge, run_adapt]
  rcases operation.run.run s with ⟨_ | _, t⟩ <;> rfl

lemma run_toBridge_eq_ok_iff {operation : ExceptT IndexError (StateM σ) α} {result : α} :
    (toBridge operation).run.run s = (.ok result, t) ↔ operation.run.run s = (.ok result, t) :=
  run_adapt_eq_ok_iff

lemma run_lift {ε : Type} (value : Except ε α) (s : σ) :
    (liftM value : ExceptT ε (StateM σ) α).run.run s = (value, s) := rfl

end ToBridge

/-- The values of a stream are there if none of them is an error. -/
lemma collect_eq_ok_iff {α : Type} {stream : List (Except BridgeError α)} {values : List α} :
    collect stream = .ok values ↔ stream = values.map .ok := by
  induction stream generalizing values with
  | nil =>
    cases values with
    | nil => exact iff_of_true rfl rfl
    | cons value rest => exact iff_of_false nofun nofun
  | cons first rest ih =>
    rw [collect, List.mapM_cons]
    constructor
    · intro h
      obtain ⟨value, hfirst, htail⟩ := bind_eq_ok_iff.1 h
      obtain ⟨others, hrest, hvalues⟩ := bind_eq_ok_iff.1 htail
      obtain rfl : value :: others = values := Except.ok.inj hvalues
      rw [ih.1 hrest, show first = .ok value from hfirst]
      rfl
    · intro h
      cases values with
      | nil => cases h
      | cons value others =>
        obtain ⟨rfl, hrest⟩ := List.cons.inj h
        exact bind_eq_ok_iff.2 ⟨value, rfl, bind_eq_ok_iff.2 ⟨others, ih.2 hrest, rfl⟩⟩

/-! ## Batches -/

/-- The first windows of a list make up its front. -/
lemma flatten_windows {α : Type} (size count : ℕ) (list : List α) :
    ((List.range count).map fun place => (list.drop (place * size)).take size).flatten =
      list.take (count * size) := by
  induction count with
  | zero => simp
  | succ count ih =>
    rw [List.range_succ, List.map_append, List.flatten_append, ih, Nat.succ_mul, List.take_add]
    simp

/-- Batches make up the whole list. -/
lemma flatten_batches {α : Type} {size : ℕ} (hsize : 0 < size) (list : List α) :
    (batches size list).flatten = list := by
  have hdiv := Nat.div_add_mod (list.length + (size - 1)) size
  have hmod := Nat.mod_lt (list.length + (size - 1)) hsize
  have hle : list.length ≤ (list.length + (size - 1)) / size * size := by
    rw [Nat.mul_comm]
    omega
  rw [batches, flatten_windows, List.take_of_length_le hle]

/-- A batch that is imported has no error in it, and its outputs are loaded by one call. -/
lemma exists_addAll_of_importBatch {batch : List (Except BridgeError LedgerOutput)}
    {state last : Import} (h : (importBatch batch).run.run state = (.ok (), last)) :
    ∃ outputs : List LedgerOutput, batch = outputs.map .ok ∧
      state.after (.addAll outputs) = last ∧ Import.Loads state outputs last := by
  obtain ⟨outputs, middle, hcollect, hadd⟩ := run_bind_eq_ok_iff.1 h
  rw [run_lift] at hcollect
  obtain ⟨hcollect, rfl⟩ := Prod.ext_iff.1 hcollect
  have hrun : (Import.addAll outputs).run.run state = (.ok (), last) :=
    run_toBridge_eq_ok_iff.1 hadd
  refine ⟨outputs, collect_eq_ok_iff.1 hcollect, congrArg Prod.snd hrun, ?_⟩
  rcases Import.run_call (.addAll outputs) state with ⟨found, hfound, hloads⟩ | ⟨cause, hfails⟩
  · obtain rfl : last = found := congrArg Prod.snd (hrun.symm.trans hfound)
    exact hloads
  · cases hrun.symm.trans hfails

/-- What is imported batch by batch is loaded as a whole. -/
lemma exists_loads_of_forM_importBatch {parts : List (List (Except BridgeError LedgerOutput))}
    {state last : Import} (h : (parts.forM importBatch).run.run state = (.ok (), last)) :
    ∃ outputs : List LedgerOutput, parts.flatten = outputs.map .ok ∧
      Import.Loads state outputs last ∧
        ∃ calls : List Import.Call, calls.foldl Import.after state = last := by
  induction parts generalizing state with
  | nil =>
    cases h
    exact ⟨[], rfl, .nil _, [], rfl⟩
  | cons batch rest ih =>
    have hcons : (batch :: rest).forM importBatch =
        importBatch batch >>= fun _ => rest.forM importBatch := rfl
    rw [hcons] at h
    obtain ⟨⟨⟩, middle, hbatch, hrest⟩ := run_bind_eq_ok_iff.1 h
    obtain ⟨first, hfirst, hafter, hloads⟩ := exists_addAll_of_importBatch hbatch
    obtain ⟨others, hothers, hloaded, calls, hcalls⟩ := ih hrest
    refine ⟨first ++ others, ?_, hloads.append hloaded, .addAll first :: calls, ?_⟩
    · rw [List.flatten_cons, hfirst, hothers, List.map_append]
    · rw [List.foldl_cons, hafter, hcalls]

/-! ## Snapshots -/

lemma run_importSnapshot (bridge : Bridge) (index : Index) :
    (importSnapshot bridge).run.run index =
      match bridge.nodeInfo with
      | .error cause => (.error cause, index)
      | .ok node =>
        match bridge.unspentOutputs with
        | .error cause => (.error cause, index)
        | .ok stream =>
          match ((batches batchSize stream).forM importBatch).run.run (.start index) with
          | (.error cause, _) => (.error cause, index)
          | (.ok (), state) =>
            (toBridge (state.finalize node.ledgerSlot node.protocolVersion
              node.networkName)).run.run index := by
  rw [importSnapshot]
  cases bridge.nodeInfo with
  | error cause => exact run_bind_of_error (run_lift (.error cause) index)
  | ok node =>
    rw [run_bind_of_ok (run_lift (.ok node) index)]
    cases bridge.unspentOutputs with
    | error cause => exact run_bind_of_error (run_lift (.error cause) index)
    | ok stream =>
      have hget : (get : BridgeM Index).run.run index = (.ok index, index) := rfl
      rw [run_bind_of_ok (run_lift (.ok stream) index), run_bind_of_ok hget]
      dsimp only
      rcases ((batches batchSize stream).forM importBatch).run.run (.start index) with
        ⟨_ | ⟨⟨⟩⟩, state⟩ <;> rfl

/-- A snapshot of a bridge that is read as a whole and loaded into the store of a handle. -/
structure Imports (index : Index) (bridge : Bridge) (node : NodeInfo) (outputs : List LedgerOutput)
    (state : Import) : Prop where
  nodeInfo : bridge.nodeInfo = .ok node
  snapshot : bridge.unspentOutputs = .ok (outputs.map .ok)
  loads : Import.Loads (.start index) outputs state
  calls : ∃ calls : List Import.Call, calls.foldl Import.after (.start index) = state

/-- An import of a snapshot that succeeds has loaded it and has been ended. -/
lemma exists_imports_of_run (h : (importSnapshot bridge).run.run index = (.ok status, next)) :
    ∃ node outputs state, Imports index bridge node outputs state ∧
      (state.finalize node.ledgerSlot node.protocolVersion node.networkName).run.run index =
        (.ok status, next) := by
  rw [run_importSnapshot] at h
  split at h
  · cases h
  · rename_i node hnode
    split at h
    · cases h
    · rename_i stream hstream
      split at h
      · cases h
      · rename_i state hload
        obtain ⟨outputs, houtputs, hloads, hcalls⟩ := exists_loads_of_forM_importBatch hload
        rw [flatten_batches (by decide)] at houtputs
        subst houtputs
        exact ⟨node, outputs, state, ⟨hnode, hstream, hloads, hcalls⟩, run_toBridge_eq_ok_iff.1 h⟩

/-- An import of a snapshot that fails changes nothing. -/
lemma eq_of_run_importSnapshot_error {cause : BridgeError}
    (h : (importSnapshot bridge).run.run index = (.error cause, next)) : next = index := by
  rw [run_importSnapshot] at h
  split at h
  · exact (congrArg Prod.snd h).symm
  · split at h
    · exact (congrArg Prod.snd h).symm
    · split at h
      · exact (congrArg Prod.snd h).symm
      · rw [run_toBridge] at h
        split at h <;> cases h
        exact Import.eq_of_run_finalize_error ‹_›

end Index

end OutputIndex
