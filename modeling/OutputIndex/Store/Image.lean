import OutputIndex.Record.Binary
import OutputIndex.Store

/-!
# The image of a store

A store is kept in a file as one binary value behind a mark that tells such files from others.  An
empty file is a store without anything in it.
-/

namespace OutputIndex

namespace Format

variable {α κ : Type}

/-- A set of keys, as the list of its keys. -/
def keySet [TableKey κ] (format : Format κ) : Format (KeySet κ) :=
  format.list.map KeySet.ofList Table.keys

/-- A slot and an identifier. -/
def sortKey : Format SortKey :=
  (word32.prod (identifier .output)).map
    (fun (slot, outputId) => { slot, outputId }) (fun key => (key.slot, key.outputId))

/-- The tag of a kind. -/
def outputKind : Format OutputKind :=
  word8.refine
    (fun tag =>
      match OutputKind.ofTag? tag with
      | some kind => .ok kind
      | none => .error (.unknownVariant tag.toNat OutputKind.all.length))
    OutputKind.tag

/-- A value for each kind. -/
def perKind (format : Format α) : Format (PerKind α) :=
  (format.prod <| format.prod <| format.prod <| format.prod <| format.prod format).map
    (fun (basic, account, anchor, foundry, nft, delegation) =>
      { basic, account, anchor, foundry, nft, delegation })
    (fun values => (values.basic, values.account, values.anchor, values.foundry, values.nft,
      values.delegation))

end Format

/-- The format of a kind's tables. -/
def KindTables.format : Format KindTables :=
  let lookups := (Format.bytes.prod Format.sortKey).keySet.option
  (OutputRecord.format.list.prod <| Format.sortKey.keySet.option.prod <|
    lookups.prod lookups).map
    (fun (records, bySlot, byAddress, byIdentity) =>
      { rows := records.foldl (fun rows record => rows.insert record.outputId record) .empty
        bySlot, byAddress, byIdentity })
    (fun tables => (tables.rows.values, tables.bySlot, tables.byAddress, tables.byIdentity))

namespace Store

/-- The format of a store. -/
def format : Format Store :=
  let tracked :=
    (Format.word32.prod <| Format.outputKind.prod (Format.identifier .output)).keySet.option
  (KindTables.format.perKind.prod <| tracked.prod <| tracked.prod <|
    (Format.bytes.prod Format.bytes).list.prod <|
    (Format.bytes.prod (Format.identifier .output)).keySet.prod <|
    ((Format.identifier .output).prod Format.bytes).keySet.prod Status.format.option).map
    (fun (kinds, uncommitted, spent, definitions, references, referencesByOutput, status) =>
      { kinds, uncommitted, spent
        definitions :=
          definitions.foldl (fun table (key, bytes) => table.insert key bytes) .empty
        references, referencesByOutput, status })
    (fun store => (store.kinds, store.uncommitted, store.spent, store.definitions.entries,
      store.references, store.referencesByOutput, store.status))

/-- The mark at the front of an image. -/
def imageMark : Bytes := Utf8.encode "output index, layout 1\n"

/-- The image of a store. -/
def image (store : Store) : Bytes := imageMark ++ format.write store

/-- The store that a file holds. -/
def ofImage? (input : Bytes) : Option Store :=
  if input.isEmpty then some empty
  else if input.take imageMark.length = imageMark then
    (format.decode (input.drop imageMark.length)).toOption
  else none

end Store

end OutputIndex
