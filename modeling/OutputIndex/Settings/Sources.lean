import OutputIndex.Document.Json
import OutputIndex.Document.Overlay
import OutputIndex.Settings
import OutputIndex.Text.Utf8
import OutputIndex.Toml.Reader

/-!
# Settings from several documents

Settings can be spread over several documents, of which later ones override earlier ones member by
member.  A document is TOML or JSON; each section of it is a record.
-/

namespace OutputIndex

/-! ## Sections -/

/-- Reads where the store lies. -/
def StorageSettings.ofDocument? (document : Document) : Option StorageSettings := do
  let [path, cache] ← document.fields? ["path", "cache"] | none
  return {
    path := ← path.required Document.text?
    cache := ← cache.optional (Document.option? Document.word64?) }

/-- Reads where the files of the bridge lie. -/
def BridgeSettings.ofDocument? (document : Document) : Option BridgeSettings := do
  let [nodeInfo, snapshot, events] ← document.fields? ["node_info", "snapshot", "events"] | none
  let path? (field : Field Document) := field.optional (Document.option? Document.text?)
  return {
    nodeInfo := ← path? nodeInfo
    snapshot := ← path? snapshot
    events := ← path? events }

/-- Reads how queries are answered. -/
def QuerySettings.ofDocument? (document : Document) : Option QuerySettings := do
  let [maxPageSize] ← document.fields? ["max_page_size"] | none
  return { maxPageSize := ← maxPageSize.required Document.word32? }

/-- Reads what is logged. -/
def LoggingSettings.ofDocument? (document : Document) : Option LoggingSettings := do
  let [maxLevel, includeStore] ← document.fields? ["max_level", "include_redb"] | none
  return {
    maxLevel := ← maxLevel.required fun value => value.text?.bind LogLevel.ofText?
    includeStore := ← includeStore.withDefault false Document.truth? }

namespace Settings

/-- Reads all settings. -/
def ofDocument? (document : Document) : Option Settings := do
  let [storage, bridge, query, logging] ←
    document.fields? ["storage", "bridge", "query", "logging"] | none
  return {
    storage := ← storage.withDefault {} StorageSettings.ofDocument?
    bridge := ← bridge.withDefault {} BridgeSettings.ofDocument?
    query := ← query.withDefault {} QuerySettings.ofDocument?
    logging := ← logging.withDefault {} LoggingSettings.ofDocument? }

/-- The settings that documents give, the later ones over the earlier ones. -/
def ofDocuments? (documents : List Document) : Option Settings := do
  ofDocument? (← documents.foldlM Document.overlay (.table []))

end Settings

/-! ## Files -/

/-- The forms of a document. -/
inductive DocumentForm where
  | toml
  | json
deriving DecidableEq

namespace DocumentForm

/-- Every form, in the order in which files of it are looked for. -/
def all : List DocumentForm := [.toml, .json]

/-- The extension of files of the form. -/
def extension : DocumentForm → String
  | .toml => "toml"
  | .json => "json"

/-- Reads a document from the bytes of a file, which can begin with a byte order mark. -/
def read? (form : DocumentForm) (bytes : Bytes) : Option Document := do
  let text ← (Utf8.decode bytes).toOption
  let text := Toml.dropMark text.toList
  match form with
  | .toml => Toml.ofText? text
  | .json => Document.ofJsonText? (.ofList text)

end DocumentForm

end OutputIndex
