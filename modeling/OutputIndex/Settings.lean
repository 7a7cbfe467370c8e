import OutputIndex.Digits
import OutputIndex.Json.Basic
import OutputIndex.Json.Printer

/-!
# Settings

The program is told where its store lies, where the files of its bridge lie, how many outputs a
page may have, and how much it logs.  Each of these is a section, and a section that is missing has
default values.  In JSON every value is taken as what it is written as.
-/

namespace OutputIndex

/-- How much is logged. -/
inductive LogLevel where
  | error
  | warn
  | info
  | debug
  | trace
deriving DecidableEq

namespace LogLevel

/-- Every level, from the least to the most talkative. -/
def all : List LogLevel := [.error, .warn, .info, .debug, .trace]

/-- The name of a level. -/
def name : LogLevel → String
  | .error => "ERROR"
  | .warn => "WARN"
  | .info => "INFO"
  | .debug => "DEBUG"
  | .trace => "TRACE"

end LogLevel

namespace LogLevel

/-- The level that a text names: its name in any case, or its number from one on. -/
def ofText? (text : String) : Option LogLevel :=
  match Digits.natural? text with
  | some number => if number = 0 then none else all[number - 1]?
  | none => all.find? fun level => text.map Char.toUpper == level.name

end LogLevel

/-! ## The sections -/

/-- Where the store lies. -/
structure StorageSettings where
  path : String := "data/index.redb"
  /-- The size of the store's cache in megabytes. -/
  cache : Option UInt64 := none
deriving DecidableEq

/-- Where the files of the bridge lie. -/
structure BridgeSettings where
  nodeInfo : Option String := none
  snapshot : Option String := none
  events : Option String := none
deriving DecidableEq

/-- How queries are answered. -/
structure QuerySettings where
  /-- The number of outputs that a page may have. -/
  maxPageSize : UInt32 := 1000
deriving DecidableEq

/-- What is logged. -/
structure LoggingSettings where
  maxLevel : LogLevel := .info
  /-- Whether the store logs too. -/
  includeStore : Bool := false
deriving DecidableEq

/-- All settings. -/
structure Settings where
  storage : StorageSettings := {}
  bridge : BridgeSettings := {}
  query : QuerySettings := {}
  logging : LoggingSettings := {}
deriving DecidableEq

/-- The size of a page: the one asked for, if it is positive and allowed, or the largest one. -/
def QuerySettings.pageSize (settings : QuerySettings) : Option UInt32 → UInt32
  | some size => if 0 < size ∧ size ≤ settings.maxPageSize then size else settings.maxPageSize
  | none => settings.maxPageSize

/-! ## In JSON -/

namespace StorageSettings

/-- The section as a JSON document. -/
def toJson (settings : StorageSettings) : Json :=
  .ofFields
    [("path", .text settings.path),
     ("cache", .ofOption (fun size => .natural size.toNat) settings.cache)]

/-- Reads the section. -/
def ofJson? (json : Json) : Option StorageSettings := do
  let [path, cache] ← json.fields? ["path", "cache"] | none
  return {
    path := ← path.required Json.text?
    cache := ← cache.optional Json.word64? }

end StorageSettings

namespace BridgeSettings

/-- The section as a JSON document. -/
def toJson (settings : BridgeSettings) : Json :=
  .ofFields
    [("node_info", .ofOption .text settings.nodeInfo),
     ("snapshot", .ofOption .text settings.snapshot),
     ("events", .ofOption .text settings.events)]

/-- Reads the section. -/
def ofJson? (json : Json) : Option BridgeSettings := do
  let [nodeInfo, snapshot, events] ← json.fields? ["node_info", "snapshot", "events"] | none
  return {
    nodeInfo := ← nodeInfo.optional Json.text?
    snapshot := ← snapshot.optional Json.text?
    events := ← events.optional Json.text? }

end BridgeSettings

namespace QuerySettings

/-- The section as a JSON document. -/
def toJson (settings : QuerySettings) : Json :=
  .ofFields [("max_page_size", .natural settings.maxPageSize.toNat)]

/-- Reads the section. -/
def ofJson? (json : Json) : Option QuerySettings := do
  let [maxPageSize] ← json.fields? ["max_page_size"] | none
  return { maxPageSize := ← maxPageSize.required Json.word32? }

end QuerySettings

namespace LoggingSettings

/-- The section as a JSON document. -/
def toJson (settings : LoggingSettings) : Json :=
  .ofFields
    [("max_level", .text settings.maxLevel.name), ("include_redb", .bool settings.includeStore)]

/-- Reads the section. -/
def ofJson? (json : Json) : Option LoggingSettings := do
  let [maxLevel, includeStore] ← json.fields? ["max_level", "include_redb"] | none
  return {
    maxLevel := ← maxLevel.required fun value => value.text?.bind LogLevel.ofText?
    includeStore := ← includeStore.withDefault false Json.bool? }

end LoggingSettings

namespace Settings

/-- The settings as a JSON document. -/
def toJson (settings : Settings) : Json :=
  .ofFields
    [("storage", settings.storage.toJson), ("bridge", settings.bridge.toJson),
     ("query", settings.query.toJson), ("logging", settings.logging.toJson)]

/-- Reads settings from a JSON document. -/
def ofJson? (json : Json) : Option Settings := do
  let [storage, bridge, query, logging] ←
    json.fields? ["storage", "bridge", "query", "logging"] | none
  return {
    storage := ← storage.withDefault {} StorageSettings.ofJson?
    bridge := ← bridge.withDefault {} BridgeSettings.ofJson?
    query := ← query.withDefault {} QuerySettings.ofJson?
    logging := ← logging.withDefault {} LoggingSettings.ofJson? }

end Settings

end OutputIndex
