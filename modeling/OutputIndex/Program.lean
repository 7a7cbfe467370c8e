import OutputIndex.Command.Parser
import OutputIndex.Disk
import OutputIndex.Index.Bootstrap
import OutputIndex.Json.Printer
import OutputIndex.Query
import OutputIndex.Settings.Sources
import OutputIndex.Store.Image

/-!
# The program

A run of the program reads its command line and its settings, opens the store, carries out the
command, and keeps the store, also if the command fails half-way.
-/

namespace OutputIndex

/-- What a run leaves its caller with. -/
structure Outcome where
  /-- Zero for success, one for a failure, two for a wrong command line, and 101 for a sum that
  overflows. -/
  exitCode : UInt8
  /-- What the command shows. -/
  shown : Option Json

namespace Outcome

/-- The command has nothing to show. -/
def done : Outcome := ⟨0, none⟩

/-- The command shows a document. -/
def showing (json : Json) : Outcome := ⟨0, some json⟩

/-- The command has failed. -/
def failed : Outcome := ⟨1, none⟩

/-- The command has come to a sum that overflows. -/
def panicked : Outcome := ⟨101, none⟩

/-- What is shown as text. -/
def text? (outcome : Outcome) : Option String := outcome.shown.map fun json => json.pretty ++ "\n"

end Outcome

namespace Program

variable {m : Type → Type} [Monad m]

/-! ## Settings -/

/-- The paths at which a file of settings is looked for, if it is not there under its own name: an
extension is put behind the one that it has. -/
def settingsPaths (path : String) : List (String × DocumentForm) :=
  let path := if (Path.extension? path).isSome then path ++ ".dummy" else path
  DocumentForm.all.map fun form => (Path.withExtension path form.extension, form)

/-- Reads the first of some files that is there; nothing if none is. -/
def readFirst (disk : Disk m) : List (String × DocumentForm) → m (Option (Option Document))
  | [] => return none
  | (path, form) :: rest => do
    match ← disk.read path with
    | .content bytes => return some (form.read? bytes)
    | _ => readFirst disk rest

/-- The form of a file of settings, which its extension says. -/
def formOf? (path : String) : Option DocumentForm :=
  DocumentForm.all.find? fun form => Path.extension? path == some form.extension

/-- Reads a file of settings: nothing if there is no such file, and an inner nothing if the file is
no document. -/
def readDocument (disk : Disk m) (path : String) : m (Option (Option Document)) := do
  match ← disk.read path with
  | .content bytes => return some ((formOf? path).bind (·.read? bytes))
  | _ => readFirst disk (settingsPaths path)

/-- The documents at some paths, each with the word whether it has to be there. -/
def readDocuments (disk : Disk m) : List (String × Bool) → m (Option (List Document))
  | [] => return some []
  | (path, needed) :: rest => do
    match ← readDocument disk path with
    | none => if needed then return none else readDocuments disk rest
    | some none => return none
    | some (some document) => return (← readDocuments disk rest).map (document :: ·)

/-- The files of settings: one of the machine, one of the directory, and one that is asked for. -/
def settingsFiles (asked : Option String) : List (String × Bool) :=
  [("/etc/ledgerdex/daemon.toml", false), ("ledgerdex.toml", false)]
    ++ asked.toList.map fun path => (path, true)

/-- The settings of a run. -/
def readSettings (disk : Disk m) (asked : Option String) : m (Option Settings) := do
  return (← readDocuments disk (settingsFiles asked)).bind Settings.ofDocuments?

/-! ## The store -/

/-- Opens the store at a path; a file for it, and the directories above it, are made if there are
none. -/
def openStore (disk : Disk m) (path : String) : m (Option Store) := do
  if !(← disk.makeParents path) then return none
  match ← disk.read path with
  | .content bytes =>
    match Store.ofImage? bytes with
    | none => return none
    | some store =>
      -- opening brings back tables that an unfinished import has dropped
      let store := store.withSchema
      return if ← disk.write path store.image then some store else none
  | .unreadable .notFound =>
    return if ← disk.write path Store.empty.image then some .empty else none
  | _ => return none

/-! ## Commands -/

/-- The bridge to the node that three files tell of. -/
def readBridge (disk : Disk m) (nodeInfo snapshot events : Option String) : m Bridge := do
  let read (path : Option String) : m FileSource :=
    match path with
    | none => return .notConfigured
    | some path => disk.read path
  return .ofFiles (← read nodeInfo) (← read snapshot) (← read events)

/-- The question of a request, with the page that is allowed. -/
def answer (settings : QuerySettings) : QueryRequest → IndexM (Option QueryResult)
  | .filtered (.error _) _ => return none
  | .filtered (.ok filter) page =>
    some <$> Index.query filter ⟨settings.pageSize page.size, page.cursor⟩
  | .byIdentity kind key => some <$> Index.findByIdentity kind key

/-- The numbers of rows, by their names in alphabetical order. -/
def rowsJson (counts : List (String × Nat)) : Json :=
  .ofFields ((counts.mergeSort fun a b => !(b.1 < a.1)).map fun entry =>
    (entry.1, .natural entry.2))

/-- A status with its members in alphabetical order. -/
def statusJson (status : Status) : Json :=
  .ofFields
    [("committed_slot", .natural status.committedSlot.toNat),
     ("database_version", .natural status.databaseVersion.toNat),
     ("network_name", .text status.networkName),
     ("protocol_version", .natural status.protocolVersion.toNat)]

/-- Carries out a command on an index, with the files of a bridge. -/
def perform (settings : Settings) (bridge : Bridge) (command : Command) : StateM Index Outcome :=
  let succeed {ε α : Type} (write : α → Outcome) (operation : ExceptT ε (StateM Index) α) :
      StateM Index Outcome := do
    match ← operation.run with
    | .ok value => return write value
    | .error _ => return .failed
  match command with
  | .importSnapshot _ _ force =>
    succeed (fun _ => .done) do
      if force then Index.toBridge Index.clear
      discard (Index.bootstrap bridge)
  | .replay _ start => do
    match ← (Index.replay bridge start).run with
    | .ok _ => return .done
    | .error (.bridge _) => return .failed
    | .error .overflow => return .panicked
  | .query request =>
    succeed (fun result => result.elim .failed fun result => .showing result.toJson)
      (answer settings.query request)
  | .resolveMulti (.error _) => return .failed
  | .resolveMulti (.ok key) =>
    succeed (fun definition => .showing definition.toJson) (Index.multiAddress key)
  | .status tables => do
    let store := (← get).store
    match store.stats with
    | .error _ => return .failed
    | .ok counts =>
      if tables then return .done
      else
        return .showing (.ofFields
          [("rows", rowsJson counts), ("status", .ofOption statusJson store.status)])
  | .rollback => succeed (fun _ => .done) Index.removeUncommittedChanges
  | .clear => succeed (fun _ => .done) Index.clear

/-- The bridge of a command: paths on the command line come before those of the settings. -/
def commandBridge (disk : Disk m) (settings : BridgeSettings) : Command → m Bridge
  | .importSnapshot nodeInfo snapshot _ =>
    readBridge disk (nodeInfo <|> settings.nodeInfo) (snapshot <|> settings.snapshot)
      settings.events
  | .replay events _ =>
    readBridge disk settings.nodeInfo settings.snapshot (events <|> settings.events)
  | _ => readBridge disk none none none

/-- Carries out a command with the given settings. -/
def runCommand (disk : Disk m) (settings : Settings) (command : Command) : m Outcome := do
  let some store ← openStore disk settings.storage.path | return .failed
  let bridge ← commandBridge disk settings.bridge command
  let (outcome, index) := (perform settings bridge command).run (.attach store .none)
  if ← disk.write settings.storage.path index.store.image then return outcome
  else return .failed

/-- Whether a command can be seen to fail before the store is opened. -/
def isRefused : Command → Bool
  | .resolveMulti (.error _) => true
  | _ => false

/-- A run of the program. -/
def run (disk : Disk m) (words : List String) : m Outcome := do
  match Invocation.ofArguments words with
  | .error .help => return .done
  | .error .invalid => return ⟨2, none⟩
  | .ok invocation =>
    match ← readSettings disk invocation.settingsFile with
    | none => return .failed
    | some settings =>
      if isRefused invocation.command then return .failed
      else runCommand disk settings invocation.command

end Program

end OutputIndex
