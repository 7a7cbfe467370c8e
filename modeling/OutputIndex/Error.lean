import OutputIndex.Binary.Format
import OutputIndex.Output

/-!
# Errors

Every layer has a type of its own for what can go wrong in it: forms of outputs and records
(`CodecError`), the index (`IndexError`), the bridge to a node (`BridgeError`) and the program
around them (`AppError`).  A value says what went wrong; the wording is in the `message` functions.
-/

namespace OutputIndex

/-! ## Faults on demand -/

/-- A call to the writer of a store that can be made to fail. -/
inductive WriterCall where
  | writeStatus
  | writeOutput
  | removeOutput
  | commit
deriving DecidableEq

/-- What is made to fail, to see how the index copes. -/
inductive Fault where
  /-- Nothing. -/
  | none
  /-- The bridge's node information. -/
  | nodeInfo
  /-- The bridge's snapshot. -/
  | snapshot
  /-- The bridge's stream of updates, after some of them. -/
  | updates (after : Nat)
  /-- The look-ups that queries make in the store. -/
  | lookups
  /-- A call of every writer of the store. -/
  | writer (call : WriterCall)
deriving DecidableEq

/-- The name of a call. -/
def WriterCall.name : WriterCall → String
  | .writeStatus => "WriteStatus"
  | .writeOutput => "WriteOutput"
  | .removeOutput => "RemoveOutput"
  | .commit => "Commit"

/-- The name of a fault. -/
def Fault.name : Fault → String
  | .none => "None"
  | .nodeInfo => "NodeInfoError"
  | .snapshot => "SnapshotError"
  | .updates after => "UpdatesError(" ++ toString after ++ ")"
  | .lookups => "IndexStoreError"
  | .writer call => "WriterError(" ++ call.name ++ ")"

/-- The text that a fault on demand reports. -/
def Fault.message (fault : Fault) : String := "fault injection: " ++ fault.name

/-! ## Forms of outputs and records -/

/-- A condition that an output of some kind cannot do without. -/
inductive RequiredCondition where
  | address
  | stateController
  | governor
  | immutableAccount
deriving DecidableEq

/-- The name of a condition. -/
def RequiredCondition.name : RequiredCondition → String
  | .address => "address"
  | .stateController => "state controller"
  | .governor => "governor"
  | .immutableAccount => "immutable account"

/-- Why an output or a record cannot be read, or an output cannot be recorded. -/
inductive CodecError where
  /-- No kind of output has the tag. -/
  | unknownOutputKind (tag : UInt8)
  /-- A raw output has no kind byte. -/
  | truncated
  /-- An address cannot be read. -/
  | address (cause : AddressError)
  /-- A foundry is controlled by an address, of the given kind, that is no account. -/
  | foundryOwner (kind : UInt8)
  /-- What is stored as the definition of a multi address is an address of another kind. -/
  | notMultiAddress (kind : UInt8)
  /-- An address is not usable, for a reason in words. -/
  | unusableAddress (reason : String)
  /-- An output lacks a condition of its kind. -/
  | missingCondition (condition : RequiredCondition)
  /-- The binary form is not right. -/
  | malformed (cause : BinaryError)
deriving DecidableEq

/-- The text of an error in a form. -/
def CodecError.message : CodecError → String
  | .unknownOutputKind tag => "unknown output kind " ++ toString tag
  | .truncated => "payload is truncated"
  | .address cause => cause.message
  | .foundryOwner kind =>
    "invalid address: foundry controlled by non-account address kind " ++ toString kind
  | .notMultiAddress kind =>
    "invalid address: expected a multi address definition, found kind " ++ toString kind
  | .unusableAddress reason => "invalid address: " ++ reason
  | .missingCondition condition =>
    "output is missing the " ++ condition.name ++ " unlock condition"
  | .malformed cause => "malformed payload: " ++ cause.message

/-! ## The index -/

/-- A table of the store. -/
inductive TableName where
  | outputs (kind : OutputKind)
  | bySlot (kind : OutputKind)
  | byAddress (kind : OutputKind)
  | byIdentity (kind : OutputKind)
  | uncommitted
  | spent
deriving DecidableEq

/-- The text of a table's name. -/
def TableName.text : TableName → String
  | .outputs kind => kind.name ++ "-outputs"
  | .bySlot kind => kind.name ++ "-by-slot"
  | .byAddress kind => kind.name ++ "-by-address"
  | .byIdentity kind => kind.name ++ "-by-identity"
  | .uncommitted => "uncommitted"
  | .spent => "spent"

/-- Why the store cannot do what it is asked. -/
inductive StorageError where
  /-- A table that is read does not exist. -/
  | missingTable (table : TableName)
  /-- A fault on demand. -/
  | injected (fault : Fault)
  /-- The storage is not usable, for a reason in words. -/
  | unusable (reason : String)
deriving DecidableEq

/-- The text of an error of the store. -/
def StorageError.message : StorageError → String
  | .missingTable table => "Table '" ++ table.text ++ "' does not exist"
  | .injected fault => fault.message
  | .unusable reason => reason

/-- Why a text is not a cursor. -/
inductive CursorError where
  /-- The text has the wrong number of bytes. -/
  | length (bytes : Nat)
  /-- The text is not hexadecimal. -/
  | notHex
  /-- The text is refused for a reason in words. -/
  | refused (reason : String)
deriving DecidableEq

/-- The text of a fault in a cursor. -/
def CursorError.message : CursorError → String
  | .length bytes => "expected 84 characters, got " ++ toString bytes
  | .notHex => "cursor must be hexadecimal"
  | .refused reason => reason

/-- Why the index cannot answer or take an update. -/
inductive IndexError where
  /-- Nothing has been imported. -/
  | statusNotFound
  /-- The slot of an update is already committed. -/
  | updateSkipped (slot committedSlot : Slot)
  /-- An output or a record has no usable form. -/
  | codec (cause : CodecError)
  /-- No multi address has the key. -/
  | multiAddressNotFound (key : AddressKey)
  /-- A cursor is wrong. -/
  | invalidCursor (cause : CursorError)
  /-- A query is not answered, for a reason in words. -/
  | unsupportedQuery (reason : String)
  /-- The store failed. -/
  | storage (cause : StorageError)
deriving DecidableEq

/-- The text of an error of the index. -/
def IndexError.message : IndexError → String
  | .statusNotFound => "indexer status not found, a full import is required"
  | .updateSkipped slot committedSlot =>
    "ledger update for slot " ++ toString slot ++ " skipped, already committed up to "
      ++ toString committedSlot
  | .codec cause => cause.message
  | .multiAddressNotFound key => "multi address " ++ Hex.encode key ++ " not found"
  | .invalidCursor cause => "invalid cursor: " ++ cause.message
  | .unsupportedQuery reason => "unsupported query: " ++ reason
  | .storage cause => "storage error: " ++ cause.message

/-! ## The bridge to a node -/

/-- Why a file cannot be read or made. -/
inductive FileError where
  /-- The bridge has no file of the given use. -/
  | notConfigured (use : String)
  /-- The file does not exist. -/
  | notFound
  /-- A line is not UTF-8. -/
  | notUtf8
  /-- What is named as a file is a directory. -/
  | isDirectory
  /-- The path leads through a file. -/
  | notDirectory
  /-- The path, or a name in it, is too long. -/
  | nameTooLong
  /-- Something stands at the path already. -/
  | exists
  /-- The path holds a zero byte. -/
  | zeroByte
  /-- The machine refuses, for a reason in words. -/
  | refused (reason : String)
  /-- A fault on demand. -/
  | injected (fault : Fault)
deriving DecidableEq

/-- The text of a fault of a file. -/
def FileError.message : FileError → String
  | .notConfigured use => "no " ++ use ++ " file configured"
  | .notFound => "No such file or directory (os error 2)"
  | .notUtf8 => "stream did not contain valid UTF-8"
  | .isDirectory => "Is a directory (os error 21)"
  | .notDirectory => "Not a directory (os error 20)"
  | .nameTooLong => "File name too long (os error 36)"
  | .exists => "File exists (os error 17)"
  | .zeroByte => "file name contained an unexpected NUL byte"
  | .refused reason => reason
  | .injected fault => fault.message

/-- Why the bridge cannot deliver, or the index cannot take what it delivers. -/
inductive BridgeError where
  /-- A file cannot be read. -/
  | io (cause : FileError)
  /-- A document is not what it should be. -/
  | json
  /-- The index failed. -/
  | index (cause : IndexError)
deriving DecidableEq

/-- The text of an error of the bridge. -/
def BridgeError.message : BridgeError → String
  | .io cause => "bridge io error: " ++ cause.message
  | .json => "malformed bridge payload"
  | .index cause => cause.message

/-! ## The program -/

/-- Why the program fails. -/
inductive AppError where
  /-- Reading or writing failed, for a reason in words. -/
  | io (reason : String)
  /-- The configuration is wrong. -/
  | configuration (reason : String)
  /-- An argument or a document cannot be read. -/
  | parse (reason : String)
  /-- The storage is not usable. -/
  | storage (reason : String)
  /-- The index failed. -/
  | index (cause : IndexError)
  /-- The bridge failed. -/
  | bridge (cause : BridgeError)
  /-- Anything else, in words. -/
  | message (text : String)
deriving DecidableEq

/-- The text of an error of the program. -/
def AppError.text : AppError → String
  | .io reason => "io error: " ++ reason
  | .configuration reason => "configuration error: " ++ reason
  | .parse reason => "parse error: " ++ reason
  | .storage reason => "storage error: " ++ reason
  | .index cause => cause.message
  | .bridge cause => cause.message
  | .message text => text

/-- An error in a form that comes up in the storage. -/
def AppError.ofStoredCodec (cause : CodecError) : AppError := .storage cause.message

end OutputIndex
