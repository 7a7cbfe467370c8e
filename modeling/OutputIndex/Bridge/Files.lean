import OutputIndex.Bridge
import OutputIndex.Json.Reader
import OutputIndex.Ledger.Json

/-!
# A bridge from files

A node can be known from three files: its information as one JSON document, its unspent outputs
with a JSON document on each line, and its events likewise, in the order of their slots.  Lines of
blanks are skipped.  A line is read when its turn comes, so what stands before a bad line is still
delivered.
-/

namespace OutputIndex

/-- What is known of a file. -/
inductive FileSource where
  /-- There is no such file in the configuration. -/
  | notConfigured
  /-- The file cannot be read. -/
  | unreadable (cause : FileError)
  /-- The file has these bytes. -/
  | content (bytes : Bytes)
deriving DecidableEq

/-- The bytes of a file of the given use. -/
def FileSource.read (source : FileSource) (use : String) : Except BridgeError Bytes :=
  match source with
  | .notConfigured => .error (.io (.notConfigured use))
  | .unreadable cause => .error (.io cause)
  | .content bytes => .ok bytes

namespace Lines

/-- Whether a character is white space. -/
def isSpace (c : Char) : Bool :=
  let code := c.toNat
  (0x09 ≤ code && code ≤ 0x0d) || code == 0x20 || code == 0x85 || code == 0xa0 || code == 0x1680
    || (0x2000 ≤ code && code ≤ 0x200a) || code == 0x2028 || code == 0x2029 || code == 0x202f
    || code == 0x205f || code == 0x3000

/-- A line without the carriage return that may stand at its end. -/
def dropReturn (line : Bytes) : Bytes := if line.getLast? = some 0x0d then line.dropLast else line

/-- The lines of a text: each ends with a line feed, but for the last one. `line` is what is read
of the current line, in reverse. -/
def split (line : Bytes) : Bytes → List Bytes
  | [] => if line.isEmpty then [] else [line.reverse]
  | byte :: rest =>
    if byte = 0x0a then dropReturn line.reverse :: split [] rest else split (byte :: line) rest

/-- What a line holds; nothing if it is blank. -/
def item? {α : Type} (read : Json → Option α) (line : Bytes) : Option (Except BridgeError α) :=
  match Utf8.decode line with
  | .error _ => some (.error (.io .notUtf8))
  | .ok text =>
    if text.toList.all isSpace then none
    else
      match (Json.ofBytes? line).bind read with
      | some value => some (.ok value)
      | none => some (.error .json)

/-- What the lines of a text hold. -/
def items {α : Type} (read : Json → Option α) (text : Bytes) : List (Except BridgeError α) :=
  (split [] text).filterMap (item? read)

end Lines

namespace Bridge

/-- Whether an event, or what stands in its place, is to be delivered from a slot on. -/
def isDue (start : Slot) : Except BridgeError LedgerEvent → Bool
  | .ok event => start ≤ event.slot
  | .error _ => true

/-- The bridge to the node that three files tell of. -/
def ofFiles (nodeInfo snapshot events : FileSource) : Bridge where
  nodeInfo := do
    let bytes ← nodeInfo.read "node info"
    match (Json.ofBytes? bytes).bind NodeInfo.ofJson? with
    | some info => return info
    | none => throw .json
  unspentOutputs := do return Lines.items LedgerOutput.ofJson? (← snapshot.read "snapshot")
  ledgerUpdates start := do
    return (Lines.items LedgerEvent.ofJson? (← events.read "event log")).filter (isDue start)

end Bridge

end OutputIndex
