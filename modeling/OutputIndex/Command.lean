import OutputIndex.Filter

/-!
# Commands

What the program can be asked for on its command line.
-/

namespace OutputIndex

/-- Which page of an answer is asked for. -/
structure PageRequest where
  /-- The number of outputs on the page, if a number is asked for. -/
  size : Option UInt32
  cursor : Option String
deriving DecidableEq

/-- A question to the index. -/
inductive QueryRequest where
  /-- The outputs that a filter admits; the filter is missing if its tag cannot be read. -/
  | filtered (filter : Except HexError Filter) (page : PageRequest)
  /-- The output of a chain or foundry. -/
  | byIdentity (kind : OutputKind) (key : Bytes)

/-- A command. -/
inductive Command where
  /-- Bring the index to a state from which it can follow the node. -/
  | importSnapshot (nodeInfo snapshot : Option String) (force : Bool)
  /-- Apply the node's events. -/
  | replay (events : Option String) (start : Option Slot)
  /-- Answer a question. -/
  | query (request : QueryRequest)
  /-- Show the definition of a multi address; its key is missing if it cannot be read. -/
  | resolveMulti (key : Except HexError AddressKey)
  /-- Show the status and the numbers of rows, and how the tables lie in the store. -/
  | status (tables : Bool)
  /-- Take back everything tentative. -/
  | rollback
  /-- Empty the index. -/
  | clear

/-- What the program is started with. -/
structure Invocation where
  /-- A file of settings that has to be there. -/
  settingsFile : Option String
  command : Command

end OutputIndex
