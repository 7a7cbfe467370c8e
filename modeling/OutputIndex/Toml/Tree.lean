import OutputIndex.Document

/-!
# The tree of a TOML text

A TOML text gives named values line by line, in tables that headers open.  While it is read it is
kept as a tree in which every table knows how it has come about, because that decides what may
still be put into it: a name is given a value once, and a table is opened once.
-/

namespace OutputIndex.Toml

/-- How a table has come about. -/
inductive Origin where
  /-- A header mentions a table inside it. -/
  | mentioned
  /-- A name with points mentions a value inside it. -/
  | dotted
  /-- A header has opened it. -/
  | opened
  /-- It is written between braces, and complete. -/
  | complete
deriving DecidableEq

/-- A value of a document. -/
inductive Node where
  /-- A value that is no table. -/
  | value (document : Document)
  /-- A table. -/
  | table (origin : Origin) (members : List (String × Node))
  /-- Tables that headers have opened one by one, the last one first. -/
  | tables (opened : List (List (String × Node)))

/-- The members of a table. -/
abbrev Members := List (String × Node)

mutual

/-- The value as a document. -/
def Node.toDocument : Node → Document
  | .value document => document
  | .table _ members => .table (documentsOf members)
  | .tables opened => .list (tablesOf opened).reverse

/-- The members of a table as those of a document. -/
def documentsOf : List (String × Node) → List (String × Document)
  | [] => []
  | (name, node) :: rest => (name, node.toDocument) :: documentsOf rest

/-- Tables as documents. -/
def tablesOf : List (List (String × Node)) → List Document
  | [] => []
  | members :: rest => .table (documentsOf members) :: tablesOf rest

end

/-- The members with another value for a name. -/
def put (name : String) (node : Node) : Members → Members
  | [] => [(name, node)]
  | (other, old) :: rest =>
    if other = name then (name, node) :: rest else (other, old) :: put name node rest

/-- The value of a name. -/
def find? (name : String) (members : Members) : Option Node :=
  (members.find? fun member => member.1 == name).map (·.2)

/-! ## Values -/

/-- Gives a name a value. -/
def define (name : String) (node : Node) (members : Members) : Option Members :=
  if (find? name members).isSome then none else some (put name node members)

/-- What a table becomes when a name with points leads into it; `isLast` says whether the value is
put into the table itself, which then cannot be opened any more. -/
def Origin.entered (isLast : Bool) : Origin → Option Origin
  | .mentioned => some (if isLast then .dotted else .mentioned)
  | .dotted => some .dotted
  | .opened => none
  | .complete => none

/-- Gives the last of some names a value in the table that the others lead to. -/
def defineAt (node : Node) : List String → Members → Option Members
  | [], _ => none
  | [name], members => define name node members
  | name :: path, members => do
    match find? name members with
    | none => return put name (.table .dotted (← defineAt node path [])) members
    | some (.table origin inner) =>
      let origin ← origin.entered (path.length == 1)
      return put name (.table origin (← defineAt node path inner)) members
    | some (.tables (inner :: earlier)) =>
      -- a list that headers opened takes no values itself, but the tables inside its last one do
      if path.length = 1 then none
      else return put name (.tables ((← defineAt node path inner) :: earlier)) members
    | some _ => none

/-! ## Headers -/

/-- Changes the table at the path of a header, which is made if need be. -/
def atHeader (change : Members → Option Members) : List String → Members → Option Members
  | [], members => change members
  | name :: path, members => do
    match find? name members with
    | none => return put name (.table .mentioned (← atHeader change path [])) members
    | some (.table .complete _) => none
    | some (.table origin inner) =>
      return put name (.table origin (← atHeader change path inner)) members
    | some (.tables (inner :: earlier)) =>
      return put name (.tables ((← atHeader change path inner) :: earlier)) members
    | some _ => none

/-- Opens a table. -/
def openTable (name : String) (members : Members) : Option Members :=
  match find? name members with
  | none => some (put name (.table .opened []) members)
  -- the headers of tables inside it may come first
  | some (.table .mentioned inner) => some (put name (.table .opened inner) members)
  | some _ => none

/-- Opens one more table of a list. -/
def openNext (name : String) (members : Members) : Option Members :=
  match find? name members with
  | none => some (put name (.tables [[]]) members)
  | some (.tables opened) => some (put name (.tables ([] :: opened)) members)
  | some _ => none

end OutputIndex.Toml
