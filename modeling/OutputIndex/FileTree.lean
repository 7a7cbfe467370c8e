import OutputIndex.Program

/-!
# Files in memory

A file tree is a file, or a directory of named trees.  Paths that do not begin with a separator
lead from the directory to work in, and two points lead up again.  A tree is a `Disk` whose every
change can be looked at.
-/

namespace OutputIndex

/-- A tree of files. -/
inductive FileTree where
  /-- A directory, with what it has under its names. -/
  | directory (entries : List (String × FileTree))
  | file (content : Bytes)
  /-- An empty file that keeps nothing. -/
  | void

namespace FileTree

/-- What a directory has under its names; a file has nothing. -/
def entries : FileTree → List (String × FileTree)
  | .directory entries => entries
  | _ => []

/-- The entries with another tree for a name. -/
def putEntry (name : String) (tree : FileTree) :
    List (String × FileTree) → List (String × FileTree)
  | [] => [(name, tree)]
  | (other, old) :: rest =>
    if other = name then (name, tree) :: rest else (other, old) :: putEntry name tree rest

/-- The tree with another tree in the place that some names lead to. -/
def put (new : FileTree) : List String → FileTree → FileTree
  | [], _ => new
  | name :: names, tree =>
    .directory
      (putEntry name (put new names ((tree.entries.lookup name).getD (.directory []))) tree.entries)

/-! ## Following paths -/

/-- The name of the directory to work in, which no path can say. -/
def workingName : String := ""

/-- Where a path leads. -/
structure Place where
  /-- The names on the way to it from the root. -/
  names : List String
  /-- What stands there, if anything does. -/
  node : Option FileTree
  /-- Whether the path says that it leads to a directory. -/
  isDirectory : Bool

/-- The number of bytes that a name can have. -/
def maxName : Nat := 255

/-- The number of bytes that a path can have. -/
def maxPath : Nat := 4095

/-- Follows some words of a path.  `way` has the directories below the root that lead to the
current one, the last one first.  All words but the last one have to lead to directories. -/
def follow (root : FileTree) : List (String × FileTree) → List String → Except FileError Place
  | way, [] => .ok ⟨(way.map (·.1)).reverse, some ((way.head?.map (·.2)).getD root), true⟩
  | way, word :: rest =>
    if word = "" ∨ word = "." then follow root way rest
    else if word = ".." then follow root way.tail rest
    else if maxName < word.utf8ByteSize then .error .nameTooLong
    else
      let current := (way.head?.map (·.2)).getD root
      let node := current.entries.lookup word
      let place (isDirectory : Bool) : Place :=
        ⟨(way.map (·.1)).reverse ++ [word], node, isDirectory⟩
      if rest.isEmpty then .ok (place false)
      else
        match node with
        | some (.directory entries) => follow root ((word, .directory entries) :: way) rest
        | some _ => .error .notDirectory
        | none =>
          -- nothing but separators stands behind the last name
          if rest.all (· == "") then .ok (place true) else .error .notFound

/-- Where a path leads. -/
def locate (root : FileTree) (path : String) : Except FileError Place :=
  if path.isEmpty then .error .notFound
  else if path.toList.contains (Char.ofNat 0) then .error .zeroByte
  else if maxPath < path.utf8ByteSize then .error .nameTooLong
  else
    let start := if path.startsWith "/" then [] else
      ((root.entries.lookup workingName).map fun tree => (workingName, tree)).toList
    follow root start (path.splitOn "/")

/-! ## The disk -/

/-- What the file at a path holds. -/
def read (root : FileTree) (path : String) : FileSource :=
  match locate root path with
  | .error cause => .unreadable cause
  | .ok place =>
    match place.node with
    | none => .unreadable .notFound
    | some (.directory _) => .unreadable .isDirectory
    | some (.file content) => .content content
    | some .void => .content []

/-- The tree with a file in it, if it can be put there. -/
def write? (path : String) (content : Bytes) (root : FileTree) : Option FileTree := do
  let place ← (locate root path).toOption
  match place.isDirectory, place.node with
  | false, none => some (put (.file content) place.names root)
  | false, some (.file _) => some (put (.file content) place.names root)
  | _, _ => none

/-- The tree with a directory in it, if nothing stands there. -/
def makeDirectory (path : String) (root : FileTree) : Except FileError FileTree := do
  let place ← locate root path
  match place.node with
  | none => return put (.directory []) place.names root
  | some _ => throw .exists

/-- A file tree as a disk. -/
def disk : Disk (StateM FileTree) where
  read path := return (← getThe FileTree).read path
  write path content := do
    match write? path content (← getThe FileTree) with
    | some root =>
      set root
      return true
    | none => return false
  makeDirectory path := do
    match makeDirectory path (← getThe FileTree) with
    | .ok root =>
      set root
      return .ok ()
    | .error cause => return .error cause

/-! ## Runs -/

/-- The tree with nothing in it but the directory to work in, and what every machine has: some
directories, and a file that is always empty. -/
def bare : FileTree :=
  .directory
    [(workingName, .directory []), ("dev", .directory [("null", .void)]), ("etc", .directory []),
     ("tmp", .directory [])]

/-- The tree with a file in it, and with the directories above it. -/
def addFile (root : FileTree) (path : String) (content : Bytes) : FileTree :=
  let add : StateM FileTree Unit := do
    if ← disk.makeParents path then discard (disk.write path content)
  (add.run root).2

/-- The tree that holds some files. -/
def ofFiles (files : List (String × Bytes)) : FileTree :=
  files.foldl (fun root (path, content) => root.addFile path content) bare

/-- The outcomes of some runs of the program, one after the other, on a file tree. -/
def runAll (root : FileTree) (runs : List (List String)) : List Outcome :=
  ((runs.mapM (Program.run disk)).run root).1

end FileTree

end OutputIndex
