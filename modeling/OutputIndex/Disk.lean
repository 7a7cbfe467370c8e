import OutputIndex.Bridge.Files
import OutputIndex.Path

/-!
# Disks

A disk has files and directories at paths.  The program works on any `Disk`, so that its runs can
be looked at on files in memory.
-/

namespace OutputIndex

/-- Where files lie. -/
structure Disk (m : Type → Type) where
  /-- What the file at a path holds. -/
  read : String → m FileSource
  /-- Puts a file into a directory that is there; says whether that was possible. -/
  write : String → Bytes → m Bool
  /-- Makes a directory inside one that is there. -/
  makeDirectory : String → m (Except FileError Unit)

namespace Disk

variable {m : Type → Type} [Monad m]

/-- Whether a path leads to a directory. -/
def isDirectory (disk : Disk m) (path : String) : m Bool := do
  return (← disk.read path) == .unreadable .isDirectory

/-- Makes the first of some directories, each of which lies in the next one, and those of the
others that are needed; says whether it is there then.  The empty path is always there. -/
def makeDirectories (disk : Disk m) : List String → m Bool
  | [] => return false
  | path :: above => do
    if path.isEmpty then return true
    else
      match ← disk.makeDirectory path with
      | .ok () => return true
      | .error .notFound =>
        if ← disk.makeDirectories above then
          match ← disk.makeDirectory path with
          | .ok () => return true
          | .error _ => disk.isDirectory path
        else return false
      | .error _ => disk.isDirectory path

/-- Makes the directories that a file at a path lies in; says whether they are there then. -/
def makeParents (disk : Disk m) (path : String) : m Bool :=
  match Path.parent? path with
  | none => return true
  | some parent => disk.makeDirectories (Path.ancestors parent)

end Disk

end OutputIndex
