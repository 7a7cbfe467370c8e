import OutputIndex.Program

/-!
# The command line

The program run on the files of the machine.
-/

namespace OutputIndex

/-- The cause that the machine reports. -/
def fileError : IO.Error → FileError
  | .noFileOrDirectory _ _ _ => .notFound
  | .alreadyExists _ _ _ => .exists
  | .inappropriateType _ code _ => if code = 21 then .isDirectory else .notDirectory
  | error => .refused (toString error)

/-- The files of the machine. -/
def machineDisk : Disk IO where
  read path := do
    try
      return .content (← IO.FS.readBinFile path).toList
    catch error => return .unreadable (fileError error)
  write path content := do
    try
      IO.FS.writeBinFile path ⟨content.toArray⟩
      return true
    catch _ => return false
  makeDirectory path := do
    try
      IO.FS.createDir path
      return .ok ()
    catch error => return .error (fileError error)

end OutputIndex

/-- Runs the program with the words of its command line. -/
def main (arguments : List String) : IO UInt32 := do
  let outcome ← OutputIndex.Program.run OutputIndex.machineDisk arguments
  match outcome.text? with
  | some text => IO.print text
  | none => pure ()
  return outcome.exitCode.toUInt32
