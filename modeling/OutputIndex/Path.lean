/-!
# Paths of files

A path is a text of names with separators between them.  Separators at its end say nothing about
its last name, and neither do single points behind a separator, which lead nowhere.
-/

namespace OutputIndex.Path

/-- A reversed text without the separators at its front, and without points that lead nowhere. -/
def trim : List Char → List Char
  | '/' :: rest => trim rest
  | '.' :: '/' :: rest => trim rest
  | text => text

/-- The text in front of the last name of a path, and that name; nothing if the path has no name. -/
def split? (path : String) : Option (List Char × List Char) :=
  let text := trim path.toList.reverse
  let name := text.takeWhile (· != '/')
  if name.isEmpty then none else some ((text.drop name.length).reverse, name.reverse)

/-- The path that one lies in: the empty path for a single name, and nothing for a path without a
name. -/
def parent? (path : String) : Option String :=
  (split? path).map fun (front, _) =>
    let parent := (trim front.reverse).reverse
    if parent.isEmpty then String.ofList (front.take 1) else String.ofList parent

/-- The path, the path that it lies in, and so on, at most `fuel` ones. -/
def chain : Nat → String → List String
  | 0, _ => []
  | fuel + 1, path => path :: ((parent? path).map (chain fuel)).getD []

/-- The path, the path that it lies in, and so on. -/
def ancestors (path : String) : List String := chain (path.length + 1) path

/-- A name without its extension, and the extension: what stands behind the last point, if
something stands in front of it. -/
def splitName (name : List Char) : List Char × Option (List Char) :=
  let extension := (name.reverse.takeWhile (· != '.')).reverse
  let stem := name.take (name.length - extension.length - 1)
  if stem.isEmpty || name = ['.', '.'] then (name, none) else (stem, some extension)

/-- Whether a name is that of a file, and does not lead to the same or to an upper directory. -/
def isFileName (name : List Char) : Bool := name != ['.'] && name != ['.', '.']

/-- The extension of the last name of a path. -/
def extension? (path : String) : Option String := do
  let (_, name) ← split? path
  if isFileName name then (splitName name).2.map String.ofList else none

/-- The path with another extension, if its last name is that of a file. -/
def withExtension (path extension : String) : String :=
  match split? path with
  | some (front, name) =>
    if isFileName name then
      String.ofList (front ++ (splitName name).1) ++ "." ++ extension
    else path
  | none => path

end OutputIndex.Path
