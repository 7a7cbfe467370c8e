import OutputIndex.Document

/-!
# Documents over documents

A document can be put over another one, member by member.  The name of a member of a whole document
can be a path into the document below: names with points between them, and numbers of elements in
brackets.  What is in the way of a path gives way to the table or list that it leads through.
-/

namespace OutputIndex.Document

/-! ## Merging -/

/-- The members of a table; of what is no table there are none. -/
def members : Document → List (String × Document)
  | .table members => members
  | _ => []

/-- The elements of a list; of what is no list there are none. -/
def elements : Document → List Document
  | .list elements => elements
  | _ => []

/-- Changes the member of a name, which is missing if there is none. -/
def modifyMember (name : String) (change : Document → Document) :
    List (String × Document) → List (String × Document)
  | [] => [(name, change .missing)]
  | (other, old) :: rest =>
    if other = name then (other, change old) :: rest
    else (other, old) :: modifyMember name change rest

mutual

/-- A document over another one: tables are joined, and of other values the upper one stands. -/
def onto (base : Document) : Document → Document
  | .table upper => .table (membersOnto base.members upper)
  | upper => upper

/-- The members of a table over those of another one. -/
def membersOnto (base : List (String × Document)) :
    List (String × Document) → List (String × Document)
  | [] => base
  | (name, value) :: rest => membersOnto (modifyMember name (onto · value) base) rest

end

/-! ## Paths -/

/-- One step of a path into a document. -/
inductive Step where
  /-- To the member of a table. -/
  | member (name : String)
  /-- To the element of a list; a negative number counts from its end. -/
  | element (index : Int)
deriving DecidableEq

/-- Whether a character can stand in a name of a path. -/
def isPathChar (c : Char) : Bool := c.isAlphanum || c == '_' || c == '-'

/-- Whether a character is a blank. -/
def isBlank (c : Char) : Bool := c == ' ' || c == '\t'

/-- The number of an element, in 64 bits, and what stands behind the bracket that closes it. -/
def readIndex (input : List Char) : Option (Int × List Char) :=
  let (negative, rest) :=
    match input.dropWhile isBlank with
    | '-' :: rest => (true, rest)
    | rest => (false, rest)
  let digits := rest.takeWhile Char.isDigit
  let value := Digits.value digits
  let isInRange := if negative then value ≤ UInt64.size / 2 else value < UInt64.size / 2
  match (rest.dropWhile Char.isDigit).dropWhile isBlank with
  | ']' :: rest =>
    if digits.isEmpty ∨ ¬isInRange then none else some (if negative then -value else value, rest)
  | _ => none

/-- Reads the steps behind the first name of a path, of which there are at most `fuel`. -/
def readSteps : Nat → List Char → Option (List Step)
  | _, [] => some []
  | 0, _ => none
  | fuel + 1, '.' :: rest => do
    let name := rest.takeWhile isPathChar
    if name.isEmpty then none
    else return .member (.ofList name) :: (← readSteps fuel (rest.dropWhile isPathChar))
  | fuel + 1, '[' :: rest => do
    let (index, rest) ← readIndex rest
    return .element index :: (← readSteps fuel rest)
  | _, _ => none

/-- The path that the name of a member of a whole document is; a name of another form is a path of
one step. -/
def pathOf (name : String) : List Step :=
  let input := name.toList
  let first := input.takeWhile isPathChar
  if first.isEmpty then [.member name]
  else
    match readSteps input.length (input.dropWhile isPathChar) with
    | some steps => .member (.ofList first) :: steps
    | none => [.member name]

/-- Changes an element of a list, which is made long enough, by missing values, to have it. -/
def modifyElement (index : Int) (change : Document → Document) (elements : List Document) :
    List Document :=
  let length : Int := elements.length
  let (position, elements) : Nat × List Document :=
    if 0 ≤ index then
      (index.toNat, elements ++ List.replicate (index.toNat + 1 - elements.length) .missing)
    else if 0 ≤ length + index then ((length + index).toNat, elements)
    else (0, List.replicate (-(length + index)).toNat .missing ++ elements)
  elements.modify position change

/-- Puts a document over what a path leads to. -/
def putAt (value : Document) : List Step → Document → Document
  | [], base => onto base value
  | .member name :: path, base => .table (modifyMember name (putAt value path) base.members)
  | .element index :: path, base => .list (modifyElement index (putAt value path) base.elements)

/-- The number of elements that a list can be made to have. -/
def maxElements : Nat := 1 <<< 22

/-- Whether a list can be made long enough for a step. -/
def Step.isHeld : Step → Bool
  | .member _ => true
  | .element index => index.natAbs < maxElements

/-- A member of a whole document over what the earlier ones say. -/
def overlayMember (base : Document) (name : String) (value : Document) : Option Document :=
  let path := pathOf name
  if path.all Step.isHeld then some (putAt value path base) else none

/-- A whole document, which is a table, over what the earlier ones say. -/
def overlay (base : Document) : Document → Option Document
  | .table upper => upper.foldlM (fun base (name, value) => overlayMember base name value) base
  | _ => none

end OutputIndex.Document
