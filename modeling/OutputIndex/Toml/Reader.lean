import OutputIndex.Toml.Number
import OutputIndex.Toml.Time
import OutputIndex.Toml.Tree

/-!
# Reading TOML documents

A TOML text is read as a document: a table of the values that it gives.  Dates and times become
texts.  Lists and tables between braces can be on several lines, with comments, and have a comma
behind the last element.
-/

namespace OutputIndex.Toml

/-! ## Words -/

/-- Whether a character belongs to a word. -/
def isWord (c : Char) : Bool := isBare c || c == '+' || c == '.' || c == ':'

/-- A word that is no text: a truth value, a number, a date or a time. -/
def word? (word : List Char) : Option Document :=
  if word = "true".toList then some (.truth true)
  else if word = "false".toList then some (.truth false)
  else if Moment.isBegun word then (Moment.ofChars? word).map fun moment => .text moment.text
  else number? word

/-- Reads a word.  A date and a time with one space between them are a single word. -/
def readWord (input : Input) : Option (Document × Input) := do
  let word := input.takeWhile isWord
  let rest := input.dropWhile isWord
  -- only a date that is the whole word is joined to what stands behind the space
  let time :=
    match rest with
    | ' ' :: next => if (Date.read word).any (·.2.isEmpty) then next.takeWhile isWord else []
    | _ => []
  if time.isEmpty then return (← word? word, rest)
  else return (← word? (word ++ ' ' :: time), (rest.drop 1).drop time.length)

/-! ## Values -/

mutual

/-- Reads a value, in which at most `depth` lists and tables stand inside one another, in at most
`fuel` nested steps. -/
def readValue : Nat → Nat → Input → Option (Node × Input)
  | 0, _, _ => none
  | fuel + 1, depth, input =>
    match input with
    | '"' :: _ => do
      let (text, rest) ← readText input
      return (.value (.text text), rest)
    | '\'' :: _ => do
      let (text, rest) ← readText input
      return (.value (.text text), rest)
    | '[' :: rest => do
      if depth = 0 then none
      else
        let (elements, rest) ← readElements fuel (depth - 1) rest
        return (.value (.list elements), rest)
    | '\x7b' :: rest => do
      if depth = 0 then none
      else
        let (members, rest) ← readMembers fuel (depth - 1) rest []
        return (.table .complete members, rest)
    | input => do
      let (document, rest) ← readWord input
      return (.value document, rest)

/-- Reads the elements of a list up to its end. -/
def readElements : Nat → Nat → Input → Option (List Document × Input)
  | 0, _, _ => none
  | fuel + 1, depth, input =>
    match skipSpace input with
    | ']' :: rest => some ([], rest)
    | input => do
      let (node, rest) ← readValue fuel depth input
      match skipSpace rest with
      | ',' :: rest => do
        let (elements, rest) ← readElements fuel depth rest
        return (node.toDocument :: elements, rest)
      | ']' :: rest => return ([node.toDocument], rest)
      | _ => none

/-- Reads the members of a table between braces up to its end. -/
def readMembers : Nat → Nat → Input → Members → Option (Members × Input)
  | 0, _, _, _ => none
  | fuel + 1, depth, input, members =>
    match skipSpace input with
    | '\x7d' :: rest => some (members, rest)
    | input => do
      let (members, rest) ← readMember fuel depth input members
      match skipSpace rest with
      | ',' :: rest => readMembers fuel depth rest members
      | '\x7d' :: rest => return (members, rest)
      | _ => none

/-- Reads a name and its value into a table between braces. -/
def readMember : Nat → Nat → Input → Members → Option (Members × Input)
  | 0, _, _, _ => none
  | fuel + 1, depth, input, members => do
    let (path, rest) ← readPath input
    match skipSpace rest with
    | '=' :: rest => do
      let (node, rest) ← readValue fuel depth (skipSpace rest)
      return (← defineAt node path members, rest)
    | _ => none

end

/-! ## Documents -/

/-- Reads the header of a table: its path, and whether it is one of a list. -/
def readHeader : Input → Option (List String × Bool × Input)
  | '[' :: '[' :: rest => do
    let (path, rest) ← readPath rest
    match rest with
    | ']' :: ']' :: rest => return (path, true, rest)
    | _ => none
  | '[' :: rest => do
    let (path, rest) ← readPath rest
    match rest with
    | ']' :: rest => return (path, false, rest)
    | _ => none
  | _ => none

/-- Reads the lines of a document, of which there are at most `fuel`; `table` is the open table.  A
value takes at most two nested steps for each of its characters. -/
def readLines : Nat → List String → Input → Members → Option Members
  | 0, _, _, _ => none
  | fuel + 1, table, input, document =>
    match skipSpace input with
    | [] => some document
    | '[' :: rest => do
      let (path, isList, rest) ← readHeader ('[' :: rest)
      let name ← path.getLast?
      -- the header opens its last name in the table that the others lead to
      let change := if isList then openNext name else openTable name
      let document ← atHeader change path.dropLast document
      readLines fuel path (← lineEnd? rest) document
    | input => do
      let (path, rest) ← readPath input
      match skipBlanks rest with
      | '=' :: rest => do
        let (node, rest) ← readValue (2 * rest.length + 2) maxDepth (skipBlanks rest)
        let document ← atHeader (defineAt node path) table document
        readLines fuel table (← lineEnd? rest) document
      | _ => none

/-- The document that a text is. -/
def ofText? (text : List Char) : Option Document := do
  let input := dropMark text
  let members ← readLines (input.length + 1) [] input []
  return (Node.table .opened members).toDocument

end OutputIndex.Toml
