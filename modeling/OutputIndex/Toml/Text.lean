/-!
# The text of a TOML document

The reader works on the characters that are left.  This file has what stands between the values,
which is blanks, comments and line ends, and how texts and names are written.  Control characters
stand nowhere but for the tab, and a carriage return only in front of a line feed.
-/

namespace OutputIndex.Toml

/-- The characters that are left. -/
abbrev Input := List Char

/-! ## Between the values -/

/-- The input without the byte order mark at its front. -/
def dropMark : Input → Input
  | '\ufeff' :: rest => rest
  | input => input

/-- Whether a character may stand in a comment, or in a text on one line. -/
def isPlain (c : Char) : Bool := c == '\t' || (0x20 ≤ c.toNat && c.toNat != 0x7f)

/-- Whether a character is a blank. -/
def isBlank (c : Char) : Bool := c == ' ' || c == '\t'

/-- The input without the blanks at its front. -/
def skipBlanks (input : Input) : Input := input.dropWhile isBlank

/-- The input without the comment at its front. -/
def skipComment : Input → Input
  | '#' :: rest => rest.dropWhile isPlain
  | input => input

/-- The input behind the line end at its front. -/
def dropLineEnd? : Input → Option Input
  | '\n' :: rest => some rest
  | '\r' :: '\n' :: rest => some rest
  | _ => none

/-- The input behind the end of the line, if nothing but a comment stands before it. -/
def lineEnd? (input : Input) : Option Input :=
  match skipComment (skipBlanks input) with
  | [] => some []
  | rest => dropLineEnd? rest

/-- The input without blanks, comments and line ends at its front; `inComment` says whether a
comment goes on there. -/
def skipLines (inComment : Bool) : Input → Input
  | '\n' :: rest => skipLines false rest
  | '\r' :: '\n' :: rest => skipLines false rest
  | c :: rest =>
    if inComment then if isPlain c then skipLines true rest else c :: rest
    else if isBlank c then skipLines false rest
    else if c = '#' then skipLines true rest
    else c :: rest
  | [] => []

/-- The input without blanks, comments and line ends at its front. -/
def skipSpace (input : Input) : Input := skipLines false input

/-! ## Escapes -/

/-- The value of some hexadecimal digits. -/
def hexValue? (digits : List Char) : Option Nat :=
  digits.foldlM (fun value c =>
    if c.isDigit then some (16 * value + (c.toNat - 48))
    else if 'a' ≤ c ∧ c ≤ 'f' then some (16 * value + (c.toNat - 87))
    else if 'A' ≤ c ∧ c ≤ 'F' then some (16 * value + (c.toNat - 55))
    else none) 0

/-- The character that `count` hexadecimal digits at the front of the input name. -/
def codePoint? (count : Nat) (input : Input) : Option (Char × Input) := do
  let digits := input.take count
  if digits.length ≠ count then none
  else
    let value ← hexValue? digits
    if value.isValidChar then some (Char.ofNat value, input.drop count) else none

/-- The character that an escape stands for. -/
def escape? : Input → Option (Char × Input)
  | 'b' :: rest => some (Char.ofNat 8, rest)
  | 't' :: rest => some ('\t', rest)
  | 'n' :: rest => some ('\n', rest)
  | 'f' :: rest => some (Char.ofNat 12, rest)
  | 'r' :: rest => some ('\r', rest)
  | 'e' :: rest => some (Char.ofNat 27, rest)
  | '"' :: rest => some ('"', rest)
  | '\\' :: rest => some ('\\', rest)
  | 'x' :: rest => codePoint? 2 rest
  | 'u' :: rest => codePoint? 4 rest
  | 'U' :: rest => codePoint? 8 rest
  | _ => none

/-! ## Texts -/

/-- Reads a text with escapes up to its quote. -/
def basicText : Nat → Input → Option (List Char × Input)
  | 0, _ => none
  | fuel + 1, input =>
    match input with
    | '"' :: rest => some ([], rest)
    | '\\' :: rest => do
      let (c, rest) ← escape? rest
      let (text, rest) ← basicText fuel rest
      return (c :: text, rest)
    | c :: rest => do
      if !isPlain c then none
      else
        let (text, rest) ← basicText fuel rest
        return (c :: text, rest)
    | [] => none

/-- Reads a text without escapes up to its quote. -/
def literalText (input : Input) : Option (List Char × Input) :=
  let text := input.takeWhile (· != '\'')
  match input.dropWhile (· != '\'') with
  | _ :: rest => if text.all isPlain then some (text, rest) else none
  | [] => none

/-- The input without blanks and line ends at its front. -/
def skipGap : Input → Input
  | '\r' :: '\n' :: rest => skipGap rest
  | c :: rest => if isBlank c || c == '\n' then skipGap rest else c :: rest
  | [] => []

/-- Reads a text of several lines up to its three quotes; up to two more quotes belong to it.  An
escaped line end is left out with all blanks and line ends behind it. -/
def linesText (quote : Char) (escapes : Bool) : Nat → Input → Option (List Char × Input)
  | 0, _ => none
  | fuel + 1, input =>
    match input with
    | [] => none
    | c :: rest =>
      if c = quote ∧ rest.take 2 = [quote, quote] then
        -- the last three quotes end the text, so quotes before them belong to it
        let more := (rest.drop 2).takeWhile (· == quote)
        if more.length ≤ 2 then some (more, (rest.drop 2).drop more.length) else none
      else if c = '\\' ∧ escapes then
        match escape? rest with
        | some (c, rest) => do
          let (text, rest) ← linesText quote escapes fuel rest
          return (c :: text, rest)
        | none => do
          -- no escape, so the line has to end here
          let rest ← dropLineEnd? (skipBlanks rest)
          linesText quote escapes fuel (skipGap rest)
      else if isPlain c ∨ c = '\n' ∨ (c = '\r' ∧ rest.head? = some '\n') then do
        let (text, rest) ← linesText quote escapes fuel rest
        return (c :: text, rest)
      else none

/-- Reads a text of several lines behind the quotes at its front; a line end there is left out. -/
def readLinesText (quote : Char) (escapes : Bool) (input : Input) : Option (String × Input) := do
  let input := (dropLineEnd? input).getD input
  let (text, rest) ← linesText quote escapes (input.length + 1) input
  return (.ofList text, rest)

/-- Reads a text, on one line or on several ones; nothing if no quote is at the front. -/
def readText : Input → Option (String × Input)
  | '"' :: '"' :: '"' :: rest => readLinesText '"' true rest
  | '\'' :: '\'' :: '\'' :: rest => readLinesText '\'' false rest
  | '"' :: rest => (basicText (rest.length + 1) rest).map fun (text, rest) => (.ofList text, rest)
  | '\'' :: rest => (literalText rest).map fun (text, rest) => (.ofList text, rest)
  | _ => none

/-! ## Names -/

/-- Whether a character can stand in a name without quotes. -/
def isBare (c : Char) : Bool := c.isAlphanum || c == '_' || c == '-'

/-- Reads one name. -/
def readName (input : Input) : Option (String × Input) :=
  match input with
  | '"' :: rest => (basicText (rest.length + 1) rest).map fun (text, rest) => (.ofList text, rest)
  | '\'' :: rest => (literalText rest).map fun (text, rest) => (.ofList text, rest)
  | input =>
    let name := input.takeWhile isBare
    if name.isEmpty then none else some (.ofList name, input.dropWhile isBare)

/-- Reads names with points between them, of which there are at most `count`. -/
def readNames : Nat → Input → Option (List String × Input)
  | 0, _ => none
  | count + 1, input => do
    let (name, rest) ← readName (skipBlanks input)
    match skipBlanks rest with
    | '.' :: rest => do
      let (names, rest) ← readNames count rest
      return (name :: names, rest)
    | rest => return ([name], rest)

/-- The number of names that a path can have, and of lists and tables that can stand inside one
another. -/
def maxDepth : Nat := 80

/-- Reads a path of names. -/
def readPath (input : Input) : Option (List String × Input) := readNames maxDepth input

end OutputIndex.Toml
