import OutputIndex.Bytes
import OutputIndex.Hex
import OutputIndex.Json.Basic

/-!
# Reading JSON text

The reader takes the bytes of a text and is strict: no comments, no trailing commas, no leading
zeros, no control characters inside text literals, and nothing but blanks around the document.  A
text literal whose escapes or bytes denote no characters is well formed but `Json.unreadable`, so
that it does no harm where it is skipped.
-/

namespace OutputIndex.Json

/-- Blanks between tokens: space, line feed, carriage return and tab. -/
def isBlank (byte : UInt8) : Bool := byte == 0x20 || byte == 0x0a || byte == 0x0d || byte == 0x09

/-- The text without the blanks at its front. -/
def skipBlanks (input : Bytes) : Bytes := input.dropWhile isBlank

/-! ## Text literals -/

/-- A piece of a text literal: a byte that stands for itself, or a 16-bit unit written as an
escape of four digits. -/
inductive Piece where
  /-- A byte of the text's UTF-8 form. -/
  | byte (value : UInt8)
  /-- A 16-bit unit. -/
  | unit (value : Nat)

/-- The value of four hexadecimal digits. -/
def fourDigits? (a b c d : UInt8) : Option Nat := do
  let digit (byte : UInt8) := Hex.value? (Char.ofNat byte.toNat)
  return 4096 * (← digit a) + 256 * (← digit b) + 16 * (← digit c) + (← digit d)

/-- The byte that an escape of one character stands for. -/
def escaped? (byte : UInt8) : Option UInt8 :=
  if byte == 0x22 || byte == 0x5c || byte == 0x2f then some byte
  else if byte == 0x62 then some 0x08
  else if byte == 0x66 then some 0x0c
  else if byte == 0x6e then some 0x0a
  else if byte == 0x72 then some 0x0d
  else if byte == 0x74 then some 0x09
  else none

/-- Reads the pieces of a text literal up to the closing quote. -/
def readPieces : Bytes → Option (List Piece × Bytes)
  | [] => none
  | 0x22 :: rest => some ([], rest)
  | 0x5c :: 0x75 :: a :: b :: c :: d :: rest => do
    let value ← fourDigits? a b c d
    let (pieces, rest) ← readPieces rest
    return (.unit value :: pieces, rest)
  | 0x5c :: byte :: rest => do
    let value ← escaped? byte
    let (pieces, rest) ← readPieces rest
    return (.byte value :: pieces, rest)
  | byte :: rest =>
    -- a backslash that comes here begins no escape
    if byte < 0x20 || byte == 0x5c then none
    else do
      let (pieces, rest) ← readPieces rest
      return (.byte byte :: pieces, rest)

/-- The UTF-8 form of the code point of a value, if it is one. -/
def codePoint? (value : Nat) : Option Bytes :=
  if h : value.isValidChar then some (String.utf8EncodeChar (Char.ofNatAux value h)) else none

/-- The bytes that the pieces stand for.  A unit of the high surrogates must be followed by one of
the low surrogates. -/
def assemble : List Piece → Option Bytes
  | [] => some []
  | .byte value :: rest => do return value :: (← assemble rest)
  | .unit high :: .unit low :: rest =>
    if 0xd800 ≤ high ∧ high < 0xdc00 ∧ 0xdc00 ≤ low ∧ low < 0xe000 then do
      return (← codePoint? (0x10000 + 0x400 * (high - 0xd800) + (low - 0xdc00)))
        ++ (← assemble rest)
    else do
      -- both units stand on their own, where a surrogate is no code point
      return (← codePoint? high) ++ (← assemble (.unit low :: rest))
  | .unit value :: rest => do return (← codePoint? value) ++ (← assemble rest)

/-- The text of a literal, if its pieces denote one. -/
def assembleText (pieces : List Piece) : Option String := do
  String.fromUTF8? ⟨(← assemble pieces).toArray⟩

/-! ## Numbers -/

/-- Whether a byte is a decimal digit. -/
def isDigit (byte : UInt8) : Bool := 0x30 ≤ byte && byte ≤ 0x39

/-- The value of decimal digits. -/
def ofDigits (digits : Bytes) : Nat :=
  digits.foldl (fun value digit => 10 * value + (digit.toNat - 0x30)) 0

/-- The fraction and exponent at the front of a text, and the rest.  Each may be missing, but one
that is begun needs a digit. -/
def readTail (input : Bytes) : Option (Bytes × Bytes) := do
  let (fraction, input) ←
    match input with
    | 0x2e :: rest =>
      let digits := rest.takeWhile isDigit
      if digits.isEmpty then none else some (0x2e :: digits, rest.dropWhile isDigit)
    | _ => some ([], input)
  let exponent (mark : Bytes) (rest : Bytes) : Option (Bytes × Bytes) :=
    let digits := rest.takeWhile isDigit
    if digits.isEmpty then none else some (fraction ++ mark ++ digits, rest.dropWhile isDigit)
  match input with
  | e :: sign :: rest =>
    if e == 0x65 || e == 0x45 then
      if sign == 0x2b || sign == 0x2d then exponent [e, sign] rest
      else exponent [e] (sign :: rest)
    else some (fraction, input)
  | [e] => if e == 0x65 || e == 0x45 then none else some (fraction, input)
  | [] => some (fraction, input)

/-- Reads a number without sign. -/
def readUnsigned (input : Bytes) : Option (Bytes × Bytes × Bytes) := do
  let digits := input.takeWhile isDigit
  if digits.isEmpty || (digits.head? == some 0x30 && digits.length != 1) then none
  else
    let (tail, rest) ← readTail (input.dropWhile isDigit)
    return (digits, tail, rest)

/-- The text of ASCII bytes. -/
def asciiText (bytes : Bytes) : String :=
  String.ofList (bytes.map fun byte => Char.ofNat byte.toNat)

/-- Reads a number. -/
def readNumber : Bytes → Option (Json × Bytes)
  | 0x2d :: input => do
    -- negative numbers keep their text, as nothing in the index is negative
    let (digits, tail, rest) ← readUnsigned input
    return (.otherNumber (asciiText (0x2d :: digits ++ tail)), rest)
  | input => do
    let (digits, tail, rest) ← readUnsigned input
    if tail.isEmpty then return (.natural (ofDigits digits), rest)
    else return (.otherNumber (asciiText (digits ++ tail)), rest)

/-! ## Documents -/

mutual

/-- Reads a document, with at most `fuel` nested steps. -/
def readValue : Nat → Bytes → Option (Json × Bytes)
  | 0, _ => none
  | fuel + 1, input =>
    match skipBlanks input with
    | 0x6e :: 0x75 :: 0x6c :: 0x6c :: rest => some (.null, rest)
    | 0x74 :: 0x72 :: 0x75 :: 0x65 :: rest => some (.bool true, rest)
    | 0x66 :: 0x61 :: 0x6c :: 0x73 :: 0x65 :: rest => some (.bool false, rest)
    | 0x22 :: rest => do
      let (pieces, rest) ← readPieces rest
      -- the literal ends where its quote is, whether it denotes a text or not
      return ((assembleText pieces).elim .unreadable .text, rest)
    | 0x5b :: rest =>
      match skipBlanks rest with
      | 0x5d :: rest => some (.array [], rest)
      | rest => do
        let (elements, rest) ← readElements fuel rest
        return (.array elements, rest)
    | 0x7b :: rest =>
      match skipBlanks rest with
      | 0x7d :: rest => some (.object [], rest)
      | rest => do
        let (members, rest) ← readMembers fuel rest
        return (.object members, rest)
    | rest => readNumber rest

/-- Reads the elements of an array that has at least one more. -/
def readElements : Nat → Bytes → Option (List Json × Bytes)
  | 0, _ => none
  | fuel + 1, input => do
    let (element, rest) ← readValue fuel input
    match skipBlanks rest with
    | 0x5d :: rest => return ([element], rest)
    | 0x2c :: rest =>
      let (elements, rest) ← readElements fuel rest
      return (element :: elements, rest)
    | _ => none

/-- Reads the members of an object that has at least one more. -/
def readMembers : Nat → Bytes → Option (List (Option String × Json) × Bytes)
  | 0, _ => none
  | fuel + 1, input =>
    match skipBlanks input with
    | 0x22 :: rest => do
      let (pieces, rest) ← readPieces rest
      match skipBlanks rest with
      | 0x3a :: rest =>
        let (value, rest) ← readValue fuel rest
        let member := (assembleText pieces, value)
        match skipBlanks rest with
        | 0x7d :: rest => return ([member], rest)
        | 0x2c :: rest =>
          let (members, rest) ← readMembers fuel rest
          return (member :: members, rest)
        | _ => none
      | _ => none
    | _ => none

end

/-- The document that the bytes of a text are.  Every step but the one into the first element of a
list takes a byte away, so twice the number of bytes are steps enough. -/
def ofBytes? (input : Bytes) : Option Json := do
  let (json, rest) ← readValue (2 * input.length + 2) input
  if (skipBlanks rest).isEmpty then some json else none

/-- The document that a text is. -/
def ofText? (input : String) : Option Json := ofBytes? input.toUTF8.toList

end OutputIndex.Json
