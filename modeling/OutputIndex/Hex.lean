import OutputIndex.Bytes

/-!
# Hexadecimal text

Byte strings are shown as two hexadecimal digits a byte.  Lower case is written, either case is
read.  The main statement, `decode_encode`, says that reading undoes writing.

Reading has three faults, and they are looked for in this order: an odd number of digits, a wrong
number of digits (only where a length is prescribed), and a character that is no digit.  Positions
and lengths count the bytes of the text's UTF-8 form.
-/

namespace OutputIndex

/-- Why a text is not the hexadecimal form of a byte string. -/
inductive HexError where
  /-- The text has an odd number of bytes. -/
  | oddLength
  /-- The text does not have the prescribed length. -/
  | wrongLength
  /-- The byte at the position is no hexadecimal digit. -/
  | invalidCharacter (byte : UInt8) (position : Nat)
deriving DecidableEq

namespace Hex

/-- The digit of a value below sixteen. -/
def digit (value : Nat) : Char :=
  if value < 10 then Char.ofNat (48 + value) else Char.ofNat (87 + value)

/-- The value of a hexadecimal digit of either case. -/
def value? (c : Char) : Option Nat :=
  if '0' ≤ c ∧ c ≤ '9' then some (c.toNat - 48)
  else if 'a' ≤ c ∧ c ≤ 'f' then some (c.toNat - 87)
  else if 'A' ≤ c ∧ c ≤ 'F' then some (c.toNat - 55)
  else none

/-- The two digits of a byte, the high one first. -/
def pair (byte : UInt8) : List Char := [digit (byte.toNat / 16), digit (byte.toNat % 16)]

/-- The digits of a byte string. -/
def digits (bytes : Bytes) : List Char := bytes.flatMap pair

/-- The hexadecimal text of a byte string, in lower case. -/
def encode (bytes : Bytes) : String := String.ofList (digits bytes)

/-- The number of bytes that a text takes in UTF-8. -/
def byteCount : List Char → Nat
  | [] => 0
  | c :: rest => c.utf8Size + byteCount rest

/-- The first byte of a character's UTF-8 form. -/
def leadByte (c : Char) : UInt8 := ((String.utf8EncodeChar c).head?).getD 0

/-- Reads digits from `position` on.  Every character before a fault is a digit, so its position
in bytes is its position in characters. -/
def readDigits (position : Nat) : List Char → Except HexError Bytes
  | high :: low :: rest =>
    match value? high, value? low with
    | none, _ => .error (.invalidCharacter (leadByte high) position)
    | some _, none => .error (.invalidCharacter (leadByte low) (position + 1))
    | some h, some l => do
      let bytes ← readDigits (position + 2) rest
      return UInt8.ofNat (16 * h + l) :: bytes
  | [last] => .error (.invalidCharacter (leadByte last) position)
  | [] => .ok []

/-- Reads a text of any even number of digits. -/
def decodeChars (text : List Char) : Except HexError Bytes :=
  if byteCount text % 2 = 1 then .error .oddLength else readDigits 0 text

/-- Reads a text of any even number of digits. -/
def decode (text : String) : Except HexError Bytes := decodeChars text.toList

/-- Reads the digits of exactly `n` bytes. -/
def decodeFixed (n : Nat) (text : List Char) : Except HexError (FixedBytes n) :=
  if byteCount text % 2 = 1 then .error .oddLength
  else if byteCount text / 2 ≠ n then .error .wrongLength
  else do
    let bytes ← readDigits 0 text
    match FixedBytes.ofList? bytes with
    | some fixed => return fixed
    | none => .error .wrongLength

/-- The text without the marker `0x` that may stand before its digits. -/
def dropMarker : List Char → List Char
  | '0' :: 'x' :: rest => rest
  | text => text

/-! ## Reading undoes writing -/

theorem value?_digit {v : Nat} (h : v < 16) : value? (digit v) = some v := by
  have : ∀ n : Fin 16, value? (digit n.val) = some n.val := by decide
  exact this ⟨v, h⟩

theorem utf8Size_digit {v : Nat} (h : v < 16) : (digit v).utf8Size = 1 := by
  have : ∀ n : Fin 16, (digit n.val).utf8Size = 1 := by decide
  exact this ⟨v, h⟩

theorem toList_encode (bytes : Bytes) : (encode bytes).toList = digits bytes :=
  String.toList_ofList

/-- Every digit of a byte string is the digit of a value below sixteen. -/
theorem exists_of_mem_digits {bytes : Bytes} {c : Char} (h : c ∈ digits bytes) :
    ∃ v < 16, c = digit v := by
  obtain ⟨byte, -, hc⟩ := List.mem_flatMap.1 h
  have hbyte := byte.toNat_lt
  have hpair : c = digit (byte.toNat / 16) ∨ c = digit (byte.toNat % 16) := by
    simpa [pair] using hc
  rcases hpair with rfl | rfl
  · exact ⟨byte.toNat / 16, by omega, rfl⟩
  · exact ⟨byte.toNat % 16, by omega, rfl⟩

/-- There is no marker before a text that consists of digits, for its second character is none. -/
theorem dropMarker_of_value? {text : List Char} (h : ∀ c ∈ text, (value? c).isSome = true) :
    dropMarker text = text := by
  unfold dropMarker
  split
  · have hx := h 'x' (List.mem_cons_of_mem _ List.mem_cons_self)
    simp [value?] at hx
  · rfl

theorem dropMarker_digits (bytes : Bytes) : dropMarker (digits bytes) = digits bytes := by
  refine dropMarker_of_value? fun c hc => ?_
  obtain ⟨v, hv, rfl⟩ := exists_of_mem_digits hc
  rw [value?_digit hv]
  rfl

theorem byteCount_digits (bytes : Bytes) : byteCount (digits bytes) = 2 * bytes.length := by
  induction bytes with
  | nil => rfl
  | cons byte rest ih =>
    have := byte.toNat_lt
    have hd := utf8Size_digit (v := byte.toNat / 16) (by omega)
    have hm := utf8Size_digit (v := byte.toNat % 16) (by omega)
    simp only [digits] at ih
    simp only [digits, pair, List.flatMap_cons, List.cons_append, List.nil_append, byteCount, hd,
      hm, ih, List.length_cons]
    omega

theorem readDigits_digits (bytes : Bytes) (position : Nat) :
    readDigits position (digits bytes) = .ok bytes := by
  induction bytes generalizing position with
  | nil => rfl
  | cons byte rest ih =>
    have := byte.toNat_lt
    have hd := value?_digit (v := byte.toNat / 16) (by omega)
    have hm := value?_digit (v := byte.toNat % 16) (by omega)
    have hbyte : UInt8.ofNat (16 * (byte.toNat / 16) + byte.toNat % 16) = byte := by
      rw [show 16 * (byte.toNat / 16) + byte.toNat % 16 = byte.toNat by omega, UInt8.ofNat_toNat]
    simp only [digits] at ih
    simp [digits, pair, readDigits, hd, hm, ih, hbyte, bind, Except.bind, pure, Except.pure]

theorem decodeChars_digits (bytes : Bytes) : decodeChars (digits bytes) = .ok bytes := by
  simp [decodeChars, byteCount_digits, readDigits_digits]

theorem decode_encode (bytes : Bytes) : decode (encode bytes) = .ok bytes := by
  simp [decode, encode, decodeChars_digits]

theorem decodeFixed_digits {n : Nat} (bytes : FixedBytes n) :
    decodeFixed n (digits bytes.toList) = .ok bytes := by
  simp [decodeFixed, byteCount_digits, bytes.length_eq, readDigits_digits, bind, Except.bind,
    pure, Except.pure]

end Hex

/-! ## Wording -/

/-- A byte shown as the Latin-1 character it stands for, between single quotes.  Quotes,
backslashes, and characters without a glyph of their own are escaped. -/
def quotedByte (byte : UInt8) : String :=
  let c := Char.ofNat byte.toNat
  let inner :=
    if c = '\'' then "\\'"
    else if c = '\\' then "\\\\"
    else if byte = 0 then "\\0"
    else if byte = 9 then "\\t"
    else if byte = 10 then "\\n"
    else if byte = 13 then "\\r"
    else if byte < 0x20 ∨ (0x7f ≤ byte ∧ byte ≤ 0xa0) ∨ byte = 0xad then
      "\\u\x7b" ++ String.ofList (Nat.toDigits 16 byte.toNat) ++ "\x7d"
    else String.singleton c
  "'" ++ inner ++ "'"

/-- The text of a fault in a hexadecimal text. -/
def HexError.message : HexError → String
  | .oddLength => "Odd number of digits"
  | .wrongLength => "Invalid string length"
  | .invalidCharacter byte position =>
    "Invalid character " ++ quotedByte byte ++ " at position " ++ toString position

end OutputIndex
