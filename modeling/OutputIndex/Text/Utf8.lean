import OutputIndex.Bytes

/-!
# UTF-8

Names travel as UTF-8.  Bytes that are not UTF-8 are refused with the place of the first sequence
that is wrong: how many bytes before it are right, and how many bytes show that it is wrong, unless
the input just ends inside it.
-/

namespace OutputIndex

/-- The first sequence of bytes that is not UTF-8. -/
structure Utf8Error where
  /-- The number of bytes before it, which are UTF-8. -/
  validUpTo : Nat
  /-- The number of its bytes up to the one that cannot follow; none if the input ends too early. -/
  length : Option Nat
deriving DecidableEq

namespace Utf8

/-- The ranges that the bytes after a first byte have to be in; nothing if no sequence begins with
the byte. -/
def following (first : UInt8) : Option (List (UInt8 × UInt8)) :=
  let any : UInt8 × UInt8 := (0x80, 0xbf)
  if first ≤ 0x7f then some []
  -- narrower ranges rule out long forms, surrogates and what lies beyond the last code point
  else if 0xc2 ≤ first ∧ first ≤ 0xdf then some [any]
  else if first = 0xe0 then some [(0xa0, 0xbf), any]
  else if first = 0xed then some [(0x80, 0x9f), any]
  else if 0xe1 ≤ first ∧ first ≤ 0xef then some [any, any]
  else if first = 0xf0 then some [(0x90, 0xbf), any, any]
  else if 0xf1 ≤ first ∧ first ≤ 0xf3 then some [any, any, any]
  else if first = 0xf4 then some [(0x80, 0x8f), any, any]
  else none

/-- Matches the bytes of a sequence after its first `seen` ones: the rest of the input, or how the
sequence is wrong. -/
def matchRanges (seen : Nat) : List (UInt8 × UInt8) → Bytes → Except (Option Nat) Bytes
  | [], input => .ok input
  | _ :: _, [] => .error none
  | (low, high) :: ranges, byte :: rest =>
    if low ≤ byte ∧ byte ≤ high then matchRanges (seen + 1) ranges rest else .error (some seen)

/-- Looks for the first wrong sequence from `position` on, in at most `fuel` sequences. -/
def locate : Nat → Nat → Bytes → Utf8Error
  | 0, position, _ => ⟨position, none⟩
  | _ + 1, position, [] => ⟨position, none⟩
  | fuel + 1, position, first :: rest =>
    match following first with
    | none => ⟨position, some 1⟩
    | some ranges =>
      match matchRanges 1 ranges rest with
      | .error length => ⟨position, length⟩
      | .ok rest => locate fuel (position + 1 + ranges.length) rest

/-- The bytes of a text. -/
def encode (text : String) : Bytes := text.toUTF8.data.toList

/-- The text that bytes are the UTF-8 form of. -/
def decode (input : Bytes) : Except Utf8Error String :=
  match String.fromUTF8? ⟨input.toArray⟩ with
  | some text => .ok text
  | none => .error (locate input.length 0 input)

end Utf8

/-- The text of a fault in UTF-8. -/
def Utf8Error.message (error : Utf8Error) : String :=
  match error.length with
  | some length =>
    "invalid utf-8 sequence of " ++ toString length ++ " bytes from index "
      ++ toString error.validUpTo
  | none => "incomplete utf-8 byte sequence from index " ++ toString error.validUpTo

end OutputIndex
