/-!
# Byte strings

A byte string is a list of bytes, so that every format over byte strings is ordinary recursion
on lists.  This file sets up the byte strings of a fixed length and the little-endian form of
numbers; the main statements say that the little-endian form has the length asked for and reads
back as the number it was written from.
-/

namespace OutputIndex

/-- A byte string. -/
abbrev Bytes := List UInt8

/-- A byte string of exactly `n` bytes. -/
@[ext] structure FixedBytes (n : Nat) where
  /-- The bytes, in order. -/
  toList : Bytes
  /-- There are `n` of them. -/
  length_eq : toList.length = n
deriving DecidableEq

namespace FixedBytes

variable {n m : Nat}

/-- The byte string as one of fixed length, if it has that length. -/
def ofList? (bytes : Bytes) : Option (FixedBytes n) :=
  if h : bytes.length = n then some ⟨bytes, h⟩ else none

/-- The byte `byte`, `n` times. -/
def replicate (n : Nat) (byte : UInt8) : FixedBytes n :=
  ⟨List.replicate n byte, List.length_replicate⟩

/-- Whether every byte is zero. -/
def isZero (bytes : FixedBytes n) : Bool := bytes.toList.all (· == 0)

@[simp] theorem ofList?_toList (bytes : FixedBytes n) : ofList? bytes.toList = some bytes := by
  simp [ofList?, bytes.length_eq]

theorem ofList?_eq_some_iff {bytes : Bytes} {fixed : FixedBytes n} :
    ofList? bytes = some fixed ↔ fixed.toList = bytes := by
  constructor
  · intro h
    unfold ofList? at h
    split at h
    · simp only [Option.some.injEq] at h
      exact h ▸ rfl
    · simp at h
  · rintro rfl
    exact ofList?_toList fixed

end FixedBytes

/-! ## Little-endian numbers -/

/-- The `n` lowest bytes of a number, the lowest first. -/
def littleEndian : Nat → Nat → Bytes
  | 0, _ => []
  | n + 1, value => UInt8.ofNat value :: littleEndian n (value / 256)

/-- The number whose bytes, the lowest first, are the given ones. -/
def ofLittleEndian : Bytes → Nat
  | [] => 0
  | byte :: rest => byte.toNat + 256 * ofLittleEndian rest

@[simp] theorem length_littleEndian (n value : Nat) : (littleEndian n value).length = n := by
  induction n generalizing value with
  | zero => rfl
  | succ n ih => simp [littleEndian, ih]

theorem ofLittleEndian_littleEndian (n value : Nat) :
    ofLittleEndian (littleEndian n value) = value % Nat.pow 256 n := by
  induction n generalizing value with
  | zero => exact (Nat.mod_one value).symm
  | succ n ih =>
    have hpow : Nat.pow 256 (n + 1) = 256 * Nat.pow 256 n := Nat.mul_comm _ _
    have hbyte : (UInt8.ofNat value).toNat = value % 256 := UInt8.toNat_ofNat'
    rw [littleEndian, ofLittleEndian, ih, hbyte, hpow, Nat.mod_mul]

theorem ofLittleEndian_lt (bytes : Bytes) : ofLittleEndian bytes < Nat.pow 256 bytes.length := by
  induction bytes with
  | nil => exact Nat.one_pos
  | cons byte rest ih =>
    have := byte.toNat_lt
    have hpow : Nat.pow 256 (rest.length + 1) = 256 * Nat.pow 256 rest.length := Nat.mul_comm _ _
    rw [ofLittleEndian, List.length_cons, hpow]
    omega

theorem littleEndian_ofLittleEndian (bytes : Bytes) :
    littleEndian bytes.length (ofLittleEndian bytes) = bytes := by
  induction bytes with
  | nil => rfl
  | cons byte rest ih =>
    have := byte.toNat_lt
    have hdiv : (byte.toNat + 256 * ofLittleEndian rest) / 256 = ofLittleEndian rest := by omega
    have hbyte : UInt8.ofNat (byte.toNat + 256 * ofLittleEndian rest) = byte := by
      apply UInt8.toNat_inj.mp
      rw [UInt8.toNat_ofNat']
      omega
    simp [ofLittleEndian, littleEndian, hdiv, hbyte, ih]

end OutputIndex
