import Mathlib.Tactic.Lemma
import OutputIndex.Proofs.Record
import OutputIndex.Text.Utf8

/-!
# Texts as bytes

Bytes are read as a text exactly if they are its UTF-8 form (`Utf8.decode_eq_ok_iff`).  Digits are
read as a byte string only if they are the digits that are written for it, some of them perhaps in
capitals (`Hex.toLower_of_decode`), so that both take the same number of bytes.
-/

namespace OutputIndex

namespace Utf8

lemma fromUTF8?_encode (text : String) :
    String.fromUTF8? ⟨(encode text).toArray⟩ = some text := by
  have hvalid : (⟨(encode text).toArray⟩ : ByteArray).IsValidUTF8 := text.isValidUTF8
  rw [String.fromUTF8?, dif_pos hvalid]
  rfl

lemma decode_eq_ok_iff {input : Bytes} {text : String} :
    decode input = .ok text ↔ encode text = input := by
  constructor
  · intro h
    unfold decode String.fromUTF8? at h
    split at h
    · rename_i hsome
      split at hsome
      · cases hsome
        cases h
        rfl
      · cases hsome
    · cases h
  · rintro rfl
    rw [decode, fromUTF8?_encode]

/-- The UTF-8 form of a text is that of its characters, one after the other. -/
lemma encode_eq_flatMap (text : String) :
    encode text = text.toList.flatMap String.utf8EncodeChar := by
  have hencode : encode (String.ofList text.toList) =
      text.toList.flatMap String.utf8EncodeChar := by
    rw [encode, String.toUTF8_eq_toByteArray, String.toByteArray_ofList, List.utf8Encode]
    exact List.data_toByteArray ▸ rfl
  rw [String.ofList_toList] at hencode
  exact hencode

/-- The UTF-8 form of a text has as many bytes as its characters take. -/
lemma length_encode (text : String) : (encode text).length = Hex.byteCount text.toList := by
  rw [encode_eq_flatMap]
  induction text.toList with
  | nil => rfl
  | cons c rest ih =>
    rw [List.flatMap_cons, List.length_append, String.length_utf8EncodeChar, ih, Hex.byteCount]

lemma encode_append (first second : String) :
    encode (first ++ second) = encode first ++ encode second := by
  simp only [encode_eq_flatMap, String.toList_append, List.flatMap_append]

/-- A character of ASCII is one byte, and all other characters have bytes beyond ASCII only. -/
lemma utf8EncodeChar_cases (c : Char) :
    (c.toNat < 0x80 ∧ String.utf8EncodeChar c = [UInt8.ofNat c.toNat]) ∨
      (0x80 ≤ c.toNat ∧ ∀ byte ∈ String.utf8EncodeChar c, 0x80 ≤ byte) := by
  have hhigh : ∀ n, 0x80 ≤ n → n < 0x100 → (0x80 : UInt8) ≤ UInt8.ofNat n := by
    intro n hlow hlt
    rw [UInt8.le_iff_toNat_le, UInt8.toNat_ofNat_of_lt' hlt]
    exact hlow
  have hval : c.val.toNat = c.toNat := rfl
  unfold String.utf8EncodeChar
  simp only [hval]
  by_cases hascii : c.toNat ≤ 0x7f
  · rw [if_pos hascii]
    exact .inl ⟨by omega, rfl⟩
  · rw [if_neg hascii]
    refine .inr ⟨by omega, ?_⟩
    split
    · simp only [List.forall_mem_cons]
      exact ⟨hhigh _ (by omega) (by omega), hhigh _ (by omega) (by omega), nofun⟩
    · split
      · simp only [List.forall_mem_cons]
        exact ⟨hhigh _ (by omega) (by omega), hhigh _ (by omega) (by omega),
          hhigh _ (by omega) (by omega), nofun⟩
      · simp only [List.forall_mem_cons]
        exact ⟨hhigh _ (by omega) (by omega), hhigh _ (by omega) (by omega),
          hhigh _ (by omega) (by omega), hhigh _ (by omega) (by omega), nofun⟩

/-- A byte of ASCII comes from its own character only. -/
lemma toNat_of_mem_utf8EncodeChar {c : Char} {byte : UInt8} (hbyte : byte < 0x80)
    (h : byte ∈ String.utf8EncodeChar c) : c.toNat = byte.toNat := by
  rcases utf8EncodeChar_cases c with ⟨hlt, hbytes⟩ | ⟨-, hbytes⟩
  · rw [hbytes] at h
    obtain rfl := List.mem_singleton.1 h
    exact (UInt8.toNat_ofNat_of_lt' (show c.toNat < 0x100 by omega)).symm
  · exact absurd (hbytes byte h) (UInt8.not_le.2 hbyte)

end Utf8

namespace Hex

/-- A digit in small letters is the one that is written for its value, and takes one byte. -/
lemma toLower_of_value? {c : Char} {v : ℕ} (h : value? c = some v) :
    v < 16 ∧ c.toLower = digit v ∧ c.utf8Size = 1 := by
  have hall : ∀ n < 128, ∀ v ∈ value? (Char.ofNat n),
      v < 16 ∧ (Char.ofNat n).toLower = digit v ∧ (Char.ofNat n).utf8Size = 1 := by decide
  have hlt : c.toNat < 128 := by
    by_contra hle
    have hnot : ∀ d : Char, d.toNat < 128 → ¬ c ≤ d := by
      intro d hd hcd
      have hcd : c.toNat ≤ d.toNat := hcd
      omega
    rw [value?, if_neg fun hc => hnot '9' (by decide) hc.2,
      if_neg fun hc => hnot 'f' (by decide) hc.2, if_neg fun hc => hnot 'F' (by decide) hc.2] at h
    cases h
  have hc := hall c.toNat hlt
  rw [Char.ofNat_toNat] at hc
  exact hc v h

lemma pair_ofNat {high low : ℕ} (hhigh : high < 16) (hlow : low < 16) :
    pair (UInt8.ofNat (16 * high + low)) = [digit high, digit low] := by
  have hbyte : (UInt8.ofNat (16 * high + low)).toNat = 16 * high + low :=
    UInt8.toNat_ofNat_of_lt (show 16 * high + low < 256 by omega)
  have hdiv : (16 * high + low) / 16 = high := by omega
  have hmod : (16 * high + low) % 16 = low := by omega
  rw [pair, hbyte, hdiv, hmod]

/-- Digits that are read are the written ones in small letters, and take as many bytes. -/
lemma toLower_of_readDigits {chars : List Char} {bytes : Bytes} {position : ℕ}
    (h : readDigits position chars = .ok bytes) :
    chars.map Char.toLower = digits bytes ∧ byteCount chars = byteCount (digits bytes) := by
  fun_induction readDigits position chars generalizing bytes with
  | case3 position high low rest v w hlow hhigh ih =>
    obtain ⟨others, hothers, h⟩ := bind_eq_ok_iff.1 h
    cases h
    obtain ⟨hchars, hcount⟩ := ih hothers
    obtain ⟨hv, hhigh, hhighSize⟩ := toLower_of_value? hhigh
    obtain ⟨hw, hlow, hlowSize⟩ := toLower_of_value? hlow
    have hdigits : digits (UInt8.ofNat (16 * v + w) :: others) =
        digit v :: digit w :: digits others := by
      rw [digits, List.flatMap_cons, pair_ofNat hv hw]
      rfl
    rw [hdigits]
    refine ⟨?_, ?_⟩
    · rw [List.map_cons, List.map_cons, hchars, hhigh, hlow]
    · simp only [byteCount, hcount, hhighSize, hlowSize, utf8Size_digit hv, utf8Size_digit hw]
  | case5 =>
    cases h
    exact ⟨rfl, rfl⟩
  | case1 | case2 | case4 => cases h

/-- The digits of a byte string differ from the ones that are written in capitals at most. -/
lemma toLower_of_decode {text : String} {bytes : Bytes} (h : decode text = .ok bytes) :
    text.toLower = encode bytes ∧
      (Utf8.encode text).length = (Utf8.encode (encode bytes)).length := by
  unfold decode decodeChars at h
  split at h
  · cases h
  · obtain ⟨hchars, hcount⟩ := toLower_of_readDigits h
    refine ⟨?_, ?_⟩
    · rw [encode, ← hchars, ← String.toList_map, String.ofList_toList]
      rfl
    · rw [Utf8.length_encode, Utf8.length_encode, hcount, encode, String.toList_ofList]

end Hex

end OutputIndex
