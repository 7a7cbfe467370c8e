import Mathlib.Algebra.Group.Nat.Defs
import OutputIndex.Cursor
import OutputIndex.Proofs.Text

/-!
# Reading a cursor undoes writing it

A cursor is eight digits for the slot and two for each byte of the identifier.  The digits of the
slot are read by a fold over the text and those of the identifier as bytes, so the text is split
after the eighth digit (`SortKey.cursorDigits_split`) and each part is read by itself.  Neither part
is refused once the text is known to consist of digits (`SortKey.ofCursorDigits_eq_ok`): eight
digits fit a slot, and no digits begin with the marker that an identifier may have before it
(`Hex.dropMarker_of_value?`).  The main statement is `SortKey.ofCursor_cursor`: the cursor of a
place is read as that place, whatever the place.  So a page that begins at the cursor of a row
begins at that row.
-/

namespace OutputIndex

namespace SortKey

variable {n value : Nat}

/-! ## The digits of the slot -/

@[simp] lemma length_slotDigits (n value : Nat) : (slotDigits n value).length = n := by
  induction n generalizing value with
  | zero => rfl
  | succ n ih => simp [slotDigits, ih]

/-- Every digit of a slot is the digit of a value below sixteen. -/
lemma exists_of_mem_slotDigits {c : Char} (h : c ∈ slotDigits n value) :
    ∃ v < 16, c = Hex.digit v := by
  induction n generalizing value with
  | zero => simp [slotDigits] at h
  | succ n ih =>
    rcases List.mem_append.1 h with h | h
    · exact ih h
    · exact ⟨value % 16, by omega, List.mem_singleton.1 h⟩

/-- A further digit is the lowest one of the number read. -/
lemma ofSlotDigits_concat (digits : List Char) {v : Nat} (hv : v < 16) :
    ofSlotDigits (digits ++ [Hex.digit v]) = 16 * ofSlotDigits digits + v := by
  simp [ofSlotDigits, List.foldl_append, Hex.value?_digit hv]

lemma ofSlotDigits_slotDigits (n value : Nat) :
    ofSlotDigits (slotDigits n value) = value % 16 ^ n := by
  induction n generalizing value with
  | zero => simp [slotDigits, ofSlotDigits, Nat.mod_one]
  | succ n ih =>
    have hlow : value % 16 < 16 := Nat.mod_lt _ (by omega)
    rw [slotDigits, ofSlotDigits_concat _ hlow, ih, Nat.pow_succ', Nat.mod_mul]
    omega

/-- A slot has no more than eight digits. -/
lemma ofSlotDigits_toNat (slot : Slot) : ofSlotDigits (slotDigits 8 slot.toNat) = slot.toNat := by
  rw [ofSlotDigits_slotDigits]
  exact Nat.mod_eq_of_lt slot.toNat_lt

/-! ## The whole cursor -/

lemma byteCount_append (first second : List Char) :
    Hex.byteCount (first ++ second) = Hex.byteCount first + Hex.byteCount second := by
  induction first with
  | nil => simp [Hex.byteCount]
  | cons c rest ih => simp [Hex.byteCount, ih, Nat.add_assoc]

lemma byteCount_slotDigits (n value : Nat) : Hex.byteCount (slotDigits n value) = n := by
  induction n generalizing value with
  | zero => rfl
  | succ n ih =>
    have hsize : (Hex.digit (value % 16)).utf8Size = 1 := Hex.utf8Size_digit (by omega)
    rw [slotDigits, byteCount_append, ih, Hex.byteCount, Hex.byteCount, hsize]

/-- The slot is written before the identifier, in eight digits. -/
lemma cursorDigits_split (key : SortKey) :
    key.cursorDigits.take 8 = slotDigits 8 key.slot.toNat ∧
      key.cursorDigits.drop 8 = Hex.digits key.outputId.toList := by
  have hlength : (slotDigits 8 key.slot.toNat).length = 8 := length_slotDigits 8 key.slot.toNat
  exact ⟨List.take_left' hlength, List.drop_left' hlength⟩

lemma byteCount_cursorDigits (key : SortKey) : Hex.byteCount key.cursorDigits = 84 := by
  have hid : key.outputId.toList.length = 38 := key.outputId.bytes.length_eq
  rw [cursorDigits, byteCount_append, byteCount_slotDigits, Hex.byteCount_digits, hid]

/-- A cursor consists of digits. -/
lemma exists_of_mem_cursorDigits {key : SortKey} {c : Char} (h : c ∈ key.cursorDigits) :
    ∃ v < 16, c = Hex.digit v := by
  rcases List.mem_append.1 h with h | h
  · exact exists_of_mem_slotDigits h
  · exact Hex.exists_of_mem_digits h

lemma any_isNone_eq_false {text : List Char} (h : ∀ c ∈ text, (Hex.value? c).isSome = true) :
    (text.any fun c => (Hex.value? c).isNone) = false := by
  rw [List.any_eq_false]
  intro c hc
  rw [Option.isNone_eq_false_iff.2 (h c hc)]
  exact Bool.false_ne_true

lemma readSlot_eq_ok {digits : List Char} {slot : Slot}
    (h : ∀ c ∈ digits, (Hex.value? c).isSome = true) (hslot : ofSlotDigits digits = slot.toNat) :
    readSlot digits = .ok slot := by
  have hlt : ofSlotDigits digits < UInt32.size := hslot ▸ slot.toNat_lt
  rw [readSlot, any_isNone_eq_false h, if_neg Bool.false_ne_true, dif_pos hlt]
  exact congrArg Except.ok (UInt32.toNat_inj.1 hslot)

/-- Digits are read as the identifier whose digits they are but for capitals: there is no marker
among them. -/
lemma readOutputId_eq_ok {digits : List Char} {id : OutputId}
    (h : digits.map Char.toLower = Hex.digits id.toList) : readOutputId digits = .ok id := by
  have hread : Identifier.ofHex (String.ofList (Hex.digits id.toList)) = .ok id := id.ofHex_hex
  rw [readOutputId, h, hread]

/-- A text of 84 digits is read as the place whose slot and identifier the two parts denote. -/
lemma ofCursorDigits_eq_ok {text : List Char} {key : SortKey} (hcount : Hex.byteCount text = 84)
    (hdigits : ∀ c ∈ text, (Hex.value? c).isSome = true)
    (hslot : ofSlotDigits (text.take 8) = key.slot.toNat)
    (hid : (text.drop 8).map Char.toLower = Hex.digits key.outputId.toList) :
    ofCursorDigits text = .ok key := by
  have hfront : readSlot (text.take 8) = .ok key.slot :=
    readSlot_eq_ok (fun c hc => hdigits c (List.mem_of_mem_take hc)) hslot
  rw [ofCursorDigits, hcount, if_neg (by simp), any_isNone_eq_false hdigits,
    if_neg Bool.false_ne_true, hfront, readOutputId_eq_ok hid]
  rfl

/-- **Reading a cursor undoes writing it.** -/
theorem ofCursor_cursor (key : SortKey) : ofCursor key.cursor = .ok key := by
  obtain ⟨htake, hdrop⟩ := key.cursorDigits_split
  rw [ofCursor, cursor, String.toList_ofList]
  refine ofCursorDigits_eq_ok key.byteCount_cursorDigits (fun c hc => ?_) ?_ ?_
  · obtain ⟨v, hv, rfl⟩ := exists_of_mem_cursorDigits hc
    rw [Hex.value?_digit hv]
    rfl
  · rw [htake, ofSlotDigits_toNat]
  · rw [hdrop]
    exact (Hex.toLower_of_readDigits (Hex.readDigits_digits _ 0)).1

end SortKey

end OutputIndex
