import Mathlib.Data.List.Induction
import Mathlib.Tactic.Tauto
import OutputIndex.Proofs.Cursor
import OutputIndex.Proofs.Text
import OutputIndex.Query

/-!
# Cursors as texts

Cursors are compared as texts, and the places they stand for by slot and then by identifier.  Both
orders are the same, because a higher digit is a later character and every number is written in its
full width: of two texts that begin with parts of the same width, these parts decide unless they
agree (`SortKey.append_lt_append_iff`).  So the digits of a slot are in the order of slots
(`SortKey.slotDigits_lt_iff`), and those of a byte string, two for each byte, in the order of byte
strings (`SortKey.digits_lt_iff`).

A text is read as a cursor just if it consists of 84 hexadecimal digits of either case
(`SortKey.IsCursor`), and then the cursor of the place that is read is the text in small letters.
The statements are put together in `SortKey.ofCursor_orderIso`.
-/

namespace OutputIndex

/-! ## Hexadecimal digits -/

namespace Hex

/-- The character is a hexadecimal digit of either case. -/
def IsDigit (c : Char) : Prop :=
  ('0' ≤ c ∧ c ≤ '9') ∨ ('a' ≤ c ∧ c ≤ 'f') ∨ ('A' ≤ c ∧ c ≤ 'F')

variable {c : Char} {text : List Char}

lemma exists_value?_iff : (∃ v, value? c = some v) ↔ IsDigit c := by
  unfold value? IsDigit
  split
  · simp [*]
  · split
    · simp [*]
    · split <;> simp [*]

lemma digit_lt_digit_iff {v w : ℕ} (hv : v < 16) (hw : w < 16) : digit v < digit w ↔ v < w := by
  have hall : ∀ m n : Fin 16, digit m.val < digit n.val ↔ m.val < n.val := by decide
  exact hall ⟨v, hv⟩ ⟨w, hw⟩

/-- A digit takes one byte. -/
lemma byteCount_of_isDigit (h : ∀ c ∈ text, IsDigit c) : byteCount text = text.length := by
  induction text with
  | nil => rfl
  | cons c rest ih =>
    obtain ⟨hc, hrest⟩ := List.forall_mem_cons.1 h
    obtain ⟨v, hv⟩ := exists_value?_iff.2 hc
    rw [byteCount, (toLower_of_value? hv).2.2, ih hrest, List.length_cons, Nat.add_comm]

/-- Digits in pairs are read as bytes. -/
lemma exists_readDigits {n : ℕ} (position : ℕ) (hlength : text.length = 2 * n)
    (h : ∀ c ∈ text, IsDigit c) :
    ∃ bytes, readDigits position text = .ok bytes ∧ bytes.length = n := by
  induction n generalizing position text with
  | zero =>
    obtain rfl := List.length_eq_zero_iff.1 hlength
    exact ⟨[], rfl, rfl⟩
  | succ n ih =>
    match text, hlength with
    | high :: low :: rest, hlength =>
      obtain ⟨hhigh, h⟩ := List.forall_mem_cons.1 h
      obtain ⟨hlow, hrest⟩ := List.forall_mem_cons.1 h
      obtain ⟨v, hv⟩ := exists_value?_iff.2 hhigh
      obtain ⟨w, hw⟩ := exists_value?_iff.2 hlow
      have hlength : rest.length = 2 * n := by
        rw [List.length_cons, List.length_cons] at hlength
        omega
      obtain ⟨bytes, hbytes, hcount⟩ := ih (position + 2) hlength hrest
      refine ⟨UInt8.ofNat (16 * v + w) :: bytes, ?_, congrArg (· + 1) hcount⟩
      rw [readDigits, hv, hw]
      dsimp only
      rw [hbytes]
      rfl

/-- Enough digits are those of a byte string of fixed length but for capitals. -/
lemma exists_digits_eq {n : ℕ} (hlength : text.length = 2 * n) (h : ∀ c ∈ text, IsDigit c) :
    ∃ bytes : FixedBytes n, digits bytes.toList = text.map Char.toLower := by
  obtain ⟨bytes, hread, hcount⟩ := exists_readDigits 0 hlength h
  exact ⟨⟨bytes, hcount⟩, (toLower_of_readDigits hread).1.symm⟩

end Hex

namespace SortKey

open TableKey (before listBefore_cons_iff)

variable {n v w : ℕ}

/-! ## The order of digits -/

/-- Of two lists that begin with parts of the same length, these parts decide unless they agree. -/
lemma append_lt_append_iff {front front' : List Char} (back back' : List Char)
    (h : front.length = front'.length) :
    front ++ back < front' ++ back' ↔ front < front' ∨ front = front' ∧ back < back' := by
  induction front generalizing front' with
  | nil =>
    obtain rfl := List.length_eq_zero_iff.1 h.symm
    simp
  | cons c front ih =>
    match front', h with
    | d :: front', h =>
      rw [List.cons_append, List.cons_append, List.cons_lt_cons_iff, List.cons_lt_cons_iff,
        ih (Nat.succ.inj h), List.cons.injEq]
      tauto

lemma slotDigits_inj (hv : v < 16 ^ n) (hw : w < 16 ^ n) :
    slotDigits n v = slotDigits n w ↔ v = w := by
  refine ⟨fun h => ?_, congrArg (slotDigits n)⟩
  have hvalue := congrArg ofSlotDigits h
  rwa [ofSlotDigits_slotDigits, ofSlotDigits_slotDigits, Nat.mod_eq_of_lt hv,
    Nat.mod_eq_of_lt hw] at hvalue

/-- Numbers of the same width are in the order of their digits. -/
lemma slotDigits_lt_iff (hv : v < 16 ^ n) (hw : w < 16 ^ n) :
    slotDigits n v < slotDigits n w ↔ v < w := by
  induction n generalizing v w with
  | zero =>
    obtain rfl := Nat.lt_one_iff.1 hv
    obtain rfl := Nat.lt_one_iff.1 hw
    simp [slotDigits]
  | succ n ih =>
    rw [Nat.pow_succ] at hv hw
    have hv' : v / 16 < 16 ^ n := Nat.div_lt_of_lt_mul (Nat.mul_comm _ _ ▸ hv)
    have hw' : w / 16 < 16 ^ n := Nat.div_lt_of_lt_mul (Nat.mul_comm _ _ ▸ hw)
    have hdigit : Hex.digit (v % 16) < Hex.digit (w % 16) ↔ v % 16 < w % 16 :=
      Hex.digit_lt_digit_iff (Nat.mod_lt _ (by decide)) (Nat.mod_lt _ (by decide))
    rw [slotDigits, slotDigits, append_lt_append_iff _ _ (by simp), ih hv' hw',
      slotDigits_inj hv' hw', List.cons_lt_cons_iff, hdigit]
    simp only [List.lt_irrefl, and_false, or_false]
    omega

/-- The digits of a byte are those of a number of two digits. -/
lemma pair_eq_slotDigits (byte : UInt8) : Hex.pair byte = slotDigits 2 byte.toNat := by
  have hlt := byte.toNat_lt
  have hhigh : byte.toNat / 16 % 16 = byte.toNat / 16 := Nat.mod_eq_of_lt (by omega)
  simp [slotDigits, Hex.pair, hhigh]

/-- Byte strings are in the order of their digits. -/
lemma digits_lt_iff (xs ys : Bytes) : Hex.digits xs < Hex.digits ys ↔ before xs ys = true := by
  induction xs generalizing ys with
  | nil =>
    cases ys with
    | nil => simp [Hex.digits, before, TableKey.listBefore]
    | cons y ys => simp [Hex.digits, Hex.pair, before, TableKey.listBefore]
  | cons x xs ih =>
    cases ys with
    | nil => simp [Hex.digits, before, TableKey.listBefore]
    | cons y ys =>
      have hx : x.toNat < 16 ^ 2 := x.toNat_lt
      have hy : y.toNat < 16 ^ 2 := y.toNat_lt
      have hcons : before (x :: xs) (y :: ys) = true ↔
          before x y = true ∨ x = y ∧ before xs ys = true := listBefore_cons_iff
      have hbyte : before x y = true ↔ x.toNat < y.toNat := decide_eq_true_iff
      rw [hcons, hbyte, ← ih, Hex.digits, Hex.digits, List.flatMap_cons, List.flatMap_cons,
        pair_eq_slotDigits, pair_eq_slotDigits, append_lt_append_iff _ _ (by simp),
        slotDigits_lt_iff hx hy, slotDigits_inj hx hy, UInt8.toNat_inj]
      rfl

/-- Cursors are in the order of the places that they stand for. -/
lemma cursor_lt_cursor_iff (a b : SortKey) : a.cursor < b.cursor ↔ before a b = true := by
  have ha : a.slot.toNat < 16 ^ 8 := a.slot.toNat_lt
  have hb : b.slot.toNat < 16 ^ 8 := b.slot.toNat_lt
  have hpair : before a b = true ↔
      before a.slot b.slot = true ∨ a.slot = b.slot ∧ before a.outputId b.outputId = true :=
    TableKey.pairBefore_iff
  have hslot : before a.slot b.slot = true ↔ a.slot.toNat < b.slot.toNat := decide_eq_true_iff
  have hid : before a.outputId b.outputId = true ↔
      before a.outputId.toList b.outputId.toList = true := Iff.rfl
  rw [String.lt_iff, cursor, cursor, String.toList_ofList, String.toList_ofList,
    cursorDigits, cursorDigits, append_lt_append_iff _ _ (by simp), slotDigits_lt_iff ha hb,
    slotDigits_inj ha hb, UInt32.toNat_inj, digits_lt_iff, hpair, hslot, hid]

/-! ## The texts that are cursors -/

/-- The text consists of 84 hexadecimal digits. -/
structure IsCursor (text : String) : Prop where
  length : text.toList.length = 84
  digits : ∀ c ∈ text.toList, Hex.IsDigit c

/-- A number that is read from digits has these digits but for capitals, and no more. -/
lemma slotDigits_ofSlotDigits {digits : List Char} (h : ∀ c ∈ digits, Hex.IsDigit c) :
    slotDigits digits.length (ofSlotDigits digits) = digits.map Char.toLower ∧
      ofSlotDigits digits < 16 ^ digits.length := by
  induction digits using List.reverseRecOn with
  | nil => exact ⟨rfl, Nat.one_pos⟩
  | append_singleton digits c ih =>
    obtain ⟨hdigits, hc⟩ := List.forall_mem_append.1 h
    obtain ⟨v, hv⟩ := Hex.exists_value?_iff.2 (hc c List.mem_cons_self)
    obtain ⟨hlt, hlower, -⟩ := Hex.toLower_of_value? hv
    obtain ⟨hread, hbound⟩ := ih hdigits
    have hvalue : ofSlotDigits (digits ++ [c]) = 16 * ofSlotDigits digits + v := by
      simp [ofSlotDigits, List.foldl_append, hv]
    have hdiv : (16 * ofSlotDigits digits + v) / 16 = ofSlotDigits digits := by omega
    have hmod : (16 * ofSlotDigits digits + v) % 16 = v := by omega
    rw [hvalue, List.length_append, List.length_singleton, slotDigits, hdiv, hmod, hread,
      List.map_append, List.map_singleton, hlower, Nat.pow_succ]
    exact ⟨rfl, by omega⟩

namespace IsCursor

variable {text : String}

/-- A cursor in either case is read, and is the cursor of what is read but for capitals. -/
lemma exists_ofCursor (h : IsCursor text) :
    ∃ key, ofCursor text = .ok key ∧ key.cursor = text.toLower := by
  have hcount : Hex.byteCount text.toList = 84 := by
    rw [Hex.byteCount_of_isDigit h.digits, h.length]
  have hall : ∀ c ∈ text.toList, (Hex.value? c).isSome = true := fun c hc =>
    Option.isSome_iff_exists.2 (Hex.exists_value?_iff.2 (h.digits c hc))
  have hfront : (text.toList.take 8).length = 8 := by
    rw [List.length_take, h.length]
    rfl
  have hback : (text.toList.drop 8).length = 2 * 38 := by rw [List.length_drop, h.length]
  obtain ⟨hslot, hbound⟩ :=
    slotDigits_ofSlotDigits fun c hc => h.digits c (List.mem_of_mem_take hc)
  obtain ⟨bytes, hbytes⟩ :=
    Hex.exists_digits_eq hback fun c hc => h.digits c (List.mem_of_mem_drop hc)
  rw [hfront] at hslot hbound
  refine ⟨⟨UInt32.ofNat (ofSlotDigits (text.toList.take 8)), ⟨bytes⟩⟩, ?_, ?_⟩
  · exact ofCursorDigits_eq_ok hcount hall (UInt32.toNat_ofNat_of_lt' hbound).symm hbytes.symm
  · have hlower : text.toLower = String.ofList (text.toList.map Char.toLower) := by
      rw [← String.toList_map, String.ofList_toList]
      rfl
    have hfirst : slotDigits 8 (UInt32.ofNat (ofSlotDigits (text.toList.take 8))).toNat =
        (text.toList.take 8).map Char.toLower := by
      rw [UInt32.toNat_ofNat_of_lt' hbound, hslot]
    have hparts := congrArg (List.map Char.toLower) (List.take_append_drop 8 text.toList)
    rw [List.map_append, ← hfirst, ← hbytes] at hparts
    rw [hlower, ← hparts]
    rfl

end IsCursor

/-- The fault of a text that is no cursor. -/
def cursorFault (text : String) : CursorError :=
  if Hex.byteCount text.toList = 84 then .notHex else .length (Hex.byteCount text.toList)

/-- A text that is no cursor has the wrong number of bytes or a character that is no digit.  So
neither the slot nor the identifier is ever looked for in it. -/
lemma ofCursor_of_not_isCursor {text : String} (h : ¬IsCursor text) :
    ofCursor text = .error (cursorFault text) := by
  rw [ofCursor, ofCursorDigits, cursorFault]
  by_cases hcount : Hex.byteCount text.toList = 84
  · have hany : (text.toList.any fun c => (Hex.value? c).isNone) = true := by
      by_contra hnone
      have hdigits : ∀ c ∈ text.toList, Hex.IsDigit c := by
        intro c hc
        have hc := List.any_eq_false.1 (Bool.eq_false_iff.2 hnone) c hc
        exact Hex.exists_value?_iff.1 (Option.ne_none_iff_exists'.1 (by simpa using hc))
      rw [Hex.byteCount_of_isDigit hdigits] at hcount
      exact h ⟨hcount, hdigits⟩
    rw [if_neg (not_not_intro hcount), if_pos hany, if_pos hcount]
  · rw [if_pos hcount, if_neg hcount]

/-- **Cursors are an image of query order.**  Two cursors compare as texts like the places they
stand for, and the cursor of a place is read as that place.  A text is read as a cursor just if it
consists of 84 hexadecimal digits of either case, and in small letters it is the cursor of what is
read.  Any other text is refused, as one of the wrong length or as one that is not hexadecimal, and
so is a page that should begin at it. -/
theorem ofCursor_orderIso :
    (∀ a b : SortKey, (a.cursor < b.cursor ↔ before a b = true) ∧ (a.cursor = b.cursor ↔ a = b)) ∧
      (∀ key : SortKey, ofCursor key.cursor = .ok key) ∧
      (∀ text : String, (∃ key, ofCursor text = .ok key) ↔ IsCursor text) ∧
      (∀ (text : String) (key : SortKey), ofCursor text = .ok key → key.cursor = text.toLower) ∧
      ∀ text : String, ¬IsCursor text → ofCursor text = .error (cursorFault text) ∧
        ∀ size : UInt32, size ≠ 0 →
          Index.pageStart ⟨size, some text⟩ = .error (.invalidCursor (cursorFault text)) := by
  refine ⟨fun a b => ⟨cursor_lt_cursor_iff a b, ?_, congrArg cursor⟩, ofCursor_cursor,
    fun text => ⟨?_, ?_⟩, ?_, ?_⟩
  · intro h
    have hread := ofCursor_cursor a
    rw [h, ofCursor_cursor b] at hread
    exact (Except.ok.inj hread).symm
  · rintro ⟨key, hread⟩
    by_contra h
    rw [ofCursor_of_not_isCursor h] at hread
    cases hread
  · intro h
    obtain ⟨key, hread, -⟩ := h.exists_ofCursor
    exact ⟨key, hread⟩
  · intro text key hread
    by_cases h : IsCursor text
    · obtain ⟨found, hfound, hcursor⟩ := h.exists_ofCursor
      obtain rfl := Except.ok.inj (hfound.symm.trans hread)
      exact hcursor
    · rw [ofCursor_of_not_isCursor h] at hread
      cases hread
  · intro text h
    have hread := ofCursor_of_not_isCursor h
    refine ⟨hread, fun size hsize => ?_⟩
    rw [Index.pageStart]
    dsimp only
    rw [if_neg hsize, hread]

/-- The place of an output booked in slot 26. -/
def samplePlace : SortKey := ⟨26, .ofParts (.replicate 32 0xab) 1 0⟩

/-- The cursor of the place, with one digit in a capital letter. -/
def sampleCapital : String := "0000001A" ++ samplePlace.outputId.hex

/-- A text of 84 bytes, whose last character takes two of them. -/
def sampleAccent : String := String.ofList (samplePlace.cursorDigits.take 82) ++ "é"

theorem ofCursor_sampleCapital :
    ofCursor sampleCapital = .ok samplePlace ∧ samplePlace.cursor = sampleCapital.toLower ∧
      ¬IsCursor sampleAccent ∧ ofCursor sampleAccent = .error .notHex ∧ (1 : UInt32) ≠ 0 ∧
      Index.pageStart ⟨1, some sampleAccent⟩ = .error (.invalidCursor .notHex) := by
  obtain ⟨-, -, -, hlower, hrefused⟩ := ofCursor_orderIso
  have hread : ofCursor sampleCapital = .ok samplePlace := by decide +kernel
  have hnot : ¬IsCursor sampleAccent := by
    intro h
    have hlength : sampleAccent.toList.length ≠ 84 := by decide +kernel
    exact hlength h.length
  have hfault : cursorFault sampleAccent = .notHex := by decide +kernel
  obtain ⟨herror, hpage⟩ := hrefused sampleAccent hnot
  rw [hfault] at herror hpage
  exact ⟨hread, hlower _ _ hread, hnot, herror, by decide, hpage 1 (by decide)⟩

end SortKey

end OutputIndex
