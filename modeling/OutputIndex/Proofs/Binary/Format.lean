import Mathlib.Algebra.Order.BigOperators.Group.List
import Mathlib.Data.List.Forall2
import OutputIndex.Binary.Format
import OutputIndex.Proofs.Address
import OutputIndex.Proofs.Text

/-!
# Laws of the binary formats

Counts take 64 bits, so a value reads back from its written form if that is short enough for its
counts to fit (`Format.ReadsShort`).  The other way round, a format reads a value from some forms
only, and what it reads does read back from the written form (`Format.ReadsFrom`); most formats
read a value from its written form and no other (`Format.Exact`).  A text of hexadecimal digits may
be in capitals, and is written in small letters.

Both laws are proved for each way of building a format, so that those of a built format follow from
those of its parts.
-/

namespace OutputIndex

/-- Another error does not change what is returned. -/
lemma mapError_eq_ok_iff {ε ε' α : Type} {f : ε → ε'} {x : Except ε α} {a : α} :
    x.mapError f = .ok a ↔ x = .ok a := by
  cases x <;> simp [Except.mapError]

namespace Format

variable {α β : Type} {format : Format α} {first : Format α} {second : Format β}
  {Form : α → Bytes → Prop} {value : α} {input rest : Bytes}

/-- The value reads back from its written form, if that is so short that the counts in it fit. -/
def ReadsShort (format : Format α) (value : α) : Prop :=
  (format.write value).length < UInt64.size → format.Reads value

/-- What is read has been in one of its forms, and it reads back from its written form. -/
def ReadsFrom (format : Format α) (Form : α → Bytes → Prop) : Prop :=
  ∀ input value rest, format.read input = .ok (value, rest) →
    format.Reads value ∧ ∃ form, input = form ++ rest ∧ Form value form

/-- What is read has been in its written form, and it reads back from there. -/
structure Exact (format : Format α) : Prop where
  canonical : format.Canonical
  reads : ∀ input value rest, format.read input = .ok (value, rest) → format.Reads value

lemma Reads.short (h : format.Reads value) : format.ReadsShort value := fun _ => h

lemma ReadsFrom.mono {Form' : α → Bytes → Prop} (h : format.ReadsFrom Form)
    (hform : ∀ value form, Form value form → Form' value form) : format.ReadsFrom Form' := by
  intro input value rest hread
  obtain ⟨hreads, form, hinput, hspelled⟩ := h input value rest hread
  exact ⟨hreads, form, hinput, hform value form hspelled⟩

lemma Exact.readsFrom (h : format.Exact) :
    format.ReadsFrom fun value form => form = format.write value :=
  fun input value rest hread =>
    ⟨h.reads input value rest hread, _, h.canonical input value rest hread, rfl⟩

lemma ReadsFrom.exact (h : format.ReadsFrom fun value form => form = format.write value) :
    format.Exact where
  canonical input value rest hread := by
    obtain ⟨-, form, hinput, rfl⟩ := h input value rest hread
    exact hinput
  reads input value rest hread := (h input value rest hread).1

/-- A format is exact if some values are read from their written form, and no others. -/
lemma exact_of_read_eq_ok_iff {p : α → Prop}
    (h : ∀ input value rest, format.read input = .ok (value, rest) ↔
      p value ∧ input = format.write value ++ rest) : format.Exact where
  canonical input value rest hread := ((h input value rest).1 hread).2
  reads input value rest hread _ := (h _ _ _).2 ⟨((h input value rest).1 hread).1, rfl⟩

lemma Reads.decode (h : format.Reads value) (rest : Bytes) :
    format.decode (format.write value ++ rest) = .ok value := by
  rw [Format.decode, h rest]
  rfl

/-! ## Building formats -/

section Prod

variable {b : β} {Form' : β → Bytes → Prop}

lemma Reads.prod (h : first.Reads value) (h' : second.Reads b) :
    (first.prod second).Reads (value, b) := by
  intro rest
  refine bind_eq_ok_iff.2 ⟨(value, second.write b ++ rest), ?_, ?_⟩
  · rw [Format.prod, List.append_assoc]
    exact h _
  · exact bind_eq_ok_iff.2 ⟨(b, rest), h' rest, rfl⟩

lemma ReadsShort.prod (h : first.ReadsShort value) (h' : second.ReadsShort b) :
    (first.prod second).ReadsShort (value, b) := by
  intro hlength
  have hlength : (first.write value ++ second.write b).length < UInt64.size := hlength
  rw [List.length_append] at hlength
  exact (h (by omega)).prod (h' (by omega))

lemma ReadsFrom.prod (h : first.ReadsFrom Form) (h' : second.ReadsFrom Form') :
    (first.prod second).ReadsFrom fun value form =>
      ∃ front back, form = front ++ back ∧ Form value.1 front ∧ Form' value.2 back := by
  intro input value rest hread
  obtain ⟨⟨a, middle⟩, hfirst, hread⟩ := bind_eq_ok_iff.1 hread
  obtain ⟨⟨b, last⟩, hsecond, hread⟩ := bind_eq_ok_iff.1 hread
  cases hread
  obtain ⟨hreads, front, hfront, hform⟩ := h _ _ _ hfirst
  obtain ⟨hreads', back, hback, hform'⟩ := h' _ _ _ hsecond
  refine ⟨hreads.prod hreads', front ++ back, ?_, front, back, rfl, hform, hform'⟩
  rw [hfront, hback, List.append_assoc]

lemma Exact.prod (h : first.Exact) (h' : second.Exact) : (first.prod second).Exact := by
  refine ((h.readsFrom.prod h'.readsFrom).mono ?_).exact
  rintro value form ⟨front, back, rfl, rfl, rfl⟩
  rfl

end Prod

section Map

variable {forth : α → β} {back : β → α} {b : β}

lemma Reads.map (h : format.Reads (back b)) (hforth : forth (back b) = b) :
    (format.map forth back).Reads b := by
  intro rest
  refine bind_eq_ok_iff.2 ⟨(back b, rest), h rest, ?_⟩
  exact congrArg (fun b => Except.ok (b, rest)) hforth

lemma ReadsShort.map (h : format.ReadsShort (back b)) (hforth : forth (back b) = b) :
    (format.map forth back).ReadsShort b :=
  fun hlength => (h hlength).map hforth

lemma ReadsFrom.map (h : format.ReadsFrom Form)
    (hback : ∀ input value rest, format.read input = .ok (value, rest) →
      back (forth value) = value) :
    (format.map forth back).ReadsFrom fun b form => Form (back b) form := by
  intro input b rest hread
  obtain ⟨⟨a, middle⟩, hinner, hread⟩ := bind_eq_ok_iff.1 hread
  cases hread
  have hsame := hback _ _ _ hinner
  obtain ⟨hreads, form, hinput, hform⟩ := h _ _ _ hinner
  refine ⟨Reads.map (hsame.symm ▸ hreads) (congrArg forth hsame), form, hinput, ?_⟩
  show Form (back (forth a)) form
  rwa [hsame]

lemma Exact.map (h : format.Exact)
    (hback : ∀ input value rest, format.read input = .ok (value, rest) →
      back (forth value) = value) : (format.map forth back).Exact :=
  (h.readsFrom.map hback).exact

end Map

section Refine

variable {forth : α → Except BinaryError β} {back : β → α} {b : β}

lemma Reads.refine (h : format.Reads (back b)) (hforth : forth (back b) = .ok b) :
    (format.refine forth back).Reads b := by
  intro rest
  exact bind_eq_ok_iff.2 ⟨(back b, rest), h rest, bind_eq_ok_iff.2 ⟨b, hforth, rfl⟩⟩

lemma Exact.refine (h : format.Exact) (hback : ∀ a b, forth a = .ok b → back b = a) :
    (format.refine forth back).Exact := by
  refine ReadsFrom.exact fun input b rest hread => ?_
  obtain ⟨⟨a, middle⟩, hinner, hread⟩ := bind_eq_ok_iff.1 hread
  obtain ⟨b, hforth, hread⟩ := bind_eq_ok_iff.1 hread
  cases hread
  obtain rfl := hback a b hforth
  exact ⟨(h.reads _ _ _ hinner).refine hforth, _, h.canonical _ _ _ hinner, rfl⟩

end Refine

section Option

variable {found : Option α}

lemma Reads.option (h : ∀ value, found = some value → format.Reads value) :
    format.option.Reads found := by
  intro rest
  cases found with
  | none => rfl
  | some value => exact bind_eq_ok_iff.2 ⟨(value, rest), h value rfl rest, rfl⟩

lemma ReadsShort.option (h : ∀ value, found = some value → format.ReadsShort value) :
    format.option.ReadsShort found := by
  intro hlength
  refine Reads.option ?_
  rintro value rfl
  have hle : (format.write value).length ≤ (format.option.write (some value)).length := by
    simp [Format.option]
  exact h value rfl (hle.trans_lt hlength)

/-- The first byte says whether there is a value, and nothing else may stand there. -/
lemma read_option_eq_ok_iff :
    format.option.read input = .ok (found, rest) ↔
      (input = 0 :: rest ∧ found = none) ∨
        ∃ value form, input = 1 :: form ∧ found = some value ∧
          format.read form = .ok (value, rest) := by
  constructor
  · intro h
    unfold Format.option at h
    dsimp only at h
    split at h
    · cases h
    · cases h
      exact .inl ⟨rfl, rfl⟩
    · obtain ⟨⟨value, last⟩, hvalue, h⟩ := bind_eq_ok_iff.1 h
      cases h
      exact .inr ⟨value, _, rfl, rfl, hvalue⟩
    · cases h
  · rintro (⟨rfl, rfl⟩ | ⟨value, form, rfl, rfl, hvalue⟩)
    · rfl
    · exact bind_eq_ok_iff.2 ⟨(value, rest), hvalue, rfl⟩

lemma Exact.option (h : format.Exact) : format.option.Exact := by
  refine ReadsFrom.exact fun input found rest hread => ?_
  rcases read_option_eq_ok_iff.1 hread with ⟨rfl, rfl⟩ | ⟨value, form, rfl, rfl, hvalue⟩
  · exact ⟨Reads.option nofun, [0], rfl, rfl⟩
  · refine ⟨Reads.option ?_, _, congrArg (1 :: ·) (h.canonical _ _ _ hvalue), rfl⟩
    rintro _ ⟨⟩
    exact h.reads _ _ _ hvalue

end Option

/-! ## Numbers -/

lemma read_number_eq_ok_iff {n number : ℕ} :
    (Format.number n).read input = .ok (number, rest) ↔
      number < Nat.pow 256 n ∧ input = littleEndian n number ++ rest := by
  rw [Format.number]
  constructor
  · intro h
    dsimp only at h
    split at h
    · rename_i hlength
      cases h
      have htake : (input.take n).length = n := List.length_take_of_le hlength
      have hlt := ofLittleEndian_lt (input.take n)
      have hwrite := littleEndian_ofLittleEndian (input.take n)
      rw [htake] at hlt hwrite
      exact ⟨hlt, by rw [hwrite, List.take_append_drop]⟩
    · cases h
  · rintro ⟨hlt, rfl⟩
    have hlength := length_littleEndian n number
    have hvalue : ofLittleEndian (littleEndian n number) = number := by
      rw [ofLittleEndian_littleEndian]
      exact Nat.mod_eq_of_lt hlt
    simp [List.take_left' hlength, List.drop_left' hlength, hvalue]

lemma reads_number {n number : ℕ} (h : number < Nat.pow 256 n) : (Format.number n).Reads number :=
  fun _ => read_number_eq_ok_iff.2 ⟨h, rfl⟩

lemma exact_number (n : ℕ) : (Format.number n).Exact :=
  exact_of_read_eq_ok_iff fun _ _ _ => read_number_eq_ok_iff

/-- Values that are written as numbers of `n` bytes, each number for one value. -/
lemma exact_number_map {n : ℕ} {ofNat : ℕ → α} {toNat : α → ℕ}
    (h : ∀ number < Nat.pow 256 n, toNat (ofNat number) = number) :
    ((Format.number n).map ofNat toNat).Exact :=
  (exact_number n).map fun _ _ _ hread => h _ (read_number_eq_ok_iff.1 hread).1

/-- Values that are written as numbers of `n` bytes, each value as one number. -/
lemma reads_number_map {n : ℕ} {ofNat : ℕ → α} {toNat : α → ℕ} (hlt : toNat value < Nat.pow 256 n)
    (h : ofNat (toNat value) = value) : ((Format.number n).map ofNat toNat).Reads value :=
  (reads_number hlt).map h

lemma reads_word8 (word : UInt8) : word8.Reads word :=
  reads_number_map word.toNat_lt UInt8.ofNat_toNat

lemma reads_word32 (word : UInt32) : word32.Reads word :=
  reads_number_map word.toNat_lt UInt32.ofNat_toNat

lemma reads_word64 (word : UInt64) : word64.Reads word :=
  reads_number_map word.toNat_lt UInt64.ofNat_toNat

lemma reads_word128 (word : Fin (UInt64.size * UInt64.size)) : word128.Reads word :=
  reads_number_map word.isLt (Fin.ofNat_val_eq_self word)

lemma exact_word8 : word8.Exact :=
  exact_number_map fun _ hlt => UInt8.toNat_ofNat_of_lt hlt

lemma exact_word32 : word32.Exact :=
  exact_number_map fun _ hlt => UInt32.toNat_ofNat_of_lt hlt

lemma exact_word64 : word64.Exact :=
  exact_number_map fun _ hlt => UInt64.toNat_ofNat_of_lt hlt

lemma exact_word128 : word128.Exact :=
  exact_number_map fun _ hlt => Nat.mod_eq_of_lt hlt

lemma reads_bool (value : Bool) : bool.Reads value := by
  refine (reads_word8 _).refine ?_
  cases value <;> rfl

/-- Of all bytes only those that are written for a truth value are read as one. -/
lemma exact_bool : bool.Exact := by
  refine exact_word8.refine fun byte value hvalue => ?_
  split at hvalue
  · rename_i hzero
    cases hvalue
    exact hzero.symm
  · split at hvalue
    · rename_i hone
      cases hvalue
      exact hone.symm
    · cases hvalue

/-! ## Lists -/

lemma read_count_eq_ok_iff {count : ℕ} :
    (Format.number 8).read input = .ok (count, rest) ↔
      count < UInt64.size ∧ input = littleEndian 8 count ++ rest := by
  have hpow : Nat.pow 256 8 = UInt64.size := by decide
  rw [read_number_eq_ok_iff, hpow]

section List

variable {values : List α} {count : ℕ}

lemma readMany_flatMap (h : ∀ value ∈ values, format.Reads value) (rest : Bytes) :
    format.readMany values.length (values.flatMap format.write ++ rest) = .ok (values, rest) := by
  induction values with
  | nil => rfl
  | cons value values ih =>
    obtain ⟨hvalue, hvalues⟩ := List.forall_mem_cons.1 h
    refine bind_eq_ok_iff.2 ⟨(value, values.flatMap format.write ++ rest), ?_, ?_⟩
    · rw [List.flatMap_cons, List.append_assoc]
      exact hvalue _
    · exact bind_eq_ok_iff.2 ⟨(values, rest), ih hvalues, rfl⟩

lemma Reads.list (h : ∀ value ∈ values, format.Reads value) (hcount : values.length < UInt64.size) :
    format.list.Reads values := by
  intro rest
  refine bind_eq_ok_iff.2 ⟨(values.length, values.flatMap format.write ++ rest), ?_, ?_⟩
  · rw [Format.list, List.append_assoc]
    exact read_count_eq_ok_iff.2 ⟨hcount, rfl⟩
  · exact readMany_flatMap h rest

/-- The form of an element is part of the form of the list. -/
lemma length_write_le_of_mem (h : value ∈ values) :
    (format.write value).length ≤ (values.flatMap format.write).length := by
  rw [List.flatMap_def]
  exact (List.sublist_flatten_of_mem (List.mem_map_of_mem h)).length_le

/-- If the forms of the elements are not empty, there are at least as many bytes as elements. -/
lemma length_le_length_flatMap (h : ∀ value ∈ values, format.write value ≠ []) :
    values.length ≤ (values.flatMap format.write).length := by
  rw [List.length_flatMap, ← List.length_map fun value => (format.write value).length]
  refine List.length_le_sum_of_one_le _ fun length hlength => ?_
  obtain ⟨value, hvalue, rfl⟩ := List.mem_map.1 hlength
  exact List.length_pos_of_ne_nil (h value hvalue)

lemma ReadsShort.list (h : ∀ value ∈ values, format.ReadsShort value)
    (hsome : ∀ value ∈ values, format.write value ≠ []) : format.list.ReadsShort values := by
  intro hlength
  have hshort : (values.flatMap format.write).length < UInt64.size := by
    rw [Format.list, List.length_append] at hlength
    omega
  have heach : ∀ value ∈ values, format.Reads value := fun value hvalue =>
    h value hvalue ((length_write_le_of_mem hvalue).trans_lt hshort)
  exact Reads.list heach ((length_le_length_flatMap hsome).trans_lt hshort)

/-- What many values are read from is one form after the other. -/
lemma ReadsFrom.readMany (h : format.ReadsFrom Form)
    (hread : format.readMany count input = .ok (values, rest)) :
    values.length = count ∧ (∀ value ∈ values, format.Reads value) ∧
      ∃ forms, List.Forall₂ Form values forms ∧ input = forms.flatten ++ rest := by
  induction count generalizing input values with
  | zero =>
    cases hread
    exact ⟨rfl, by simp, [], .nil, rfl⟩
  | succ count ih =>
    obtain ⟨⟨value, middle⟩, hvalue, hread⟩ := bind_eq_ok_iff.1 hread
    obtain ⟨⟨others, last⟩, hothers, hread⟩ := bind_eq_ok_iff.1 hread
    cases hread
    obtain ⟨hreads, form, rfl, hform⟩ := h _ _ _ hvalue
    obtain ⟨rfl, hall, forms, hforms, rfl⟩ := ih hothers
    refine ⟨rfl, List.forall_mem_cons.2 ⟨hreads, hall⟩, form :: forms, .cons hform hforms, ?_⟩
    rw [List.flatten_cons, List.append_assoc]

lemma ReadsFrom.list (h : format.ReadsFrom Form) :
    format.list.ReadsFrom fun values form =>
      ∃ forms, List.Forall₂ Form values forms ∧
        form = littleEndian 8 values.length ++ forms.flatten := by
  intro input values rest hread
  obtain ⟨⟨count, middle⟩, hcount, hread⟩ := bind_eq_ok_iff.1 hread
  obtain ⟨hlt, hinput⟩ := read_count_eq_ok_iff.1 hcount
  obtain ⟨hlength, hreads, forms, hforms, hmiddle⟩ := h.readMany hread
  refine ⟨Reads.list hreads (by rwa [hlength]), _, ?_, forms, hforms, rfl⟩
  rw [hinput, hmiddle, hlength, List.append_assoc]

lemma Exact.list (h : format.Exact) : format.list.Exact := by
  refine (h.readsFrom.list.mono ?_).exact
  rintro values form ⟨forms, hforms, rfl⟩
  obtain rfl : values.map format.write = forms := by
    rw [← List.forall₂_eq_eq_eq, List.forall₂_map_left_iff]
    exact hforms.imp fun _ _ => Eq.symm
  exact congrArg (littleEndian 8 values.length ++ ·) (List.flatMap_def ..).symm

end List

/-! ## Byte strings and texts -/

lemma read_bytes_eq_ok_iff {value : Bytes} :
    bytes.read input = .ok (value, rest) ↔
      value.length < UInt64.size ∧ input = bytes.write value ++ rest := by
  have hwrite : bytes.write value ++ rest = littleEndian 8 value.length ++ (value ++ rest) :=
    List.append_assoc ..
  rw [hwrite]
  constructor
  · intro h
    obtain ⟨⟨count, middle⟩, hcount, h⟩ := bind_eq_ok_iff.1 h
    obtain ⟨hlt, hinput⟩ := read_count_eq_ok_iff.1 hcount
    dsimp only at h
    split at h
    · rename_i hle
      cases h
      have hlength : (middle.take count).length = count := List.length_take_of_le hle
      rw [hlength, List.take_append_drop]
      exact ⟨hlt, hinput⟩
    · cases h
  · rintro ⟨hlt, rfl⟩
    refine bind_eq_ok_iff.2 ⟨(value.length, value ++ rest), read_count_eq_ok_iff.2 ⟨hlt, rfl⟩, ?_⟩
    have hle : value.length ≤ (value ++ rest).length := by simp
    dsimp only
    rw [if_pos hle, List.take_left, List.drop_left]
    rfl

/-- A text is read where its UTF-8 form is read as a byte string. -/
lemma read_text_eq_ok_iff {value : String} :
    text.read input = .ok (value, rest) ↔
      (Utf8.encode value).length < UInt64.size ∧ input = text.write value ++ rest := by
  have hbytes : bytes.read input = .ok (Utf8.encode value, rest) ↔
      (Utf8.encode value).length < UInt64.size ∧ input = text.write value ++ rest :=
    read_bytes_eq_ok_iff
  rw [← hbytes]
  unfold text bytes
  dsimp only
  rw [bind_eq_ok_iff, bind_eq_ok_iff]
  refine exists_congr fun ⟨count, middle⟩ => and_congr_right fun _ => ?_
  dsimp only
  split
  · have hsame : Utf8.decode (middle.take count) = .ok value ↔
        middle.take count = Utf8.encode value := Utf8.decode_eq_ok_iff.trans eq_comm
    cases hdecode : Utf8.decode (middle.take count) with
    | ok found =>
      rw [hdecode] at hsame
      simp [pure, Except.pure, ← hsame]
    | error cause =>
      rw [hdecode] at hsame
      simp [pure, Except.pure, ← hsame]
  · simp

lemma reads_bytes {value : Bytes} (h : value.length < UInt64.size) : bytes.Reads value :=
  fun _ => read_bytes_eq_ok_iff.2 ⟨h, rfl⟩

lemma readsShort_bytes (value : Bytes) : bytes.ReadsShort value := by
  intro hlength
  have hle : value.length ≤ (bytes.write value).length := by simp [bytes]
  exact reads_bytes (hle.trans_lt hlength)

lemma exact_bytes : bytes.Exact := exact_of_read_eq_ok_iff fun _ _ _ => read_bytes_eq_ok_iff

lemma readsShort_text (value : String) : text.ReadsShort value := by
  intro hlength rest
  have hle : (Utf8.encode value).length ≤ (text.write value).length := by simp [text, bytes]
  exact read_text_eq_ok_iff.2 ⟨hle.trans_lt hlength, rfl⟩

lemma exact_text : text.Exact := exact_of_read_eq_ok_iff fun _ _ _ => read_text_eq_ok_iff

lemma reads_identifier {kind : IdentifierKind} (id : Identifier kind) :
    (identifier kind).Reads id := by
  have hlength : id.toList.length < UInt64.size := by
    rw [id.length_toList]
    cases kind <;> decide
  refine (reads_bytes hlength).refine ?_
  rw [Identifier.ofList?_toList]

lemma exact_identifier (kind : IdentifierKind) : (identifier kind).Exact := by
  refine exact_bytes.refine fun input id hid => ?_
  split at hid
  · rename_i hsome
    cases hid
    obtain ⟨bytes, hbytes, rfl⟩ := Option.map_eq_some_iff.1 hsome
    exact FixedBytes.ofList?_eq_some_iff.1 hbytes
  · cases hid

lemma readsShort_address {value : Address} (h : value.Fits) : address.ReadsShort value := by
  intro hlength
  exact (readsShort_bytes value.toBytes hlength).refine (mapError_eq_ok_iff.2 h.ofBytes_toBytes)

lemma exact_address : address.Exact := by
  refine exact_bytes.refine fun input value hvalue => ?_
  exact (Address.ofBytes_eq_ok_iff.1 (mapError_eq_ok_iff.1 hvalue)).2.symm

/-! ## Hexadecimal texts -/

lemma reads_hex {value : Bytes} (h : (Utf8.encode (Hex.encode value)).length < UInt64.size) :
    hex.Reads value := by
  have htext : text.Reads (Hex.encode value) := fun _ => read_text_eq_ok_iff.2 ⟨h, rfl⟩
  exact htext.refine (mapError_eq_ok_iff.2 (Hex.decode_encode value))

lemma readsShort_hex (value : Bytes) : hex.ReadsShort value := by
  intro hlength
  have hle : (Utf8.encode (Hex.encode value)).length ≤ (hex.write value).length := by
    simp [hex, refine, text, bytes]
  exact reads_hex (hle.trans_lt hlength)

/-- A byte string is read from its digits, of which some may be in capitals. -/
lemma readsFrom_hex :
    hex.ReadsFrom fun value form =>
      ∃ digits : String, digits.toLower = Hex.encode value ∧ form = text.write digits := by
  intro input value rest hread
  obtain ⟨⟨digits, middle⟩, htext, hread⟩ := bind_eq_ok_iff.1 hread
  obtain ⟨bytes, hbytes, hread⟩ := bind_eq_ok_iff.1 hread
  cases hread
  obtain ⟨hlt, hinput⟩ := read_text_eq_ok_iff.1 htext
  obtain ⟨hlower, hlength⟩ := Hex.toLower_of_decode (mapError_eq_ok_iff.1 hbytes)
  rw [hlength] at hlt
  exact ⟨reads_hex hlt, _, hinput, digits, hlower, rfl⟩

/-! ## Sums -/

section Sum

variable {number : ℕ} {content : Format β} {ctor : β → α} {b : β}

/-- An alternative of a sum: the values that `ctor` forms are written and read, behind a number of
their own, as what they are formed from. -/
structure Alternative (format : Format α) (number : ℕ) (content : Format β) (ctor : β → α) :
    Prop where
  write_eq : ∀ b, format.write (ctor b) = littleEndian 4 number ++ content.write b
  read_eq : ∀ input, format.read (littleEndian 4 number ++ input) =
    (do return (← content.read input).map ctor id)

namespace Alternative

lemma reads (halt : format.Alternative number content ctor) (h : content.Reads b) :
    format.Reads (ctor b) := by
  intro rest
  rw [halt.write_eq, List.append_assoc, halt.read_eq]
  exact bind_eq_ok_iff.2 ⟨(b, rest), h rest, rfl⟩

lemma readsShort (halt : format.Alternative number content ctor) (h : content.ReadsShort b) :
    format.ReadsShort (ctor b) := by
  intro hlength
  rw [halt.write_eq, List.length_append] at hlength
  exact halt.reads (h (by omega))

end Alternative

variable {count : ℕ} {tag : α → ℕ} {write : α → Bytes}
  {read : ℕ → Bytes → Except BinaryError (α × Bytes)}

lemma read_tag_eq_ok_iff {tag : ℕ} :
    (Format.number 4).read input = .ok (tag, rest) ↔
      tag < UInt32.size ∧ input = littleEndian 4 tag ++ rest := by
  have hpow : Nat.pow 256 4 = UInt32.size := by decide
  rw [read_number_eq_ok_iff, hpow]

lemma alternative_sum (hcount : count ≤ UInt32.size) (hnumber : number < count)
    (htag : ∀ b, tag (ctor b) = number) (hwrite : ∀ b, write (ctor b) = content.write b)
    (hread : ∀ input, read number input = (do return (← content.read input).map ctor id)) :
    (sum count tag write read).Alternative number content ctor where
  write_eq b := by
    rw [← hwrite, ← htag b]
    rfl
  read_eq input := by
    have htagged : (Format.number 4).read (littleEndian 4 number ++ input) = .ok (number, input) :=
      read_tag_eq_ok_iff.2 ⟨hnumber.trans_le hcount, rfl⟩
    rw [← hread, sum]
    dsimp only
    rw [htagged]
    exact if_pos hnumber

/-- What is read as a sum has been in a form of one of the alternatives, behind its number. -/
lemma readsFrom_sum (h : ∀ number < count, ∃ (β : Type) (content : Format β) (ctor : β → α)
      (Form' : β → Bytes → Prop), (sum count tag write read).Alternative number content ctor ∧
        content.ReadsFrom Form' ∧
        ∀ b form, Form' b form → Form (ctor b) (littleEndian 4 number ++ form)) :
    (sum count tag write read).ReadsFrom Form := by
  intro input value rest hread
  obtain ⟨⟨number, middle⟩, htag, hcontent⟩ := bind_eq_ok_iff.1 hread
  obtain ⟨-, rfl⟩ := read_tag_eq_ok_iff.1 htag
  dsimp only at hcontent
  split at hcontent
  · rename_i hnumber
    obtain ⟨β, content, ctor, Form', halt, hfrom, hform⟩ := h number hnumber
    rw [halt.read_eq] at hread
    obtain ⟨⟨b, last⟩, hb, hread⟩ := bind_eq_ok_iff.1 hread
    cases hread
    obtain ⟨hreads, form, rfl, hspelled⟩ := hfrom _ _ _ hb
    refine ⟨halt.reads hreads, _, ?_, hform b form hspelled⟩
    rw [List.append_assoc, id_eq]
  · cases hcontent

lemma exact_sum (h : ∀ number < count, ∃ (β : Type) (content : Format β) (ctor : β → α),
      (sum count tag write read).Alternative number content ctor ∧ content.Exact) :
    (sum count tag write read).Exact := by
  refine ReadsFrom.exact (readsFrom_sum fun number hnumber => ?_)
  obtain ⟨β, content, ctor, halt, hexact⟩ := h number hnumber
  refine ⟨β, content, ctor, _, halt, hexact.readsFrom, ?_⟩
  rintro b form rfl
  rw [halt.write_eq]

/-- The form of a sum is not empty. -/
lemma write_sum_ne_nil (value : α) : (sum count tag write read).write value ≠ [] := by
  have hlength : ((sum count tag write read).write value).length ≠ 0 := by
    rw [sum, List.length_append, number, length_littleEndian]
    omega
  exact fun h => hlength (congrArg List.length h)

end Sum

end Format

end OutputIndex
