import Mathlib.Data.List.Basic
import OutputIndex.Json.Printer
import OutputIndex.Json.Reader
import OutputIndex.Proofs.Text

/-!
# Reading JSON text back

The compact form of a document is read back as the document (`Json.ofBytes?_compactBytes`), and it
is all on one line (`Json.Plain.printable`).  This holds of documents whose numbers are natural
numbers and whose text literals denote text (`Json.Plain`): all that the ledger is written as.

The reader takes a step for every level and every element, and the claim about a document counts
them (`Json.ReadsBack`): twice the number of its bytes is enough.  It is by induction on the
document, where the elements of an array and the members of an object are an induction of their own.
-/

namespace OutputIndex.Json

/-! ## Text literals -/

/-- Inside a text literal, some bytes are read as pieces that stand for others, and there is no
control character among them. -/
structure Spells (written meant : Bytes) : Prop where
  printable : ∀ byte ∈ written, 0x20 ≤ byte
  read : ∃ pieces : List Piece,
    (∀ rest, readPieces (written ++ rest) =
      (readPieces rest).map fun read => (pieces ++ read.1, read.2)) ∧
    ∀ others, assemble (pieces ++ others) = (assemble others).map (meant ++ ·)

namespace Spells

variable {first second meant others : Bytes}

lemma nil : Spells [] [] := ⟨nofun, [], by simp, by simp⟩

lemma append (h : Spells first meant) (h' : Spells second others) :
    Spells (first ++ second) (meant ++ others) where
  printable byte hbyte := (List.mem_append.1 hbyte).elim (h.printable byte) (h'.printable byte)
  read := by
    obtain ⟨pieces, hread, hassemble⟩ := h.read
    obtain ⟨more, hread', hassemble'⟩ := h'.read
    refine ⟨pieces ++ more, fun rest => ?_, fun last => ?_⟩
    · rw [List.append_assoc, hread, hread', Option.map_map]
      exact Option.map_congr fun _ _ => by simp
    · rw [List.append_assoc, hassemble, hassemble', Option.map_map]
      exact Option.map_congr fun _ _ => by simp

lemma assemble_byte (byte : UInt8) (others : List Piece) :
    assemble ([.byte byte] ++ others) = (assemble others).map ([byte] ++ ·) := by
  have hassemble : assemble (.byte byte :: others) = do return byte :: (← assemble others) := rfl
  rw [List.singleton_append, hassemble]
  cases assemble others <;> rfl

/-- A byte that needs no escape stands for itself. -/
lemma byte {byte : UInt8} (hcontrol : 0x20 ≤ byte) (hquote : byte ≠ 0x22)
    (hescape : byte ≠ 0x5c) : Spells [byte] [byte] where
  printable other hother := List.mem_singleton.1 hother ▸ hcontrol
  read := by
    refine ⟨[.byte byte], fun rest => ?_, assemble_byte byte⟩
    have hplain : (decide (byte < 0x20) || byte == 0x5c) = false := by
      simp [hcontrol, hescape]
    have hread : readPieces (byte :: rest) =
        (readPieces rest).map fun read => (.byte byte :: read.1, read.2) := by
      rw [readPieces.eq_def]
      split
      case h_5 heq =>
        obtain ⟨rfl, rfl⟩ := List.cons.inj heq
        rw [hplain]
        cases readPieces rest <;> rfl
      all_goals simp_all
    exact hread

lemma bytes {bytes : Bytes}
    (h : ∀ byte ∈ bytes, 0x20 ≤ byte ∧ byte ≠ 0x22 ∧ byte ≠ 0x5c) : Spells bytes bytes := by
  induction bytes with
  | nil => exact nil
  | cons first rest ih =>
    obtain ⟨hcontrol, hquote, hescape⟩ := h first List.mem_cons_self
    exact (byte hcontrol hquote hescape).append (ih fun b hb => h b (List.mem_cons_of_mem _ hb))

/-- An escape of one character. -/
lemma escaped {mark value : UInt8} (hprintable : 0x20 ≤ mark) (h : escaped? mark = some value) :
    Spells [0x5c, mark] [value] where
  printable := by simp [hprintable]
  read := by
    refine ⟨[.byte value], fun rest => ?_, assemble_byte value⟩
    have hunit : mark ≠ 0x75 := by
      rintro rfl
      cases h
    have hread : readPieces (0x5c :: mark :: rest) =
        (readPieces rest).map fun read => (.byte value :: read.1, read.2) := by
      rw [readPieces, h]
      · cases readPieces rest <;> rfl
      · intro _ _ _ _ _ heq
        exact absurd heq hunit
    exact hread

/-- An escape of four digits that is no half of a surrogate pair. -/
lemma unit {a b c d : UInt8} {value : ℕ} (hprintable : ∀ byte ∈ [a, b, c, d], 0x20 ≤ byte)
    (h : fourDigits? a b c d = some value) (hvalue : codePoint? value = some meant)
    (hlow : value < 0xd800) : Spells (0x5c :: 0x75 :: [a, b, c, d]) meant where
  printable := List.forall_mem_cons.2 ⟨by decide, List.forall_mem_cons.2 ⟨by decide, hprintable⟩⟩
  read := by
    refine ⟨[.unit value], fun rest => ?_, fun others => ?_⟩
    · have hread : readPieces (0x5c :: 0x75 :: a :: b :: c :: d :: rest) =
          (readPieces rest).map fun read => (.unit value :: read.1, read.2) := by
        rw [readPieces, h]
        cases readPieces rest <;> rfl
      exact hread
    · have hassemble : assemble (.unit value :: others) = do
          return (← codePoint? value) ++ (← assemble others) := by
        cases others with
        | nil => rfl
        | cons next others =>
          cases next with
          | byte _ => rfl
          | unit low =>
            rw [assemble, if_neg]
            omega
      rw [List.singleton_append, hassemble, hvalue]
      cases assemble others <;> rfl

end Spells

/-- The byte of a hexadecimal digit. -/
def digitByte (value : ℕ) : UInt8 := UInt8.ofNat (Nat.digitChar value).toNat

lemma encode_low_control : ∀ n < 16,
    Utf8.encode ("\\u000" ++ String.ofList (Nat.toDigits 16 n)) =
        [0x5c, 0x75, 0x30, 0x30, 0x30, digitByte n] ∧
      0x20 ≤ digitByte n ∧ fourDigits? 0x30 0x30 0x30 (digitByte n) = some n ∧
      codePoint? n = some [UInt8.ofNat n] := by
  decide +kernel

lemma encode_high_control : ∀ n < 32, 16 ≤ n →
    Utf8.encode ("\\u00" ++ String.ofList (Nat.toDigits 16 n)) =
        [0x5c, 0x75, 0x30, 0x30, 0x31, digitByte (n - 16)] ∧
      0x20 ≤ digitByte (n - 16) ∧ fourDigits? 0x30 0x30 0x31 (digitByte (n - 16)) = some n ∧
      codePoint? n = some [UInt8.ofNat n] := by
  decide +kernel

/-- The bytes of a character that needs no escape need none either. -/
lemma plain_of_mem_utf8EncodeChar {c : Char} {byte : UInt8} (hcontrol : 32 ≤ c.toNat)
    (hquote : c ≠ '"') (hescape : c ≠ '\\') (hbyte : byte ∈ String.utf8EncodeChar c) :
    0x20 ≤ byte ∧ byte ≠ 0x22 ∧ byte ≠ 0x5c := by
  by_cases hascii : byte < 0x80
  · have hnat := Utf8.toNat_of_mem_utf8EncodeChar hascii hbyte
    refine ⟨?_, ?_, ?_⟩
    · rw [UInt8.le_iff_toNat_le, ← hnat]
      exact hcontrol
    · rintro rfl
      exact hquote (Char.toNat_inj.1 hnat)
    · rintro rfl
      exact hescape (Char.toNat_inj.1 hnat)
  · have hle : 0x80 ≤ byte := UInt8.not_lt.1 hascii
    refine ⟨UInt8.le_trans (by decide) hle, ?_, ?_⟩
    all_goals
      rintro rfl
      exact absurd hle (by decide)

lemma spells_of_escaped {c : Char} {text : String} (mark : UInt8) {value : UInt8}
    (htext : Utf8.encode text = [0x5c, mark]) (hprintable : 0x20 ≤ mark)
    (hmark : escaped? mark = some value) (hchar : String.utf8EncodeChar c = [value]) :
    Spells (Utf8.encode text) (String.utf8EncodeChar c) := by
  rw [htext, hchar]
  exact .escaped hprintable hmark

/-- A character as it is written in a text literal stands for itself. -/
lemma spells_escape (c : Char) : Spells (Utf8.encode (escape c)) (String.utf8EncodeChar c) := by
  have hascii : c.toNat < 32 → String.utf8EncodeChar c = [UInt8.ofNat c.toNat] := by
    intro hlt
    rcases Utf8.utf8EncodeChar_cases c with ⟨-, h⟩ | ⟨hle, -⟩
    · exact h
    · omega
  unfold escape
  split_ifs with hquote hescape hfeed hreturn htab hback hform hlow hhigh
  · subst hquote
    exact spells_of_escaped 0x22 rfl (by decide) rfl rfl
  · subst hescape
    exact spells_of_escaped 0x5c rfl (by decide) rfl rfl
  · subst hfeed
    exact spells_of_escaped 0x6e rfl (by decide) rfl rfl
  · subst hreturn
    exact spells_of_escaped 0x72 rfl (by decide) rfl rfl
  · subst htab
    exact spells_of_escaped 0x74 rfl (by decide) rfl rfl
  · have hchar := hascii (by omega)
    rw [hback] at hchar
    exact spells_of_escaped 0x62 rfl (by decide) rfl hchar
  · have hchar := hascii (by omega)
    rw [hform] at hchar
    exact spells_of_escaped 0x66 rfl (by decide) rfl hchar
  · obtain ⟨hencode, hprintable, hdigits, hpoint⟩ := encode_low_control c.toNat hlow
    rw [hencode, hascii (by omega)]
    exact .unit (by simp [hprintable]) hdigits hpoint (by omega)
  · obtain ⟨hencode, hprintable, hdigits, hpoint⟩ := encode_high_control c.toNat hhigh (by omega)
    rw [hencode, hascii hhigh]
    exact .unit (by simp [hprintable]) hdigits hpoint (by omega)
  · have hencode : Utf8.encode (String.singleton c) = String.utf8EncodeChar c := by
      simp [Utf8.encode_eq_flatMap]
    rw [hencode]
    exact .bytes fun byte => plain_of_mem_utf8EncodeChar (by omega) hquote hescape

/-- The bytes of a text literal between its quotes. -/
def quoted (text : String) : Bytes := Utf8.encode (String.join (text.toList.map escape))

lemma spells_quoted (text : String) : Spells (quoted text) (Utf8.encode text) := by
  have hjoin : quoted text = text.toList.flatMap fun c => Utf8.encode (escape c) := by
    simp only [quoted, Utf8.encode_eq_flatMap, String.toList_join, List.flatMap_map,
      List.flatMap_assoc]
  rw [hjoin, Utf8.encode_eq_flatMap text]
  induction text.toList with
  | nil => exact .nil
  | cons c rest ih =>
    rw [List.flatMap_cons, List.flatMap_cons]
    exact (spells_escape c).append ih

/-- What is written of a text up to the closing quote is read back. -/
lemma readPieces_quoted (text : String) (rest : Bytes) :
    ∃ pieces, readPieces (quoted text ++ 0x22 :: rest) = some (pieces, rest) ∧
      assembleText pieces = some text := by
  obtain ⟨pieces, hread, hassemble⟩ := (spells_quoted text).read
  refine ⟨pieces, ?_, ?_⟩
  · have hend : readPieces (0x22 :: rest) = some ([], rest) := by rw [readPieces]
    rw [hread, hend, Option.map_some, List.append_nil]
  · have hmeant := hassemble []
    have hnil : assemble [] = some [] := rfl
    rw [List.append_nil, hnil, Option.map_some, List.append_nil] at hmeant
    rw [assembleText, hmeant]
    exact Utf8.fromUTF8?_encode text

lemma encode_quote (text : String) :
    Utf8.encode (quote text) = 0x22 :: (quoted text ++ [0x22]) := by
  rw [quote, Utf8.encode_append, Utf8.encode_append]
  rfl

/-! ## Numbers -/

/-- Nothing that would go on with a number is at the front. -/
def EndsNumber (rest : Bytes) : Prop :=
  ∀ byte ∈ rest.head?, isDigit byte = false ∧ byte ≠ 0x2e ∧ byte ≠ 0x65 ∧ byte ≠ 0x45

lemma readTail_of_endsNumber {rest : Bytes} (h : EndsNumber rest) :
    readTail rest = some ([], rest) := by
  cases rest with
  | nil => rfl
  | cons byte rest =>
    obtain ⟨-, hpoint, hsmall, hlarge⟩ := h byte rfl
    cases rest <;> simp [readTail, hpoint, hsmall, hlarge]

/-- The decimal digits of a number. -/
def digitsOf (value : ℕ) : Bytes := (Nat.toDigits 10 value).map fun c => UInt8.ofNat c.toNat

lemma toNat_of_mem_toDigits {value : ℕ} {c : Char} (h : c ∈ Nat.toDigits 10 value) :
    48 ≤ c.toNat ∧ c.toNat ≤ 57 := by
  have hdigit : c.isDigit = true := Nat.isDigit_of_mem_toDigits (by decide) (by decide) h
  simpa [Char.isDigit, UInt32.le_iff_toNat_le] using hdigit

lemma encode_natural (value : ℕ) : Utf8.encode (toString value) = digitsOf value := by
  have hchars : (toString value).toList = Nat.toDigits 10 value := Nat.toList_repr
  rw [Utf8.encode_eq_flatMap, hchars, digitsOf, List.map_eq_flatMap]
  refine List.flatMap_congr fun c hc => ?_
  obtain ⟨-, hle⟩ := toNat_of_mem_toDigits hc
  rcases Utf8.utf8EncodeChar_cases c with ⟨-, h⟩ | ⟨hge, -⟩
  · exact h
  · omega

lemma digitsOf_ne_nil (value : ℕ) : digitsOf value ≠ [] :=
  List.map_eq_nil_iff.not.2 Nat.toDigits_ne_nil

lemma toNat_of_mem_digitsOf {value : ℕ} {byte : UInt8} (h : byte ∈ digitsOf value) :
    48 ≤ byte.toNat ∧ byte.toNat ≤ 57 := by
  obtain ⟨c, hc, rfl⟩ := List.mem_map.1 h
  obtain ⟨hle, hge⟩ := toNat_of_mem_toDigits hc
  rw [UInt8.toNat_ofNat_of_lt' (show c.toNat < 256 by omega)]
  exact ⟨hle, hge⟩

lemma isDigit_iff {byte : UInt8} :
    isDigit byte = true ↔ 48 ≤ byte.toNat ∧ byte.toNat ≤ 57 := by
  simp [isDigit, UInt8.le_iff_toNat_le]

lemma ofDigits_digitsOf (value : ℕ) : ofDigits (digitsOf value) = value := by
  have hvalue : Nat.ofDigitChars 10 (Nat.toDigits 10 value) 0 = value :=
    Nat.ofDigitChars_toDigits (by decide) (by decide)
  rw [Nat.ofDigitChars_eq_foldl] at hvalue
  rw [ofDigits, digitsOf, List.foldl_map]
  refine Eq.trans (List.foldl_ext _ _ _ fun sofar c hc => ?_) hvalue
  obtain ⟨-, hle⟩ := toNat_of_mem_toDigits hc
  rw [UInt8.toNat_ofNat_of_lt' (show c.toNat < 256 by omega)]
  rfl

/-- Only zero begins with the digit zero. -/
lemma head?_toDigits_ne {value : ℕ} (h : value ≠ 0) :
    (Nat.toDigits 10 value).head? ≠ some '0' := by
  induction value using Nat.strongRecOn with
  | ind value ih =>
    by_cases hlt : value < 10
    · rw [Nat.toDigits_of_lt_base hlt]
      simpa using h
    · rw [Nat.toDigits_of_base_le (by decide) (by omega),
        List.head?_append_of_ne_nil _ Nat.toDigits_ne_nil]
      exact ih (value / 10) (by omega) (by omega)

lemma head?_digitsOf_ne {value : ℕ} (h : value ≠ 0) : (digitsOf value).head? ≠ some 0x30 := by
  intro hhead
  rw [digitsOf, List.head?_map] at hhead
  obtain ⟨c, hc, hbyte⟩ := Option.map_eq_some_iff.1 hhead
  obtain ⟨-, hle⟩ := toNat_of_mem_toDigits (List.mem_of_mem_head? hc)
  have hnat := congrArg UInt8.toNat hbyte
  rw [UInt8.toNat_ofNat_of_lt' (show c.toNat < 256 by omega)] at hnat
  obtain rfl : c = '0' := Char.toNat_inj.1 hnat
  exact head?_toDigits_ne h hc

lemma readUnsigned_digitsOf (value : ℕ) {rest : Bytes} (hrest : EndsNumber rest) :
    readUnsigned (digitsOf value ++ rest) = some (digitsOf value, [], rest) := by
  have hdigits : ∀ byte ∈ digitsOf value, isDigit byte = true := fun byte hbyte =>
    isDigit_iff.2 (toNat_of_mem_digitsOf hbyte)
  have hfirst : rest.takeWhile isDigit = [] ∧ rest.dropWhile isDigit = rest := by
    cases rest with
    | nil => exact ⟨rfl, rfl⟩
    | cons byte rest => simp [(hrest byte rfl).1]
  have hleading : ((digitsOf value).isEmpty ||
      ((digitsOf value).head? == some 0x30 && (digitsOf value).length != 1)) = false := by
    by_cases hzero : value = 0
    · subst hzero
      rfl
    · have hempty : (digitsOf value).isEmpty = false := by
        simpa using digitsOf_ne_nil value
      simp [hempty, head?_digitsOf_ne hzero]
  rw [readUnsigned, List.takeWhile_append_of_pos hdigits, List.dropWhile_append_of_pos hdigits,
    hfirst.1, hfirst.2, List.append_nil, hleading, readTail_of_endsNumber hrest]
  rfl

/-- The digits of a number are read back. -/
lemma readNumber_digitsOf (value : ℕ) {rest : Bytes} (hrest : EndsNumber rest) :
    readNumber (digitsOf value ++ rest) = some (.natural value, rest) := by
  have hunsigned := readUnsigned_digitsOf value hrest
  obtain ⟨first, more, hcons⟩ := List.exists_cons_of_ne_nil (digitsOf_ne_nil value)
  have hfirst : first ≠ 0x2d := by
    rintro rfl
    have hmem : 0x2d ∈ digitsOf value := hcons ▸ List.mem_cons_self
    exact absurd (toNat_of_mem_digitsOf hmem) (by decide)
  have hread : readNumber (digitsOf value ++ rest) =
      some (.natural (ofDigits (digitsOf value)), rest) := by
    rw [hcons, List.cons_append] at hunsigned ⊢
    rw [readNumber, hunsigned]
    · rfl
    · rintro input ⟨⟩
      exact hfirst rfl
  rw [hread, ofDigits_digitsOf]

/-! ## Documents -/

/-- A document without numbers that are no natural numbers, and without text literals that denote no
text. -/
inductive Plain : Json → Prop where
  | null : Plain .null
  | bool (value : Bool) : Plain (.bool value)
  | natural (value : ℕ) : Plain (.natural value)
  | text (value : String) : Plain (.text value)
  | array {elements : List Json} (helements : ∀ element ∈ elements, Plain element) :
    Plain (.array elements)
  | ofFields {fields : List (String × Json)} (hfields : ∀ field ∈ fields, Plain field.2) :
    Plain (.ofFields fields)

/-- The bytes of the compact form. -/
def compactBytes (json : Json) : Bytes := Utf8.encode json.compact

/-- Parts with commas between them. -/
def commas (parts : List Bytes) : Bytes := [0x2c].intercalate parts

/-- A member of an object in its compact form. -/
def memberBytes (member : String × Json) : Bytes :=
  0x22 :: (quoted member.1 ++ 0x22 :: 0x3a :: member.2.compactBytes)

lemma commas_singleton (part : Bytes) : commas [part] = part := List.intercalate_singleton

lemma commas_cons_cons (first second : Bytes) (parts : List Bytes) :
    commas (first :: second :: parts) = first ++ 0x2c :: commas (second :: parts) := by
  simp [commas, List.intercalate_cons_cons]

lemma encode_intercalate (texts : List String) :
    Utf8.encode (",".intercalate texts) = commas (texts.map Utf8.encode) := by
  have hcomma : ",".toList.flatMap String.utf8EncodeChar = [0x2c] := rfl
  induction texts with
  | nil => rfl
  | cons first rest ih =>
    cases rest with
    | nil => simp [commas]
    | cons second rest =>
      rw [Utf8.encode_eq_flatMap, String.toList_intercalate] at ih ⊢
      simp only [List.map_cons, List.intercalate_cons_cons, List.flatMap_append,
        commas_cons_cons, hcomma, ← Utf8.encode_eq_flatMap] at ih ⊢
      rw [ih]
      simp

lemma compactElements_eq_map (elements : List Json) :
    compactElements elements = elements.map compact := by
  induction elements with
  | nil => rfl
  | cons element rest ih => rw [compactElements, ih, List.map_cons]

lemma compactMembers_eq_map (fields : List (String × Json)) :
    compactMembers (fields.map fun field => (some field.1, field.2)) =
      fields.map fun field => quote field.1 ++ ":" ++ field.2.compact := by
  induction fields with
  | nil => rfl
  | cons field rest ih => rw [List.map_cons, compactMembers, ih, List.map_cons]; rfl

lemma compactBytes_natural (value : ℕ) : (natural value).compactBytes = digitsOf value :=
  encode_natural value

lemma compactBytes_text (value : String) :
    (text value).compactBytes = 0x22 :: (quoted value ++ [0x22]) := encode_quote value

lemma compactBytes_array (elements : List Json) :
    (array elements).compactBytes = 0x5b :: (commas (elements.map compactBytes) ++ [0x5d]) := by
  rw [compactBytes, compact, Utf8.encode_append, Utf8.encode_append, encode_intercalate,
    compactElements_eq_map, List.map_map]
  rfl

lemma compactBytes_ofFields (fields : List (String × Json)) :
    (ofFields fields).compactBytes = 0x7b :: (commas (fields.map memberBytes) ++ [0x7d]) := by
  have hmember : ∀ field : String × Json,
      Utf8.encode (quote field.1 ++ ":" ++ field.2.compact) = memberBytes field := by
    intro field
    rw [Utf8.encode_append, Utf8.encode_append, encode_quote]
    simp [memberBytes, compactBytes]
    rfl
  rw [ofFields, compactBytes, compact, Utf8.encode_append, Utf8.encode_append,
    encode_intercalate, compactMembers_eq_map, List.map_map]
  have hmap : fields.map (Utf8.encode ∘ fun field => quote field.1 ++ ":" ++ field.2.compact) =
      fields.map memberBytes := List.map_congr_left fun field _ => hmember field
  rw [hmap]
  rfl

/-- The first byte of a document's compact form is no blank, and closes nothing. -/
lemma Plain.exists_cons {json : Json} (h : Plain json) :
    ∃ first more, json.compactBytes = first :: more ∧ 0x21 ≤ first ∧ first < 0x7f ∧
      first ≠ 0x5d ∧ first ≠ 0x7d := by
  cases h with
  | null => exact ⟨_, _, rfl, by decide⟩
  | bool value => cases value <;> exact ⟨_, _, rfl, by decide⟩
  | natural value =>
    obtain ⟨first, more, hcons⟩ := List.exists_cons_of_ne_nil (digitsOf_ne_nil value)
    obtain ⟨hle, hge⟩ := toNat_of_mem_digitsOf (hcons ▸ List.mem_cons_self)
    have hlow : 0x21 ≤ first.toNat := by omega
    have hhigh : first.toNat < 0x5d := by omega
    refine ⟨first, more, (compactBytes_natural value).trans hcons, ?_, ?_, ?_, ?_⟩
    · exact UInt8.le_iff_toNat_le.2 hlow
    · exact UInt8.lt_iff_toNat_lt.2 (hhigh.trans (by decide))
    · rintro rfl
      exact absurd hhigh (by decide)
    · rintro rfl
      exact absurd hhigh (by decide)
  | text value => exact ⟨_, _, compactBytes_text value, by decide⟩
  | array _ => exact ⟨_, _, compactBytes_array _, by decide⟩
  | ofFields _ => exact ⟨_, _, compactBytes_ofFields _, by decide⟩

lemma forall_mem_commas {P : UInt8 → Prop} (hcomma : P 0x2c) {parts : List Bytes}
    (h : ∀ part ∈ parts, ∀ byte ∈ part, P byte) : ∀ byte ∈ commas parts, P byte := by
  induction parts with
  | nil => exact nofun
  | cons first rest ih =>
    obtain ⟨hfirst, hrest⟩ := List.forall_mem_cons.1 h
    cases rest with
    | nil =>
      rw [commas_singleton]
      exact hfirst
    | cons second rest =>
      rw [commas_cons_cons]
      exact List.forall_mem_append.2 ⟨hfirst, List.forall_mem_cons.2 ⟨hcomma, ih hrest⟩⟩

lemma printable_between {first last : UInt8} {inner : Bytes} (hfirst : 0x20 ≤ first)
    (hlast : 0x20 ≤ last) (h : ∀ byte ∈ inner, 0x20 ≤ byte) :
    ∀ byte ∈ first :: (inner ++ [last]), 0x20 ≤ byte :=
  List.forall_mem_cons.2
    ⟨hfirst, List.forall_mem_append.2 ⟨h, List.forall_mem_singleton.2 hlast⟩⟩

/-- The compact form is all on one line. -/
lemma Plain.printable {json : Json} (h : Plain json) :
    ∀ byte ∈ json.compactBytes, 0x20 ≤ byte := by
  induction h with
  | null => decide +kernel
  | bool value => cases value <;> decide +kernel
  | natural value =>
    intro byte hbyte
    rw [compactBytes_natural] at hbyte
    obtain ⟨hle, -⟩ := toNat_of_mem_digitsOf hbyte
    exact UInt8.le_iff_toNat_le.2 (le_trans (by decide) hle)
  | text value =>
    rw [compactBytes_text]
    exact printable_between (by decide) (by decide) (spells_quoted value).printable
  | array _ ih =>
    rw [compactBytes_array]
    refine printable_between (by decide) (by decide) (forall_mem_commas (by decide) ?_)
    simpa using ih
  | ofFields _ ih =>
    rw [compactBytes_ofFields]
    refine printable_between (by decide) (by decide) (forall_mem_commas (by decide) ?_)
    rintro part hpart
    obtain ⟨field, hfield, rfl⟩ := List.mem_map.1 hpart
    refine List.forall_mem_cons.2 ⟨by decide, List.forall_mem_append.2 ⟨?_, ?_⟩⟩
    · exact (spells_quoted field.1).printable
    · exact List.forall_mem_cons.2 ⟨by decide, List.forall_mem_cons.2 ⟨by decide, ih field hfield⟩⟩

/-! ## Reading -/

lemma skipBlanks_cons {byte : UInt8} (h : 0x21 ≤ byte) (rest : Bytes) :
    skipBlanks (byte :: rest) = byte :: rest := by
  have hblank : isBlank byte = false := by
    have hne : ∀ blank : UInt8, blank < 0x21 → byte ≠ blank := by
      rintro blank hlt rfl
      exact absurd h (UInt8.not_le.2 hlt)
    simp [isBlank, hne 0x20 (by decide), hne 0x0a (by decide), hne 0x0d (by decide),
      hne 0x09 (by decide)]
  rw [skipBlanks, List.dropWhile_cons_of_neg (by simp [hblank])]

/-- A document is read back from its compact form, whatever comes after it, in as many steps as are
twice its bytes. -/
def ReadsBack (json : Json) : Prop :=
  ∀ fuel rest, 2 * json.compactBytes.length ≤ fuel → EndsNumber rest →
    readValue fuel (json.compactBytes ++ rest) = some (json, rest)

lemma endsNumber_cons (byte : UInt8) (rest : Bytes) (h : byte ∈ [0x2c, 0x5d, 0x7d]) :
    EndsNumber (byte :: rest) := by
  rintro _ ⟨⟩
  simp only [List.mem_cons, List.not_mem_nil, or_false] at h
  obtain rfl | rfl | rfl := h <;> decide

section Steps

variable {fuel : ℕ} {input rest : Bytes} {json : Json} {name : String}

lemma readElements_last (h : readValue fuel input = some (json, 0x5d :: rest)) :
    readElements (fuel + 1) input = some ([json], rest) := by
  have hend : skipBlanks (0x5d :: rest) = 0x5d :: rest := rfl
  simp [readElements, h, hend]

lemma readElements_comma (h : readValue fuel input = some (json, 0x2c :: rest)) :
    readElements (fuel + 1) input =
      (readElements fuel rest).map fun more => (json :: more.1, more.2) := by
  have hcomma : skipBlanks (0x2c :: rest) = 0x2c :: rest := rfl
  simp only [readElements, h, hcomma, Option.bind_eq_bind, Option.bind_some]
  cases readElements fuel rest <;> rfl

lemma readMembers_last (h : readValue fuel input = some (json, 0x7d :: rest)) :
    readMembers (fuel + 1) (0x22 :: (quoted name ++ 0x22 :: 0x3a :: input)) =
      some ([(some name, json)], rest) := by
  obtain ⟨pieces, hread, htext⟩ := readPieces_quoted name (0x3a :: input)
  have hquote : ∀ rest, skipBlanks (0x22 :: rest) = 0x22 :: rest := fun _ => rfl
  have hcolon : skipBlanks (0x3a :: input) = 0x3a :: input := rfl
  have hend : skipBlanks (0x7d :: rest) = 0x7d :: rest := rfl
  simp [readMembers, hquote, hread, hcolon, h, hend, htext]

lemma readMembers_comma (h : readValue fuel input = some (json, 0x2c :: rest)) :
    readMembers (fuel + 1) (0x22 :: (quoted name ++ 0x22 :: 0x3a :: input)) =
      (readMembers fuel rest).map fun more => ((some name, json) :: more.1, more.2) := by
  obtain ⟨pieces, hread, htext⟩ := readPieces_quoted name (0x3a :: input)
  have hquote : ∀ rest, skipBlanks (0x22 :: rest) = 0x22 :: rest := fun _ => rfl
  have hcolon : skipBlanks (0x3a :: input) = 0x3a :: input := rfl
  have hcomma : skipBlanks (0x2c :: rest) = 0x2c :: rest := rfl
  simp only [readMembers, hquote, hread, hcolon, h, hcomma, htext, Option.bind_eq_bind,
    Option.bind_some]
  cases readMembers fuel rest <;> rfl

end Steps

lemma readElements_commas {elements : List Json} (hne : elements ≠ [])
    (h : ∀ element ∈ elements, ReadsBack element) (fuel : ℕ) (rest : Bytes)
    (hfuel : 2 * (commas (elements.map compactBytes)).length < fuel) :
    readElements fuel (commas (elements.map compactBytes) ++ 0x5d :: rest) =
      some (elements, rest) := by
  induction elements generalizing fuel with
  | nil => exact absurd rfl hne
  | cons first elements ih =>
    obtain ⟨hfirst, helements⟩ := List.forall_mem_cons.1 h
    obtain ⟨fuel, rfl⟩ := Nat.exists_eq_add_one_of_ne_zero (Nat.ne_zero_of_lt hfuel)
    cases elements with
    | nil =>
      rw [List.map_singleton, commas_singleton] at hfuel ⊢
      exact readElements_last (hfirst fuel _ (by omega) (endsNumber_cons 0x5d rest (by decide)))
    | cons second elements =>
      rw [List.map_cons, List.map_cons, commas_cons_cons, ← List.map_cons] at hfuel ⊢
      rw [List.length_append, List.length_cons] at hfuel
      have hrest := ih (by simp) helements fuel (by omega)
      rw [List.append_assoc, List.cons_append, readElements_comma
        (hfirst fuel _ (by omega) (endsNumber_cons 0x2c _ (by decide))), hrest]
      rfl

lemma readMembers_commas {fields : List (String × Json)} (hne : fields ≠ [])
    (h : ∀ field ∈ fields, ReadsBack field.2) (fuel : ℕ) (rest : Bytes)
    (hfuel : 2 * (commas (fields.map memberBytes)).length < fuel) :
    readMembers fuel (commas (fields.map memberBytes) ++ 0x7d :: rest) =
      some (fields.map fun field => (some field.1, field.2), rest) := by
  induction fields generalizing fuel with
  | nil => exact absurd rfl hne
  | cons first fields ih =>
    obtain ⟨hfirst, hfields⟩ := List.forall_mem_cons.1 h
    obtain ⟨fuel, rfl⟩ := Nat.exists_eq_add_one_of_ne_zero (Nat.ne_zero_of_lt hfuel)
    have hlength : (memberBytes first).length =
        (quoted first.1).length + first.2.compactBytes.length + 3 := by
      simp [memberBytes]
      omega
    have hmember : ∀ input, memberBytes first ++ input =
        0x22 :: (quoted first.1 ++ 0x22 :: 0x3a :: (first.2.compactBytes ++ input)) := by
      simp [memberBytes]
    cases fields with
    | nil =>
      rw [List.map_singleton, commas_singleton] at hfuel ⊢
      rw [hmember]
      exact readMembers_last
        (hfirst fuel _ (by omega) (endsNumber_cons 0x7d rest (by decide)))
    | cons second fields =>
      rw [List.map_cons, List.map_cons, commas_cons_cons, ← List.map_cons] at hfuel ⊢
      rw [List.length_append, List.length_cons] at hfuel
      have hrest := ih (by simp) hfields fuel (by omega)
      rw [List.append_assoc, List.cons_append, hmember, readMembers_comma
        (hfirst fuel _ (by omega) (endsNumber_cons 0x2c _ (by decide))), hrest]
      rfl

lemma readValue_digitsOf (value fuel : ℕ) {rest : Bytes} (hrest : EndsNumber rest) :
    readValue (fuel + 1) (digitsOf value ++ rest) = some (.natural value, rest) := by
  have hnumber := readNumber_digitsOf value hrest
  obtain ⟨first, more, hcons⟩ := List.exists_cons_of_ne_nil (digitsOf_ne_nil value)
  obtain ⟨hle, hge⟩ := toNat_of_mem_digitsOf (hcons ▸ List.mem_cons_self)
  have hblank : skipBlanks (first :: (more ++ rest)) = first :: (more ++ rest) :=
    skipBlanks_cons (UInt8.le_iff_toNat_le.2 (le_trans (by decide) hle)) _
  rw [hcons, List.cons_append] at hnumber ⊢
  rw [readValue, hblank]
  -- none of the marks that other documents begin with is a digit
  split
  all_goals first
    | exact hnumber
    | rename_i heq
      obtain ⟨rfl, -⟩ := List.cons.inj heq
      exact absurd (And.intro hle hge) (by decide)

lemma readValue_text (value : String) (fuel : ℕ) (rest : Bytes) :
    readValue (fuel + 1) (0x22 :: (quoted value ++ 0x22 :: rest)) = some (.text value, rest) := by
  obtain ⟨pieces, hread, htext⟩ := readPieces_quoted value rest
  have hquote : ∀ rest, skipBlanks (0x22 :: rest) = 0x22 :: rest := fun _ => rfl
  simp [readValue, hquote, hread, htext]

lemma readValue_array {fuel : ℕ} {first : UInt8} {more rest : Bytes} {elements : List Json}
    (hfirst : 0x21 ≤ first) (hne : first ≠ 0x5d)
    (h : readElements fuel (first :: more) = some (elements, rest)) :
    readValue (fuel + 1) (0x5b :: first :: more) = some (.array elements, rest) := by
  have hopen : skipBlanks (0x5b :: first :: more) = 0x5b :: first :: more := rfl
  simp only [readValue, hopen, skipBlanks_cons hfirst]
  split
  · rename_i heq
    exact absurd (List.cons.inj heq).1 hne
  · rw [h]
    rfl

lemma readValue_object {fuel : ℕ} {more rest : Bytes} {members : List (Option String × Json)}
    (h : readMembers fuel (0x22 :: more) = some (members, rest)) :
    readValue (fuel + 1) (0x7b :: 0x22 :: more) = some (.object members, rest) := by
  have hopen : skipBlanks (0x7b :: 0x22 :: more) = 0x7b :: 0x22 :: more := rfl
  have hquote : skipBlanks (0x22 :: more) = 0x22 :: more := rfl
  simp [readValue, hopen, hquote, h]

/-- A document has a first byte, so there is a step to begin with. -/
lemma ReadsBack.of_succ {json : Json} (hplain : Plain json)
    (h : ∀ fuel rest, 2 * json.compactBytes.length ≤ fuel + 1 → EndsNumber rest →
      readValue (fuel + 1) (json.compactBytes ++ rest) = some (json, rest)) : ReadsBack json := by
  intro fuel rest hfuel hrest
  obtain ⟨_, _, hcons, -⟩ := hplain.exists_cons
  obtain ⟨steps, rfl⟩ : ∃ steps, fuel = steps + 1 := by
    rw [hcons, List.length_cons] at hfuel
    exact Nat.exists_eq_add_one_of_ne_zero (by omega)
  exact h steps rest hfuel hrest

/-- A document is read back from its compact form. -/
lemma Plain.readsBack {json : Json} (h : Plain json) : ReadsBack json := by
  induction h with
  | null => exact .of_succ .null fun fuel rest _ _ => rfl
  | bool value =>
    refine .of_succ (.bool value) fun fuel rest _ _ => ?_
    cases value <;> rfl
  | natural value =>
    refine .of_succ (.natural value) fun fuel rest _ hrest => ?_
    rw [compactBytes_natural]
    exact readValue_digitsOf value fuel hrest
  | text value =>
    refine .of_succ (.text value) fun fuel rest _ _ => ?_
    rw [compactBytes_text, List.cons_append, List.append_assoc]
    exact readValue_text value fuel rest
  | @array elements helements ih =>
    refine .of_succ (.array helements) fun fuel rest hfuel _ => ?_
    rw [compactBytes_array] at hfuel ⊢
    rw [List.length_cons, List.length_append, List.length_singleton] at hfuel
    rw [List.cons_append, List.append_assoc, List.singleton_append]
    cases elements with
    | nil => rfl
    | cons first elements =>
      obtain ⟨byte, more, hcons, hlow, -, hne, -⟩ :=
        (helements first List.mem_cons_self).exists_cons
      have hread := readElements_commas (List.cons_ne_nil first elements) ih fuel rest
        (by omega)
      obtain ⟨more, hmore⟩ : ∃ more, commas ((first :: elements).map compactBytes) ++
          0x5d :: rest = byte :: more := by
        cases elements <;> simp [commas_cons_cons, commas_singleton, hcons]
      rw [hmore] at hread ⊢
      exact readValue_array hlow hne hread
  | @ofFields fields hfields ih =>
    refine .of_succ (.ofFields hfields) fun fuel rest hfuel _ => ?_
    rw [compactBytes_ofFields] at hfuel ⊢
    rw [List.length_cons, List.length_append, List.length_singleton] at hfuel
    rw [List.cons_append, List.append_assoc, List.singleton_append]
    cases fields with
    | nil => rfl
    | cons first fields =>
      have hread := readMembers_commas (List.cons_ne_nil first fields) ih fuel rest
        (by omega)
      obtain ⟨more, hmore⟩ : ∃ more, commas ((first :: fields).map memberBytes) ++
          0x7d :: rest = 0x22 :: more := by
        cases fields <;> simp [commas_cons_cons, commas_singleton, memberBytes]
      rw [hmore] at hread ⊢
      exact readValue_object hread

lemma skipBlanks_append {blanks : Bytes} (h : ∀ byte ∈ blanks, isBlank byte = true)
    (rest : Bytes) : skipBlanks (blanks ++ rest) = skipBlanks rest :=
  List.dropWhile_append_of_pos h

/-- A document is read back from its compact form with blanks around it. -/
theorem ofBytes?_compactBytes {json : Json} (h : Plain json) {before after : Bytes}
    (hbefore : ∀ byte ∈ before, isBlank byte = true)
    (hafter : ∀ byte ∈ after, isBlank byte = true) :
    ofBytes? (before ++ json.compactBytes ++ after) = some json := by
  have hvalue : ∀ fuel rest, readValue (fuel + 1) (before ++ rest) = readValue (fuel + 1) rest := by
    intro fuel rest
    rw [readValue, readValue, skipBlanks_append hbefore]
  have hends : EndsNumber after := by
    intro byte hbyte
    have hblank := hafter byte (List.mem_of_mem_head? hbyte)
    simp only [isBlank, Bool.or_eq_true, beq_iff_eq] at hblank
    rcases hblank with ((rfl | rfl) | rfl) | rfl <;> decide
  have hread := h.readsBack (2 * (before ++ json.compactBytes ++ after).length + 1 + 1) after
    (by simp; omega) hends
  have hblanks : skipBlanks after = [] := by
    rw [← List.append_nil after, skipBlanks_append hafter]
    rfl
  rw [ofBytes?, List.append_assoc, hvalue, ← List.append_assoc, hread]
  simp [hblanks]

end OutputIndex.Json
