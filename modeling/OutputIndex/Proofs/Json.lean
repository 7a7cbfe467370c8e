import Mathlib.Data.List.Nodup
import OutputIndex.Ledger.Json
import OutputIndex.Proofs.Address

/-!
# Reading JSON documents back

A value is written in one form and read from several: hexadecimal digits may be capitals, members
may stand in any order, fields that say nothing may be missing and unknown members are skipped.  The
law of a form (`Json.Inverts`) says that reading undoes writing for all values that fit, and that
nothing is read that does not fit.  So whatever is read from any document is read again, as the same
value, from the one document that is written for it (`Json.Inverts.roundTrips`).

The law is proved here for plain values, for lists and for the fields of records.  Every plain value
fits but an address, which has to fit its spelled-out form.
-/

namespace OutputIndex

namespace Json

variable {α β γ : Type} {write : α → Json} {read : Json → Option α} {Fits : α → Prop} {value : α}

/-! ## The law of a form -/

/-- Reading undoes writing for all values that fit, and nothing else is read. -/
structure Inverts (write : α → Json) (read : Json → Option α) (Fits : α → Prop) : Prop where
  read_write : ∀ value, Fits value → read (write value) = some value
  fits : ∀ json value, read json = some value → Fits value

/-- A value that fits is read back from the document that is written for it, and whatever was read
from any document is read again, as the same value, from the one that is written for it. -/
structure RoundTrips (write : α → Json) (read : Json → Option α) (Fits : α → Prop) : Prop where
  read_write : ∀ value, Fits value → read (write value) = some value
  read_again : ∀ json value, read json = some value → read (write value) = some value

lemma Inverts.roundTrips (h : Inverts write read Fits) : RoundTrips write read Fits where
  read_write := h.read_write
  read_again json value hread := h.read_write value (h.fits json value hread)

lemma Inverts.of_forall (h : ∀ value, read (write value) = some value) :
    Inverts write read fun _ => True where
  read_write value _ := h value
  fits _ _ _ := trivial

/-! ## Plain values -/

lemma natural?_natural {bound n : ℕ} (h : n < bound) :
    (natural n).natural? bound = some ⟨n, h⟩ := dif_pos h

@[simp] lemma word8?_natural (value : UInt8) : (natural value.toNat).word8? = some value := by
  rw [word8?, natural?_natural value.toNat_lt]
  exact congrArg some UInt8.ofNat_toNat

@[simp] lemma word32?_natural (value : UInt32) : (natural value.toNat).word32? = some value := by
  rw [word32?, natural?_natural value.toNat_lt]
  exact congrArg some UInt32.ofNat_toNat

@[simp] lemma word64?_natural (value : UInt64) : (natural value.toNat).word64? = some value := by
  rw [word64?, natural?_natural value.toNat_lt]
  exact congrArg some UInt64.ofNat_toNat

@[simp] lemma tokenAmount?_natural (value : TokenAmount) :
    (natural value.val).tokenAmount? = some value := natural?_natural value.isLt

@[simp] lemma text?_text (value : String) : (text value).text? = some value := rfl

@[simp] lemma bytes?_ofBytes (value : Bytes) : (ofBytes value).bytes? = some value := by
  rw [bytes?, ofBytes, text?_text]
  exact congrArg Except.toOption (Hex.decode_encode value)

@[simp] lemma ofJson?_identifier {kind : IdentifierKind} (id : Identifier kind) :
    Identifier.ofJson? id.toJson = some id := by
  rw [Identifier.ofJson?, Identifier.toJson, text?_text]
  exact congrArg Except.toOption id.ofHex_hex

lemma inverts_address : Inverts Address.toJson Address.ofJson? Address.Fits where
  read_write address h := by
    have hread : Address.ofHex address.hex = .ok address := by
      rw [Address.ofHex, Address.hex, Hex.toList_encode, Hex.dropMarker_digits,
        Hex.decodeChars_digits]
      exact h.ofBytes_toBytes
    rw [Address.ofJson?, Address.toJson, text?_text]
    exact congrArg Except.toOption hread
  fits json address h := by
    obtain ⟨text, -, h⟩ := Option.bind_eq_some_iff.1 h
    have hread : Address.ofHex text = .ok address := by
      cases hread : Address.ofHex text with
      | error cause => rw [hread] at h; cases h
      | ok found => rw [hread] at h; cases h; rfl
    unfold Address.ofHex at hread
    split at hread
    · cases hread
    · exact (Address.ofBytes_eq_ok_iff.1 hread).1

/-! ## Lists -/

lemma mapM_map_eq_some {xs : List α} {key : α → β} {read : β → Option γ} {g : α → γ}
    (h : ∀ x ∈ xs, read (key x) = some (g x)) : (xs.map key).mapM read = some (xs.map g) := by
  induction xs with
  | nil => rfl
  | cons x rest ih =>
    rw [List.map_cons, List.mapM_cons, h x List.mem_cons_self,
      ih fun y hy => h y (List.mem_cons_of_mem x hy)]
    rfl

lemma exists_of_mem_of_mapM_eq_some {xs : List β} {read : β → Option γ} {values : List γ}
    (h : xs.mapM read = some values) {value : γ} (hvalue : value ∈ values) :
    ∃ x ∈ xs, read x = some value := by
  induction xs generalizing values with
  | nil =>
    cases h
    cases hvalue
  | cons x rest ih =>
    rw [List.mapM_cons] at h
    obtain ⟨first, hfirst, h⟩ := Option.bind_eq_some_iff.1 h
    obtain ⟨others, hothers, h⟩ := Option.bind_eq_some_iff.1 h
    cases h
    rcases List.mem_cons.1 hvalue with rfl | hvalue
    · exact ⟨x, List.mem_cons_self, hfirst⟩
    · obtain ⟨y, hy, hread⟩ := ih hothers hvalue
      exact ⟨y, List.mem_cons_of_mem x hy, hread⟩

lemma Inverts.list (h : Inverts write read Fits) :
    Inverts (fun values => array (values.map write)) (list? read)
      fun values => ∀ value ∈ values, Fits value where
  read_write values hfits := by
    have hread := mapM_map_eq_some (g := id) fun value hvalue =>
      h.read_write value (hfits value hvalue)
    rw [List.map_id] at hread
    exact hread
  fits json values hread value hvalue := by
    cases json with
    | array elements =>
      obtain ⟨element, -, helement⟩ := exists_of_mem_of_mapM_eq_some hread hvalue
      exact h.fits element value helement
    | _ => cases hread

/-! ## Records -/

lemma field?_of_mem {fields : List (String × Json)} (hnodup : (fields.map (·.1)).Nodup)
    {field : String × Json} (hmem : field ∈ fields) :
    field? (fields.map fun field => (some field.1, field.2)) field.1 =
      some (.present field.2) := by
  have hfilter : fields.filter (fun other => other.1 == field.1) = [field] := by
    induction fields with
    | nil => cases hmem
    | cons first rest ih =>
      rw [List.map_cons, List.nodup_cons] at hnodup
      obtain ⟨hfirst, hrest⟩ := hnodup
      rw [List.filter_cons]
      rcases List.mem_cons.1 hmem with rfl | hmem
      · have hnone : rest.filter (fun other => other.1 == field.1) = [] := by
          refine List.filter_eq_nil_iff.2 fun other hother heq => hfirst ?_
          exact List.mem_map.2 ⟨other, hother, beq_iff_eq.1 heq⟩
        rw [if_pos (beq_self_eq_true _), hnone]
      · have hne : ¬(first.1 == field.1) = true := fun heq =>
          hfirst (List.mem_map.2 ⟨field, hmem, (beq_iff_eq.1 heq).symm⟩)
        rw [if_neg hne, ih hrest hmem]
  have hmembers : (fields.map fun field => (some field.1, field.2)).filter
      (fun member => member.1 == some field.1) = [(some field.1, field.2)] := by
    rw [List.filter_map]
    exact congrArg (List.map _) hfilter
  rw [field?, hmembers]

/-- Every field of a record that is written as an object is there. -/
@[simp] lemma fields?_ofFields {fields : List (String × Json)} {names : List String}
    (hnames : fields.map (·.1) = names) (hnodup : names.Nodup) :
    (ofFields fields).fields? names = some (fields.map fun field => .present field.2) := by
  subst hnames
  have hall : (fields.map fun field : String × Json => (some field.1, field.2)).all
      (fun member => member.1.isSome) = true := by
    simp
  rw [ofFields, fields?, if_pos hall]
  exact mapM_map_eq_some fun field hmem => field?_of_mem hnodup hmem

@[simp] lemma variant?_ofFields (name : String) (content : Json) :
    (ofFields [(name, content)]).variant? = some (name, some content) := rfl

@[simp] lemma variant?_ofVariant (name : String) (fields : List (String × Json)) :
    (ofVariant name fields).variant? = some (name, some (ofFields fields)) := rfl

lemma Inverts.fits_of_required (h : Inverts write read Fits) {field : Json.Field}
    (hread : field.required read = some value) : Fits value := by
  cases field with
  | present json => exact h.fits json value hread
  | absent | cut => cases hread

lemma Inverts.fits_of_withDefault (h : Inverts write read Fits) {default : α}
    (hdefault : Fits default) {field : Json.Field}
    (hread : field.withDefault default read = some value) : Fits value := by
  cases field with
  | present json => exact h.fits json value hread
  | absent | cut =>
    obtain rfl := Option.some.inj hread
    exact hdefault

end Json

namespace Field

variable {δ α : Type} {read : δ → Option α} {json : δ}

@[simp] lemma required_present : (present json).required read = read json := rfl

@[simp] lemma withDefault_present {default : α} :
    (present json).withDefault default read = read json := rfl

end Field

end OutputIndex
