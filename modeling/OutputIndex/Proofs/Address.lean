import OutputIndex.Address.Parser
import OutputIndex.Proofs.Record
import OutputIndex.Sample

/-!
# The spelled-out form of an address

An address fits (`Address.Fits`) if at every level its members and its capabilities are no more than
a byte can count.  Whatever the parser reads is the spelled-out form of an address that fits
(`Address.readNested_eq_ok`), and every address that fits is read from that form, whatever follows
it and however deep the address is nested (`Address.Fits.readsBack`).

The form ends itself: what the parser makes of an input it makes of every longer one too, unless the
input ends too early for it (`Address.extends_readNested`).  So a spelled-out form that is cut off
anywhere is truncated, and whatever stands behind a whole one is trailing.  The main statement,
`Address.ofBytes_spelledOut`, puts all this together.
-/

namespace OutputIndex

namespace Address

variable {n depth : ℕ} {input rest : Bytes} {address : Address}
  {members : List (Address × UInt8)}

/-! ## Parts -/

lemma readByte_eq_ok_iff {byte : UInt8} :
    readByte input = .ok (byte, rest) ↔ input = byte :: rest := by
  cases input with
  | nil => simp [readByte]
  | cons first others => simp [readByte]

lemma readFixed_eq_ok_iff {fixed : FixedBytes n} :
    readFixed n input = .ok (fixed, rest) ↔ input = fixed.toList ++ rest := by
  unfold readFixed
  constructor
  · intro h
    split at h
    · rename_i bytes hbytes
      have hpair := Prod.mk.inj (Except.ok.inj h)
      have htake := FixedBytes.ofList?_eq_some_iff.1 hbytes
      rw [← hpair.1, ← hpair.2, htake, List.take_append_drop]
    · cases h
  · rintro rfl
    have htake : (fixed.toList ++ rest).take n = fixed.toList := List.take_left' fixed.length_eq
    have hdrop : (fixed.toList ++ rest).drop n = rest := List.drop_left' fixed.length_eq
    rw [htake, hdrop, FixedBytes.ofList?_toList]

/-- A reader that only reads spelled-out forms reads spelled-out members. -/
lemma readMembers_eq_ok {read : Bytes → Except AddressError (Address × Bytes)} {count : ℕ}
    {P : Address → Prop}
    (hread : ∀ input address rest, read input = .ok (address, rest) →
      input = address.toBytes ++ rest ∧ P address)
    (h : readMembers read count input = .ok (members, rest)) :
    input = memberBytes members ++ rest ∧ members.length = count ∧
      ∀ member ∈ members, P member.1 := by
  induction count generalizing input members with
  | zero =>
    have hpair := Prod.mk.inj (Except.ok.inj h)
    rw [← hpair.1, ← hpair.2]
    exact ⟨rfl, rfl, by simp⟩
  | succ count ih =>
    obtain ⟨⟨member, rest₁⟩, hmember, h⟩ := bind_eq_ok_iff.1 h
    obtain ⟨⟨weight, rest₂⟩, hweight, h⟩ := bind_eq_ok_iff.1 h
    obtain ⟨⟨others, rest₃⟩, hothers, h⟩ := bind_eq_ok_iff.1 h
    cases h
    obtain ⟨hinput, hP⟩ := hread input member rest₁ hmember
    obtain ⟨hrest, hcount, hall⟩ := ih hothers
    refine ⟨?_, by rw [List.length_cons, hcount], ?_⟩
    · rw [hinput, readByte_eq_ok_iff.1 hweight, hrest, memberBytes, List.append_assoc,
        List.cons_append]
    · intro entry hentry
      rcases List.mem_cons.1 hentry with rfl | hentry
      · exact hP
      · exact hall entry hentry

/-- A length that fits a byte is read as it was. -/
lemma toNat_lengthByte {length : ℕ} (h : length ≤ 255) : (lengthByte length).toNat = length := by
  rw [lengthByte, UInt8.toNat_ofNat']
  omega

/-- A number of things that was read from a byte is written as that byte. -/
lemma lengthByte_toNat (byte : UInt8) : lengthByte byte.toNat = byte := UInt8.ofNat_toNat

/-- The two bytes of a threshold. -/
def thresholdBytes (threshold : UInt16) : FixedBytes 2 :=
  ⟨littleEndian 2 threshold.toNat, length_littleEndian 2 _⟩

lemma ofNat_thresholdBytes (threshold : UInt16) :
    UInt16.ofNat (ofLittleEndian (thresholdBytes threshold).toList) = threshold := by
  have hlt : threshold.toNat < Nat.pow 256 2 := threshold.toNat_lt
  have hback := ofLittleEndian_littleEndian 2 threshold.toNat
  rw [thresholdBytes, hback, Nat.mod_eq_of_lt hlt, UInt16.ofNat_toNat]

/-- Two bytes read as a threshold are written as they were. -/
lemma littleEndian_threshold (bytes : FixedBytes 2) :
    littleEndian 2 (UInt16.ofNat (ofLittleEndian bytes.toList)).toNat = bytes.toList := by
  have hlt := ofLittleEndian_lt bytes.toList
  rw [bytes.length_eq] at hlt
  have hmod : (UInt16.ofNat (ofLittleEndian bytes.toList)).toNat = ofLittleEndian bytes.toList := by
    rw [UInt16.toNat_ofNat']
    exact Nat.mod_eq_of_lt hlt
  have hback := littleEndian_ofLittleEndian bytes.toList
  rw [bytes.length_eq] at hback
  rw [hmod, hback]

/-! ## What is read -/

/-- At every level of the address, members and capabilities are no more than a byte can count. -/
inductive Fits : Address → Prop where
  | ed25519 (hash : Hash32) : Fits (.ed25519 hash)
  | account (id : AccountId) : Fits (.account id)
  | nft (id : NftId) : Fits (.nft id)
  | anchor (id : AnchorId) : Fits (.anchor id)
  | implicitAccountCreation (hash : Hash32) : Fits (.implicitAccountCreation hash)
  | multi {members : List (Address × UInt8)} {threshold : UInt16} (hcount : members.length ≤ 255)
      (hmembers : ∀ member ∈ members, Fits member.1) : Fits (.multi members threshold)
  | restricted {inner : Address} {capabilities : Bytes} (hinner : Fits inner)
      (hlength : capabilities.length ≤ 255) : Fits (.restricted inner capabilities)

/-- The multi address that an address is or wraps fits if the address does. -/
lemma Fits.multiAddress {definition : MultiAddress} (h : address.Fits)
    (hmulti : address.multiAddress? = some definition) : definition.toAddress.Fits := by
  induction h with
  | multi hcount hmembers =>
    obtain rfl := Option.some.inj hmulti
    exact .multi hcount hmembers
  | restricted _ _ ih => exact ih hmulti
  | _ => cases hmulti

/-- What is read is the spelled-out form of the address that is given, and the address fits. -/
lemma readNested_eq_ok (h : readNested depth input = .ok (address, rest)) :
    input = address.toBytes ++ rest ∧ address.Fits := by
  induction depth generalizing input address rest with
  | zero => cases h
  | succ depth ih =>
    obtain ⟨⟨kind, tail⟩, hkind, h⟩ := bind_eq_ok_iff.1 h
    rw [readByte_eq_ok_iff.1 hkind]
    dsimp only at h
    split at h
    -- five kinds are a digest behind their byte
    iterate 5
      · obtain ⟨⟨hash, rest'⟩, hhash, h⟩ := bind_eq_ok_iff.1 h
        cases h
        exact ⟨congrArg (List.cons _) (readFixed_eq_ok_iff.1 hhash), by constructor⟩
    · obtain ⟨⟨count, rest₁⟩, hcount, h⟩ := bind_eq_ok_iff.1 h
      obtain ⟨⟨members, rest₂⟩, hmembers, h⟩ := bind_eq_ok_iff.1 h
      obtain ⟨⟨threshold, rest₃⟩, hthreshold, h⟩ := bind_eq_ok_iff.1 h
      cases h
      dsimp only at hmembers hthreshold ⊢
      obtain ⟨hinput, hlength, hfits⟩ := readMembers_eq_ok (fun _ _ _ hread => ih hread) hmembers
      replace hlength : members.length = count.toNat := hlength
      have hlt := count.toNat_lt
      refine ⟨?_, .multi (by omega) hfits⟩
      rw [toBytes, hlength, lengthByte_toNat, littleEndian_threshold,
        readByte_eq_ok_iff.1 hcount, hinput, readFixed_eq_ok_iff.1 hthreshold]
      simp
    · obtain ⟨⟨inner, rest₁⟩, hinner, h⟩ := bind_eq_ok_iff.1 h
      obtain ⟨⟨length, rest₂⟩, hlength, h⟩ := bind_eq_ok_iff.1 h
      obtain ⟨⟨capabilities, rest₃⟩, hcapabilities, h⟩ := bind_eq_ok_iff.1 h
      cases h
      dsimp only at hlength hcapabilities ⊢
      obtain ⟨hinput, hfits⟩ := ih hinner
      have hcount : capabilities.toList.length = length.toNat := capabilities.length_eq
      have hlt := length.toNat_lt
      refine ⟨?_, .restricted hfits (by omega)⟩
      rw [toBytes, hcount, lengthByte_toNat, hinput, readByte_eq_ok_iff.1 hlength,
        readFixed_eq_ok_iff.1 hcapabilities]
      simp
    · cases h

/-! ## Reading back -/

/-- The address is read from its spelled-out form, whatever follows it, if there may be as many
levels as there are bytes. -/
def ReadsBack (address : Address) : Prop :=
  ∀ depth rest, address.toBytes.length ≤ depth →
    readNested depth (address.toBytes ++ rest) = .ok (address, rest)

lemma readMembers_memberBytes (h : ∀ member ∈ members, member.1.ReadsBack)
    (hdepth : (memberBytes members).length ≤ depth) (rest : Bytes) :
    readMembers (readNested depth) members.length (memberBytes members ++ rest) =
      .ok (members, rest) := by
  induction members with
  | nil => rfl
  | cons entry others ih =>
    obtain ⟨member, weight⟩ := entry
    rw [memberBytes, List.length_append, List.length_cons] at hdepth
    have hmember : readNested depth (member.toBytes ++ weight :: (memberBytes others ++ rest)) =
        .ok (member, weight :: (memberBytes others ++ rest)) :=
      h (member, weight) List.mem_cons_self depth _ (by show member.toBytes.length ≤ _; omega)
    have hothers := ih (fun other hother => h other (List.mem_cons_of_mem _ hother)) (by omega)
    rw [memberBytes, List.append_assoc, List.cons_append, List.length_cons, readMembers]
    refine bind_eq_ok_iff.2 ⟨_, hmember, bind_eq_ok_iff.2 ⟨_, rfl, ?_⟩⟩
    exact bind_eq_ok_iff.2 ⟨_, hothers, rfl⟩

/-- An address reads back if one level of reading does so. -/
lemma readsBack_of_succ
    (h : ∀ depth rest, address.toBytes.length ≤ depth + 1 →
      readNested (depth + 1) (address.toBytes ++ rest) = .ok (address, rest)) :
    address.ReadsBack := by
  intro depth rest hdepth
  -- the byte that begins an address takes one level
  have hpositive : 0 < address.toBytes.length := by
    cases address <;> simp [toBytes]
  obtain ⟨d, rfl⟩ : ∃ d, depth = d + 1 := ⟨depth - 1, by omega⟩
  exact h d rest hdepth

/-- A multi address with no more members than a byte can count reads back if they do. -/
lemma readsBack_multi (hcount : members.length ≤ 255)
    (hmembers : ∀ member ∈ members, member.1.ReadsBack) (threshold : UInt16) :
    (multi members threshold).ReadsBack := by
  refine readsBack_of_succ fun depth rest hdepth => ?_
  have hfit : (memberBytes members).length ≤ depth := by
    simp only [toBytes, List.length_cons, List.length_append] at hdepth
    omega
  have hagain := readMembers_memberBytes hmembers hfit
    ((thresholdBytes threshold).toList ++ rest)
  rw [← toNat_lengthByte hcount, ← List.append_assoc] at hagain
  rw [toBytes]
  refine bind_eq_ok_iff.2 ⟨_, rfl, bind_eq_ok_iff.2 ⟨_, rfl, ?_⟩⟩
  refine bind_eq_ok_iff.2 ⟨_, hagain, ?_⟩
  refine bind_eq_ok_iff.2 ⟨(thresholdBytes threshold, rest), readFixed_eq_ok_iff.2 rfl, ?_⟩
  simp only [ofNat_thresholdBytes]
  rfl

/-- A restricted address with no more capabilities than a byte can count reads back if the address
inside does. -/
lemma readsBack_restricted {capabilities : Bytes} (hinner : address.ReadsBack)
    (hlength : capabilities.length ≤ 255) : (restricted address capabilities).ReadsBack := by
  refine readsBack_of_succ fun depth rest hdepth => ?_
  have hfit : address.toBytes.length ≤ depth := by
    simp only [toBytes, List.length_cons, List.length_append] at hdepth
    omega
  have hagain := hinner depth (lengthByte capabilities.length :: (capabilities ++ rest)) hfit
  rw [← List.cons_append, ← List.append_assoc] at hagain
  have hcapabilities : readFixed (lengthByte capabilities.length).toNat (capabilities ++ rest) =
      .ok (⟨capabilities, (toNat_lengthByte hlength).symm⟩, rest) := readFixed_eq_ok_iff.2 rfl
  rw [toBytes]
  refine bind_eq_ok_iff.2 ⟨_, rfl, bind_eq_ok_iff.2 ⟨_, hagain, ?_⟩⟩
  exact bind_eq_ok_iff.2 ⟨_, rfl, bind_eq_ok_iff.2 ⟨_, hcapabilities, rfl⟩⟩

/-- An address that fits reads back, however deep it is nested. -/
lemma Fits.readsBack (h : address.Fits) : address.ReadsBack := by
  induction h with
  | multi hcount _ ih => exact readsBack_multi hcount ih _
  | restricted _ hlength ih => exact readsBack_restricted ih hlength
  | _ =>
    refine readsBack_of_succ fun depth rest _ => ?_
    exact bind_eq_ok_iff.2 ⟨_, rfl, bind_eq_ok_iff.2 ⟨_, readFixed_eq_ok_iff.2 rfl, rfl⟩⟩

lemma Fits.read_append (h : address.Fits) (rest : Bytes) :
    read (address.toBytes ++ rest) = .ok (address, rest) := by
  refine h.readsBack _ rest ?_
  rw [List.length_append]
  omega

lemma Fits.ofBytes_toBytes (h : address.Fits) : ofBytes address.toBytes = .ok address := by
  have hread := h.read_append []
  rw [List.append_nil] at hread
  exact bind_eq_ok_iff.2 ⟨(address, []), hread, rfl⟩

/-- The parser accepts the spelled-out forms of addresses that fit, and nothing else. -/
lemma ofBytes_eq_ok_iff : ofBytes input = .ok address ↔ address.Fits ∧ input = address.toBytes := by
  constructor
  · intro h
    obtain ⟨⟨found, rest⟩, hread, h⟩ := bind_eq_ok_iff.1 h
    obtain ⟨hinput, hfits⟩ := readNested_eq_ok hread
    dsimp only at h
    split at h
    · rename_i hrest
      cases h
      rw [List.isEmpty_iff.1 hrest, List.append_nil] at hinput
      exact ⟨hfits, hinput⟩
    · cases h
  · rintro ⟨hfits, rfl⟩
    exact hfits.ofBytes_toBytes

/-- Addresses that fit differ in their spelled-out forms. -/
lemma Fits.eq_of_toBytes_eq {other : Address} (h : address.Fits) (hother : other.Fits)
    (hbytes : address.toBytes = other.toBytes) : address = other := by
  have hback := h.ofBytes_toBytes
  rw [hbytes, hother.ofBytes_toBytes] at hback
  exact (Except.ok.inj hback).symm

/-! ## Parsed addresses -/

/-- The address comes from the parser. -/
def Parsed (address : Address) : Prop := ∃ input rest, read input = .ok (address, rest)

lemma Parsed.fits (h : address.Parsed) : address.Fits := by
  obtain ⟨input, rest, hread⟩ := h
  exact (readNested_eq_ok hread).2

/-- The multi address that a parsed address is or wraps reads back from its definition. -/
lemma Parsed.ofBytes_multiAddress {definition : MultiAddress} (h : address.Parsed)
    (hmulti : address.multiAddress? = some definition) :
    ofBytes definition.toBytes = .ok definition.toAddress :=
  (h.fits.multiAddress hmulti).ofBytes_toBytes

/-! ## Longer inputs -/

/-- What one reader makes of an input, the other makes of every longer one, unless the input ends
too early for it. -/
structure Extends {α : Type} (read longer : Bytes → Except AddressError (α × Bytes)) : Prop where
  ok (input : Bytes) (value : α) (rest more : Bytes) :
    read input = .ok (value, rest) → longer (input ++ more) = .ok (value, rest ++ more)
  error (input : Bytes) (fault : AddressError) (more : Bytes) :
    read input = .error fault → fault ≠ .truncated → longer (input ++ more) = .error fault

section Extends

variable {α β : Type} {read longer : Bytes → Except AddressError (α × Bytes)}

lemma extends_truncated : Extends (fun _ => .error .truncated) longer where
  ok _ _ _ _ h := nomatch h
  error _ _ _ h hne := absurd (Except.error.inj h).symm hne

lemma extends_fault (fault : AddressError) :
    Extends (fun _ => (.error fault : Except AddressError (α × Bytes))) fun _ => .error fault where
  ok _ _ _ _ h := nomatch h
  error _ _ _ h _ := h

lemma extends_pure (value : α) :
    Extends (fun input => pure (value, input)) fun input => pure (value, input) where
  ok _ _ _ _ h := by
    cases h
    rfl
  error _ _ _ h := nomatch h

/-- Reading on after a reader that is extended. -/
lemma Extends.bind (h : Extends read longer)
    {next next' : α × Bytes → Except AddressError (β × Bytes)}
    (hnext : ∀ value, Extends (fun rest => next (value, rest)) fun rest => next' (value, rest)) :
    Extends (fun input => read input >>= next) fun input => longer input >>= next' where
  ok input value rest more hok := by
    obtain ⟨⟨found, middle⟩, hread, hrest⟩ := bind_eq_ok_iff.1 hok
    have hlonger := h.ok input found middle more hread
    exact bind_eq_ok_iff.2 ⟨_, hlonger, (hnext found).ok middle value rest more hrest⟩
  error input fault more herror hne := by
    cases hread : read input with
    | error cause =>
      rw [hread] at herror
      cases herror
      rw [h.error input fault more hread hne]
      rfl
    | ok found =>
      rw [hread] at herror
      rw [h.ok input found.1 found.2 more hread]
      exact (hnext found.1).error found.2 fault more herror hne

lemma extends_readByte : Extends readByte readByte where
  ok input byte rest more h := by
    rw [readByte_eq_ok_iff] at h ⊢
    rw [h, List.cons_append]
  error input fault more h hne := by
    cases input with
    | nil => exact absurd (Except.error.inj h).symm hne
    | cons byte rest => cases h

lemma extends_readFixed (n : ℕ) : Extends (readFixed n) (readFixed n) where
  ok input fixed rest more h := by
    rw [readFixed_eq_ok_iff] at h ⊢
    rw [h, List.append_assoc]
  error input fault more h hne := by
    unfold readFixed at h
    split at h
    · cases h
    · exact absurd (Except.error.inj h).symm hne

lemma extends_readMembers {read longer : Bytes → Except AddressError (Address × Bytes)}
    (h : Extends read longer) (count : ℕ) :
    Extends (readMembers read count) (readMembers longer count) := by
  induction count with
  | zero => exact extends_pure []
  | succ count ih =>
    refine h.bind fun member => extends_readByte.bind fun weight => ?_
    exact ih.bind fun members => extends_pure ((member, weight) :: members)

end Extends

/-- Reading an address from more bytes, and to more levels, is the same. -/
lemma extends_readNested (depth more : ℕ) :
    Extends (readNested depth) (readNested (depth + more)) := by
  induction depth with
  | zero => exact extends_truncated
  | succ depth ih =>
    rw [Nat.add_right_comm]
    refine extends_readByte.bind fun kind => ?_
    dsimp only
    split
    iterate 5
      · refine (extends_readFixed 32).bind fun hash => ?_
        dsimp only
        exact extends_pure _
    · refine extends_readByte.bind fun count => ?_
      refine (extends_readMembers ih count.toNat).bind fun members => ?_
      dsimp only
      refine (extends_readFixed 2).bind fun threshold => ?_
      exact extends_pure (multi members (UInt16.ofNat (ofLittleEndian threshold.toList)))
    · refine ih.bind fun inner => ?_
      dsimp only
      refine extends_readByte.bind fun length => ?_
      dsimp only
      refine (extends_readFixed length.toNat).bind fun capabilities => ?_
      exact extends_pure (restricted inner capabilities.toList)
    · exact extends_fault _

/-- A spelled-out form that is cut off is truncated. -/
lemma Fits.ofBytes_of_append_eq {part : Bytes} (h : address.Fits)
    (hpart : part ++ rest = address.toBytes) (hrest : rest ≠ []) :
    ofBytes part = .error .truncated := by
  have hextends := extends_readNested (part.length + 1) rest.length
  have hwhole : readNested (part.length + 1 + rest.length) (part ++ rest) = .ok (address, []) := by
    have hback := h.readsBack (part.length + 1 + rest.length) []
    rw [List.append_nil, ← hpart, List.length_append] at hback
    exact hback (by omega)
  cases hread : read part with
  | error fault =>
    by_cases hfault : fault = .truncated
    · rw [ofBytes, hread, hfault]
      rfl
    · -- any other fault would show in the whole form
      rw [hextends.error part fault rest hread hfault] at hwhole
      cases hwhole
  | ok found =>
    -- an address that ends before the cut would leave what was cut off
    have hleft : (found.1, found.2 ++ rest) = (address, []) :=
      Except.ok.inj ((hextends.ok part found.1 found.2 rest hread).symm.trans hwhole)
    exact absurd (List.append_eq_nil_iff.1 (Prod.mk.inj hleft).2).2 hrest

/-- Whatever stands behind a spelled-out form is trailing. -/
lemma Fits.ofBytes_append (h : address.Fits) (hrest : rest ≠ []) :
    ofBytes (address.toBytes ++ rest) = .error (.trailing rest.length) := by
  have hempty : ¬rest.isEmpty = true := by rwa [List.isEmpty_iff]
  have hread := h.read_append rest
  rw [ofBytes, hread]
  exact if_neg hempty

/-- **The spelled-out form is exact and ends itself.**  A byte string is read as an address if and
only if it is the spelled-out form of that address and the address fits.  The form of an address
that fits is truncated wherever it is cut off, and bytes that follow it are trailing. -/
theorem ofBytes_spelledOut :
    (∀ input address, ofBytes input = .ok address ↔ address.Fits ∧ input = address.toBytes) ∧
      ∀ address : Address, address.Fits →
        (∀ part rest, part ++ rest = address.toBytes → rest ≠ [] →
          ofBytes part = .error .truncated) ∧
        ∀ rest, rest ≠ [] → ofBytes (address.toBytes ++ rest) = .error (.trailing rest.length) := by
  refine ⟨fun input address => ofBytes_eq_ok_iff, fun address h => ⟨fun part rest hpart => ?_, ?_⟩⟩
  · exact h.ofBytes_of_append_eq hpart
  · exact fun rest => h.ofBytes_append

/-- Two holders who have to sign together, restricted. -/
def sampleNested : Address := .restricted (Sample.multiAddress [.alice, .bob] 2) [1, 2]

lemma fits_multiAddress (holders : List Sample.Holder) (hcount : holders.length ≤ 255)
    (threshold : UInt16) : (Sample.multiAddress holders threshold).Fits := by
  refine .multi (by rwa [List.length_map]) fun member hmember => ?_
  obtain ⟨holder, -, rfl⟩ := List.mem_map.1 hmember
  exact .ed25519 _

lemma fits_sampleNested : sampleNested.Fits :=
  .restricted (fits_multiAddress _ (by decide) 2) (by decide)

theorem ofBytes_sampleNested :
    sampleNested.Fits ∧ ofBytes sampleNested.toBytes = .ok sampleNested ∧
      sampleNested.toBytes.take 40 ++ sampleNested.toBytes.drop 40 = sampleNested.toBytes ∧
      sampleNested.toBytes.drop 40 ≠ [] ∧
      ofBytes (sampleNested.toBytes.take 40) = .error .truncated ∧
      ofBytes (sampleNested.toBytes ++ [0, 0]) = .error (.trailing 2) := by
  obtain ⟨hexact, hends⟩ := ofBytes_spelledOut
  obtain ⟨hcut, hmore⟩ := hends sampleNested fits_sampleNested
  have hparts := List.take_append_drop 40 sampleNested.toBytes
  have hrest : sampleNested.toBytes.drop 40 ≠ [] := by decide
  exact ⟨fits_sampleNested, (hexact _ _).2 ⟨fits_sampleNested, rfl⟩, hparts, hrest,
    hcut _ _ hparts hrest, hmore [0, 0] (by decide)⟩

end Address

end OutputIndex
