import OutputIndex.Filter
import OutputIndex.Proofs.Address

/-!
# The key of an address

An address matches exactly one key, its own (`Address.matchesKey_iff`).  A key begins with the kind
bytes of the restrictions around an address, and the key of the multi address, if there is one
inside, follows them (`Address.multiKey?_key`).

A key ends itself as the spelled-out form does, so the keys of two addresses that fit are the same
only if the addresses are, as long as the digest tells their multi addresses apart
(`Address.Identifiable.key_inj`).  Therefore an option of a filter that asks for an address finds
the records of that very address (`Address.matchesKey_identifies`).
-/

namespace OutputIndex

/-- The bytes of a fixed number of bytes tell where they end. -/
lemma FixedBytes.append_inj {n : ℕ} {first second : FixedBytes n} {rest rest' : Bytes}
    (h : first.toList ++ rest = second.toList ++ rest') : first = second ∧ rest = rest' := by
  have hlength : first.toList.length = second.toList.length :=
    first.length_eq.trans second.length_eq.symm
  obtain ⟨hfirst, hrest⟩ := List.append_inj h hlength
  exact ⟨FixedBytes.ext hfirst, hrest⟩

namespace Store

/-- No two of the definitions have the same digest. -/
def DigestsDiffer (definitions : Set MultiAddress) : Prop :=
  ∀ d ∈ definitions, ∀ e ∈ definitions, digest d.toBytes = digest e.toBytes → d.toBytes = e.toBytes

lemma DigestsDiffer.toBytes_eq {definitions : Set MultiAddress} (h : DigestsDiffer definitions)
    {d e : MultiAddress} (hd : d ∈ definitions) (he : e ∈ definitions) (hkey : d.key = e.key) :
    d.toBytes = e.toBytes := by
  refine h d hd e he (FixedBytes.ext ?_)
  exact (List.cons.inj hkey).2

end Store

namespace Address

variable {address other : Address} {key : AddressKey} {rest rest' : Bytes}

/-- The one key that an address matches is its own. -/
lemma matchesKey_iff : address.matchesKey key = true ↔ key = address.key := by
  cases address with
  -- keys with a digest inside are compared as a whole, all others part by part
  | multi members threshold => exact beq_iff_eq.trans eq_comm
  | restricted inner capabilities => exact beq_iff_eq.trans eq_comm
  | _ => cases key <;> simp [matchesKey, Address.key, toBytes, kind]

/-! ## The multi address inside a key -/

/-- The key of the multi address inside an address, read off the key of the address: behind the
bytes of the restrictions around it. -/
def multiKey? : AddressKey → Option AddressKey
  | [] => none
  | kind :: rest =>
    if kind = 48 then multiKey? rest
    else if kind = 40 then some (40 :: rest.take 32)
    else none

/-- What follows a key does not matter for what multi address is inside. -/
lemma multiKey?_key_append (address : Address) (rest : Bytes) :
    multiKey? (address.key ++ rest) = address.multiAddress?.map (·.key) := by
  match address with
  | .multi members threshold =>
    have hlength : (digest (MultiAddress.toBytes ⟨members, threshold⟩)).toList.length = 32 :=
      (digest _).length_eq
    simp [key, MultiAddress.key, multiKey?, multiAddress?, List.take_left' hlength]
  | .restricted inner capabilities =>
    have hinner := multiKey?_key_append inner
      ((lengthByte capabilities.length :: capabilities) ++ rest)
    rw [← List.append_assoc] at hinner
    rw [key, List.cons_append, multiKey?, if_pos rfl, hinner, multiAddress?]
  | .ed25519 _ | .account _ | .nft _ | .anchor _ | .implicitAccountCreation _ =>
    simp [key, toBytes, multiKey?, multiAddress?]

lemma multiKey?_key (address : Address) :
    multiKey? address.key = address.multiAddress?.map (·.key) := by
  have hkey := multiKey?_key_append address []
  rwa [List.append_nil] at hkey

/-! ## Keys identify addresses -/

/-- The definitions of the multi addresses that some addresses are or wrap. -/
def definitionsIn (addresses : Set Address) : Set MultiAddress :=
  {definition | ∃ address ∈ addresses, address.multiAddress? = some definition}

/-- The addresses fit, and no two multi addresses among them have the same digest. -/
structure Identifiable (addresses : Set Address) : Prop where
  fits : ∀ address ∈ addresses, address.Fits
  digestsDiffer : Store.DigestsDiffer (definitionsIn addresses)

lemma Identifiable.mono {addresses others : Set Address} (h : Identifiable addresses)
    (hsubset : others ⊆ addresses) : Identifiable others where
  fits address haddress := h.fits address (hsubset haddress)
  digestsDiffer := by
    rintro d ⟨a, ha, hd⟩ e ⟨b, hb, he⟩
    exact h.digestsDiffer d ⟨a, hsubset ha, hd⟩ e ⟨b, hsubset hb, he⟩

/-- A key begins with the kind of its address. -/
lemma head?_key_append (address : Address) (rest : Bytes) :
    (address.key ++ rest).head? = some address.kind := by
  cases address <;> rfl

lemma kind_eq_of_key_append_eq (h : address.key ++ rest = other.key ++ rest') :
    address.kind = other.kind := by
  have hhead := head?_key_append address rest
  rw [h, head?_key_append] at hhead
  exact (Option.some.inj hhead).symm

/-- What follows a length and as many bytes can be told from them. -/
lemma capabilities_append_inj {capabilities capabilities' : Bytes}
    (hlength : capabilities.length ≤ 255) (hlength' : capabilities'.length ≤ 255)
    (h : lengthByte capabilities.length :: capabilities ++ rest =
      lengthByte capabilities'.length :: capabilities' ++ rest') :
    capabilities = capabilities' ∧ rest = rest' := by
  obtain ⟨hbyte, htail⟩ := List.cons.inj h
  have hsame : capabilities.length = capabilities'.length := by
    rw [← toNat_lengthByte hlength, hbyte, toNat_lengthByte hlength']
  exact List.append_inj htail hsame

/-- Keys, and whatever follows them, are the same only if the addresses are. -/
lemma Fits.key_append_inj (h : address.Fits) (hother : other.Fits)
    (hdigests : ∀ d e, address.multiAddress? = some d → other.multiAddress? = some e →
      d.key = e.key → d.toBytes = e.toBytes)
    (hkey : address.key ++ rest = other.key ++ rest') : address = other ∧ rest = rest' := by
  have hkind := kind_eq_of_key_append_eq hkey
  induction h generalizing other rest rest' with
  | ed25519 hash | implicitAccountCreation hash =>
    -- addresses of other kinds have other keys
    cases hother <;> simp [kind] at hkind
    obtain ⟨rfl, hrest⟩ := FixedBytes.append_inj (List.cons.inj hkey).2
    exact ⟨rfl, hrest⟩
  | account id | nft id | anchor id =>
    cases hother <;> simp [kind] at hkind
    obtain ⟨hid, hrest⟩ := FixedBytes.append_inj (List.cons.inj hkey).2
    rw [Identifier.ext hid]
    exact ⟨rfl, hrest⟩
  | multi hcount hmembers =>
    cases hother <;> simp [kind] at hkind
    rename_i hcount' hmembers'
    obtain ⟨hdigest, hrest⟩ := FixedBytes.append_inj (List.cons.inj hkey).2
    have hbytes := hdigests _ _ rfl rfl (by rw [MultiAddress.key, hdigest, MultiAddress.key])
    exact ⟨(Fits.multi hcount hmembers).eq_of_toBytes_eq (.multi hcount' hmembers') hbytes, hrest⟩
  | restricted hinner hlength ih =>
    cases hother <;> simp [kind] at hkind
    rename_i hinner' hlength'
    simp only [key, List.cons_append, List.append_assoc] at hkey
    have hinnerKey := (List.cons.inj hkey).2
    obtain ⟨rfl, htail⟩ := ih hinner' hdigests hinnerKey (kind_eq_of_key_append_eq hinnerKey)
    obtain ⟨rfl, hrest⟩ := capabilities_append_inj hlength hlength' htail
    exact ⟨rfl, hrest⟩

/-- The keys of identifiable addresses are the same only if the addresses are. -/
lemma Identifiable.key_inj {addresses : Set Address} (h : Identifiable addresses)
    (haddress : address ∈ addresses) (hother : other ∈ addresses) :
    address.key = other.key ↔ address = other := by
  refine ⟨fun hkey => ?_, fun hsame => congrArg Address.key hsame⟩
  have hdigests : ∀ d e, address.multiAddress? = some d → other.multiAddress? = some e →
      d.key = e.key → d.toBytes = e.toBytes :=
    fun d e hd he => h.digestsDiffer.toBytes_eq ⟨address, haddress, hd⟩ ⟨other, hother, he⟩
  have happend : address.key ++ [] = other.key ++ [] := by rw [hkey]
  exact ((h.fits address haddress).key_append_inj (h.fits other hother) hdigests happend).1

/-- **Keys identify addresses.**  An address matches its own key and no other.  Of two addresses
that fit and whose multi addresses the digest tells apart, the keys are the same only if the
addresses are; so a filter that asks for one of them finds the other in a record only if it is the
same. -/
theorem matchesKey_identifies :
    (∀ (address : Address) (key : AddressKey),
        address.matchesKey key = true ↔ key = address.key) ∧
      (∀ a b : Address, Identifiable {a, b} → (a.key = b.key ↔ a = b)) ∧
      (∀ wanted carried : Address, Identifiable {wanted, carried} →
        (Filter.admitsKey (some wanted) carried.key = true ↔ carried = wanted)) ∧
      ∀ (wanted : Address) (carried : Option Address),
        (∀ address ∈ carried, Identifiable {wanted, address}) →
          (Filter.admitsOptionalKey (some wanted) (carried.map (·.key)) = true ↔
            carried = some wanted) := by
  have hfound : ∀ wanted carried : Address, Identifiable {wanted, carried} →
      (wanted.matchesKey carried.key = true ↔ carried = wanted) := by
    intro wanted carried h
    rw [matchesKey_iff, h.key_inj (.inr rfl) (.inl rfl)]
  refine ⟨fun address key => matchesKey_iff, fun a b h => h.key_inj (.inl rfl) (.inr rfl),
    hfound, fun wanted carried h => ?_⟩
  cases carried with
  | none => simp [Filter.admitsOptionalKey]
  | some carried =>
    rw [Option.some.injEq]
    exact hfound wanted carried (h carried rfl)

/-- The multi address of two holders, as it is and restricted. -/
lemma identifiable_sampleNested :
    Identifiable {sampleNested, Sample.multiAddress [.alice, .bob] 2} where
  fits := by
    rintro address (rfl | rfl)
    · exact fits_sampleNested
    · exact fits_multiAddress _ (by decide) 2
  digestsDiffer := by
    have hsame : ∀ d ∈ definitionsIn {sampleNested, Sample.multiAddress [.alice, .bob] 2},
        d.toAddress = Sample.multiAddress [.alice, .bob] 2 := by
      rintro d ⟨address, rfl | rfl, hd⟩ <;> exact Option.some.inj hd ▸ rfl
    intro d hd e he _
    rw [MultiAddress.toBytes, MultiAddress.toBytes, hsame d hd, hsame e he]

theorem matchesKey_sampleNested :
    Identifiable {sampleNested, Sample.multiAddress [.alice, .bob] 2} ∧
      sampleNested.matchesKey sampleNested.key = true ∧
      sampleNested.key ≠ (Sample.multiAddress [.alice, .bob] 2).key ∧
      Filter.admitsKey (some sampleNested) (Sample.multiAddress [.alice, .bob] 2).key = false ∧
      Filter.admitsOptionalKey (some sampleNested) (some sampleNested.key) = true := by
  obtain ⟨hmatches, hkeys, hrequired, hoptional⟩ := matchesKey_identifies
  have hdiffer : sampleNested ≠ Sample.multiAddress [.alice, .bob] 2 := nofun
  have hself : Identifiable {sampleNested, sampleNested} :=
    identifiable_sampleNested.mono (by simp)
  refine ⟨identifiable_sampleNested, (hmatches _ _).2 rfl, ?_, ?_, ?_⟩
  · exact fun hkey => hdiffer ((hkeys _ _ identifiable_sampleNested).1 hkey)
  · rw [← Bool.not_eq_true, hrequired _ _ identifiable_sampleNested]
    exact hdiffer.symm
  · refine (hoptional sampleNested (some sampleNested) ?_).2 rfl
    intro address haddress
    exact Option.some.inj haddress ▸ hself

end Address

end OutputIndex
