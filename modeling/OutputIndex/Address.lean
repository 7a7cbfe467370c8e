import OutputIndex.Identifier

/-!
# Addresses

An address says who may unlock an output.  Plain addresses are 32 bytes behind a kind byte;
a multi address is a list of weighted addresses with a threshold; a restricted address wraps an
address and lists capabilities.

Every address has two forms in bytes.  `Address.toBytes` spells the whole address out and is read
back by `Address.ofBytes`.  `Address.key` is what records and indexes hold: it agrees with the
spelled-out form except that the definition of a multi address is replaced by its digest.
-/

namespace OutputIndex

/-- An address. -/
inductive Address where
  /-- The holder of a key, by the hash of its public part. -/
  | ed25519 (hash : Hash32)
  /-- An account. -/
  | account (id : AccountId)
  /-- An NFT. -/
  | nft (id : NftId)
  /-- An anchor. -/
  | anchor (id : AnchorId)
  /-- The holder of a key, for whom an account is created. -/
  | implicitAccountCreation (hash : Hash32)
  /-- Members with weights; those that sign have to reach the threshold. -/
  | multi (members : List (Address × UInt8)) (threshold : UInt16)
  /-- An address restricted to some capabilities. -/
  | restricted (inner : Address) (capabilities : Bytes)

/-- The definition of a multi address. -/
structure MultiAddress where
  /-- The members, each with the weight of its signature. -/
  members : List (Address × UInt8)
  /-- The weight that the signing members have to reach. -/
  threshold : UInt16

/-- The form of an address that records and indexes hold. -/
abbrev AddressKey := Bytes

namespace Address

/-! ## Equality -/

mutual

/-- Decides whether two addresses are the same. -/
def decEq : (a b : Address) → Decidable (a = b)
  | .ed25519 x, .ed25519 y => decidable_of_iff (x = y) (by simp)
  | .account x, .account y => decidable_of_iff (x = y) (by simp)
  | .nft x, .nft y => decidable_of_iff (x = y) (by simp)
  | .anchor x, .anchor y => decidable_of_iff (x = y) (by simp)
  | .implicitAccountCreation x, .implicitAccountCreation y => decidable_of_iff (x = y) (by simp)
  | .multi xs t, .multi ys u =>
    have := decEqMembers xs ys
    decidable_of_iff (xs = ys ∧ t = u) (by simp)
  | .restricted x cs, .restricted y ds =>
    have := decEq x y
    decidable_of_iff (x = y ∧ cs = ds) (by simp)
  | .ed25519 _, .account _ | .ed25519 _, .nft _ | .ed25519 _, .anchor _
  | .ed25519 _, .implicitAccountCreation _ | .ed25519 _, .multi _ _ | .ed25519 _, .restricted _ _
  | .account _, .ed25519 _ | .account _, .nft _ | .account _, .anchor _
  | .account _, .implicitAccountCreation _ | .account _, .multi _ _ | .account _, .restricted _ _
  | .nft _, .ed25519 _ | .nft _, .account _ | .nft _, .anchor _
  | .nft _, .implicitAccountCreation _ | .nft _, .multi _ _ | .nft _, .restricted _ _
  | .anchor _, .ed25519 _ | .anchor _, .account _ | .anchor _, .nft _
  | .anchor _, .implicitAccountCreation _ | .anchor _, .multi _ _ | .anchor _, .restricted _ _
  | .implicitAccountCreation _, .ed25519 _ | .implicitAccountCreation _, .account _
  | .implicitAccountCreation _, .nft _ | .implicitAccountCreation _, .anchor _
  | .implicitAccountCreation _, .multi _ _ | .implicitAccountCreation _, .restricted _ _
  | .multi _ _, .ed25519 _ | .multi _ _, .account _ | .multi _ _, .nft _ | .multi _ _, .anchor _
  | .multi _ _, .implicitAccountCreation _ | .multi _ _, .restricted _ _
  | .restricted _ _, .ed25519 _ | .restricted _ _, .account _ | .restricted _ _, .nft _
  | .restricted _ _, .anchor _ | .restricted _ _, .implicitAccountCreation _
  | .restricted _ _, .multi _ _ => isFalse (by simp)

/-- Decides whether two lists of members are the same. -/
def decEqMembers : (xs ys : List (Address × UInt8)) → Decidable (xs = ys)
  | [], [] => isTrue rfl
  | (x, v) :: xs, (y, w) :: ys =>
    have := decEq x y
    have := decEqMembers xs ys
    decidable_of_iff ((x = y ∧ v = w) ∧ xs = ys) (by simp)
  | [], _ :: _ => isFalse (by simp)
  | _ :: _, [] => isFalse (by simp)

end

instance : DecidableEq Address := decEq

end Address

deriving instance DecidableEq for MultiAddress

namespace Address

/-! ## Kinds -/

/-- The byte that begins both forms of an address. -/
def kind : Address → UInt8
  | .ed25519 _ => 0
  | .account _ => 8
  | .nft _ => 16
  | .anchor _ => 24
  | .implicitAccountCreation _ => 32
  | .multi _ _ => 40
  | .restricted _ _ => 48

/-- Whether the address is an account. -/
def isAccount : Address → Bool
  | .account _ => true
  | _ => false

/-- The multi address that an address is, or wraps under any number of restrictions. -/
def multiAddress? : Address → Option MultiAddress
  | .multi members threshold => some ⟨members, threshold⟩
  | .restricted inner _ => inner.multiAddress?
  | _ => none

/-! ## The spelled-out form -/

/-- A length in one byte; longer lengths wrap around. -/
def lengthByte (length : Nat) : UInt8 := UInt8.ofNat length

mutual

/-- The spelled-out form of an address. -/
def toBytes : Address → Bytes
  | .ed25519 hash => 0 :: hash.toList
  | .account id => 8 :: id.toList
  | .nft id => 16 :: id.toList
  | .anchor id => 24 :: id.toList
  | .implicitAccountCreation hash => 32 :: hash.toList
  | .multi members threshold =>
    40 :: lengthByte members.length :: (memberBytes members ++ littleEndian 2 threshold.toNat)
  | .restricted inner capabilities =>
    48 :: (inner.toBytes ++ lengthByte capabilities.length :: capabilities)

/-- The spelled-out form of the members of a multi address, each before its weight. -/
def memberBytes : List (Address × UInt8) → Bytes
  | [] => []
  | (member, weight) :: rest => member.toBytes ++ weight :: memberBytes rest

end

/-- The hexadecimal text of the spelled-out form. -/
def hex (address : Address) : String := Hex.encode address.toBytes

/-! ## The key -/

end Address

namespace MultiAddress

/-- The definition as an address. -/
def toAddress (definition : MultiAddress) : Address :=
  .multi definition.members definition.threshold

/-- The spelled-out form of a definition. -/
def toBytes (definition : MultiAddress) : Bytes := definition.toAddress.toBytes

/-- The key of a definition: the kind byte and the digest of the spelled-out form. -/
def key (definition : MultiAddress) : AddressKey := 40 :: (digest definition.toBytes).toList

end MultiAddress

namespace Address

/-- The form of an address that records and indexes hold. -/
def key : Address → AddressKey
  | .multi members threshold => MultiAddress.key ⟨members, threshold⟩
  | .restricted inner capabilities =>
    48 :: (inner.key ++ lengthByte capabilities.length :: capabilities)
  | .ed25519 hash => (Address.ed25519 hash).toBytes
  | .account id => (Address.account id).toBytes
  | .nft id => (Address.nft id).toBytes
  | .anchor id => (Address.anchor id).toBytes
  | .implicitAccountCreation hash => (Address.implicitAccountCreation hash).toBytes

/-- Whether a key is that of the address.  The key of a plain address is compared part by part,
without building it. -/
def matchesKey (address : Address) (key : AddressKey) : Bool :=
  let plain (payload : Bytes) :=
    match key with
    | [] => false
    | kind :: rest => kind == address.kind && rest == payload
  match address with
  | .ed25519 hash => plain hash.toList
  | .implicitAccountCreation hash => plain hash.toList
  | .account id => plain id.toList
  | .nft id => plain id.toList
  | .anchor id => plain id.toList
  | .multi _ _ => address.key == key
  | .restricted _ _ => address.key == key

/-- The distinct multi addresses that some addresses are or wrap, each with its key, in the order
in which they first occur. -/
def multiAddresses (addresses : List Address) : List (AddressKey × MultiAddress) :=
  (addresses.filterMap multiAddress?).foldl
    (fun found definition =>
      if found.any fun entry => entry.1 == definition.key then found
      else found ++ [(definition.key, definition)])
    []

end Address

end OutputIndex
