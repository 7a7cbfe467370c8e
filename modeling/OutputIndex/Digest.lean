import OutputIndex.Bytes

/-!
# The digest BLAKE2b-256

Identifiers that an output does not spell out, and the keys of composite addresses, are digests of
byte strings.  The digest is BLAKE2b with an output of 32 bytes, no key and no salt: the input is
cut into blocks of 128 bytes, and each block is mixed into a chain of eight words by twelve rounds
over a working vector of sixteen words.
-/

namespace OutputIndex

/-- A digest of 32 bytes. -/
abbrev Hash32 := FixedBytes 32

namespace Blake2b

/-- The working vector of a compression. -/
abbrev Work := Vector UInt64 16

/-- The chain of words that a compression takes in and hands on. -/
abbrev Chain := Vector UInt64 8

/-- The initial chain. -/
def seed : Chain :=
  #v[0x6a09e667f3bcc908, 0xbb67ae8584caa73b, 0x3c6ef372fe94f82b, 0xa54ff53a5f1d36f1,
     0x510e527fade682d1, 0x9b05688c2b3e6c1f, 0x1f83d9abfb41bd6b, 0x5be0cd19137e2179]

/-- The order in which each of ten rounds takes the words of a block; the two rounds after them
start over. -/
def schedule : Vector (Vector (Fin 16) 16) 10 :=
  #v[#v[0, 1, 2, 3, 4, 5, 6, 7, 8, 9, 10, 11, 12, 13, 14, 15],
     #v[14, 10, 4, 8, 9, 15, 13, 6, 1, 12, 0, 2, 11, 7, 5, 3],
     #v[11, 8, 12, 0, 5, 2, 15, 13, 10, 14, 3, 6, 7, 1, 9, 4],
     #v[7, 9, 3, 1, 13, 12, 11, 14, 2, 6, 5, 10, 4, 0, 15, 8],
     #v[9, 0, 5, 7, 2, 4, 10, 15, 14, 1, 11, 12, 6, 8, 3, 13],
     #v[2, 12, 6, 10, 0, 11, 8, 3, 4, 13, 7, 5, 15, 14, 1, 9],
     #v[12, 5, 1, 15, 14, 13, 4, 10, 0, 7, 6, 3, 9, 2, 8, 11],
     #v[13, 11, 7, 14, 12, 1, 3, 9, 5, 0, 15, 4, 8, 6, 2, 10],
     #v[6, 15, 14, 9, 11, 3, 0, 8, 12, 2, 13, 7, 1, 4, 10, 5],
     #v[10, 2, 8, 4, 7, 6, 1, 5, 15, 11, 9, 14, 3, 12, 13, 0]]

/-- A word turned right by `bits`. -/
def rotateRight (word bits : UInt64) : UInt64 := (word >>> bits) ||| (word <<< (64 - bits))

/-- Mixes two words of the block into four words of the working vector. -/
def mix (work : Work) (a b c d : Fin 16) (x y : UInt64) : Work :=
  let va := work[a] + work[b] + x
  let vd := rotateRight (work[d] ^^^ va) 32
  let vc := work[c] + vd
  let vb := rotateRight (work[b] ^^^ vc) 24
  let va := va + vb + y
  let vd := rotateRight (vd ^^^ va) 16
  let vc := vc + vd
  let vb := rotateRight (vb ^^^ vc) 63
  (((work.set a va).set b vb).set c vc).set d vd

/-- The four columns and four diagonals of the working vector, in mixing order. -/
def lanes : List (Fin 16 × Fin 16 × Fin 16 × Fin 16) :=
  [(0, 4, 8, 12), (1, 5, 9, 13), (2, 6, 10, 14), (3, 7, 11, 15),
   (0, 5, 10, 15), (1, 6, 11, 12), (2, 7, 8, 13), (3, 4, 9, 14)]

/-- One round: every lane is mixed with the next two words of the order. -/
def round (block : Work) (order : Vector (Fin 16) 16) (work : Work) : Work :=
  (lanes.zip (order.toList.zip order.toList.tail |>.zipIdx.filter (·.2 % 2 = 0))).foldl
    (fun work ((a, b, c, d), ((x, y), _)) => mix work a b c d block[x] block[y]) work

/-- The words of a block; one that is shorter is filled up with zeros. -/
def words (block : Bytes) : Work :=
  Vector.ofFn fun i => UInt64.ofNat (ofLittleEndian ((block.drop (8 * i)).take 8))

/-- Mixes a block into the chain.  `count` is the number of bytes read up to the end of the block,
and `last` marks the final block. -/
def compress (chain : Chain) (block : Bytes) (count : Nat) (last : Bool) : Chain :=
  let work : Work := chain ++ seed
  -- the count has 128 bits, the low half first
  let work := work.set 12 (work[12] ^^^ UInt64.ofNat count)
  let work := work.set 13 (work[13] ^^^ UInt64.ofNat (count / UInt64.size))
  let work := if last then work.set 14 (~~~work[14]) else work
  -- of twelve rounds the last two use the first two orders again
  let orders := schedule.toList ++ schedule.toList.take 2
  let work := orders.foldl (fun work order => round (words block) order work) work
  Vector.ofFn fun i => chain[i] ^^^ work[i.castLE (by omega : 8 ≤ 16)] ^^^ work[i.natAdd 8]

/-- Mixes `full` blocks of 128 bytes and then the rest as the final block. -/
def absorb : Nat → Nat → Chain → Bytes → Chain
  | 0, count, chain, data => compress chain data (count + data.length) true
  | full + 1, count, chain, data =>
    absorb full (count + 128) (compress chain (data.take 128) (count + 128) false)
      (data.drop 128)

end Blake2b

open Blake2b in
/-- The BLAKE2b-256 digest of a byte string. -/
def digest (data : Bytes) : Hash32 :=
  let start := seed.set 0 (seed[0] ^^^ 0x01010020)
  let chain := absorb ((data.length - 1) / 128) 0 start data
  ⟨[chain[0], chain[1], chain[2], chain[3]].flatMap fun word => littleEndian 8 word.toNat,
    by simp⟩

end OutputIndex
