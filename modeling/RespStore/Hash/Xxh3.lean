import RespStore.Bytes

/-!
# RespStore.Hash.Xxh3

The 64-bit XXH3 hash of a byte string, with seed zero and the default secret. A key's shard and
its bucket are both read off this value.

The function has one rule for each class of lengths: none, 1 to 3, 4 to 8, 9 to 16, 17 to 128,
129 to 240, and beyond. The short classes mix a few overlapping reads of the input with words of
the secret; the long one runs eight accumulators over stripes of 64 bytes and scrambles them
after every sixteen stripes. All arithmetic is on 64-bit words and wraps.
-/

namespace RespStore.Xxh3

/-! ### Words -/

/-- The little-endian value of a few bytes. -/
def word (bs : Bytes) : UInt64 := bs.foldr (fun b acc => acc <<< 8 ||| b.toUInt64) 0

/-- The 32-bit word that starts at position `start`. -/
def read32 (bs : Bytes) (start : Nat) : UInt64 := word (bs.slice start (start + 4))

/-- The 64-bit word that starts at position `start`. -/
def read64 (bs : Bytes) (start : Nat) : UInt64 := word (bs.slice start (start + 8))

/-- Rotation to the left. -/
def rotate (x amount : UInt64) : UInt64 := x <<< amount ||| x >>> (64 - amount)

/-- The bytes of a word in the opposite order. -/
def reverseBytes (x : UInt64) : UInt64 :=
  (List.range 8).foldl (fun acc i => acc <<< 8 ||| (x >>> (8 * i.toUInt64) &&& 0xFF)) 0

/-- The two halves of the full product of two words, combined by exclusive or. -/
def foldedProduct (a b : UInt64) : UInt64 :=
  let product := a.toNat * b.toNat
  product.toUInt64 ^^^ (product >>> 64).toUInt64

/-! ### Constants -/

def prime32a : UInt64 := 0x9E3779B1
def prime32b : UInt64 := 0x85EBCA77
def prime32c : UInt64 := 0xC2B2AE3D
def prime64a : UInt64 := 0x9E3779B185EBCA87
def prime64b : UInt64 := 0xC2B2AE3D27D4EB4F
def prime64c : UInt64 := 0x165667B19E3779F9
def prime64d : UInt64 := 0x85EBCA77C2B2AE63
def prime64e : UInt64 := 0x27D4EB2F165667C5
def primeMixA : UInt64 := 0x165667919E3779F9
def primeMixB : UInt64 := 0x9FB21C651E98DF25

/-- The default secret, 192 bytes that the input is mixed with. -/
def secret : Bytes :=
  [
    0xB8, 0xFE, 0x6C, 0x39, 0x23, 0xA4, 0x4B, 0xBE, 0x7C, 0x01, 0x81, 0x2C,
    0xF7, 0x21, 0xAD, 0x1C, 0xDE, 0xD4, 0x6D, 0xE9, 0x83, 0x90, 0x97, 0xDB,
    0x72, 0x40, 0xA4, 0xA4, 0xB7, 0xB3, 0x67, 0x1F, 0xCB, 0x79, 0xE6, 0x4E,
    0xCC, 0xC0, 0xE5, 0x78, 0x82, 0x5A, 0xD0, 0x7D, 0xCC, 0xFF, 0x72, 0x21,
    0xB8, 0x08, 0x46, 0x74, 0xF7, 0x43, 0x24, 0x8E, 0xE0, 0x35, 0x90, 0xE6,
    0x81, 0x3A, 0x26, 0x4C, 0x3C, 0x28, 0x52, 0xBB, 0x91, 0xC3, 0x00, 0xCB,
    0x88, 0xD0, 0x65, 0x8B, 0x1B, 0x53, 0x2E, 0xA3, 0x71, 0x64, 0x48, 0x97,
    0xA2, 0x0D, 0xF9, 0x4E, 0x38, 0x19, 0xEF, 0x46, 0xA9, 0xDE, 0xAC, 0xD8,
    0xA8, 0xFA, 0x76, 0x3F, 0xE3, 0x9C, 0x34, 0x3F, 0xF9, 0xDC, 0xBB, 0xC7,
    0xC7, 0x0B, 0x4F, 0x1D, 0x8A, 0x51, 0xE0, 0x4B, 0xCD, 0xB4, 0x59, 0x31,
    0xC8, 0x9F, 0x7E, 0xC9, 0xD9, 0x78, 0x73, 0x64, 0xEA, 0xC5, 0xAC, 0x83,
    0x34, 0xD3, 0xEB, 0xC3, 0xC5, 0x81, 0xA0, 0xFF, 0xFA, 0x13, 0x63, 0xEB,
    0x17, 0x0D, 0xDD, 0x51, 0xB7, 0xF0, 0xDA, 0x49, 0xD3, 0x16, 0x55, 0x26,
    0x29, 0xD4, 0x68, 0x9E, 0x2B, 0x16, 0xBE, 0x58, 0x7D, 0x47, 0xA1, 0xFC,
    0x8F, 0xF8, 0xB8, 0xD1, 0x7A, 0xD0, 0x31, 0xCE, 0x45, 0xCB, 0x3A, 0x8F,
    0x95, 0x16, 0x04, 0x28, 0xAF, 0xD7, 0xFB, 0xCA, 0xBB, 0x4B, 0x40, 0x7E]

/-! ### Final mixing -/

/-- The finish of the shortest inputs. -/
def finishShort (h : UInt64) : UInt64 :=
  let h := (h ^^^ h >>> 33) * prime64b
  let h := (h ^^^ h >>> 29) * prime64c
  h ^^^ h >>> 32

/-- The finish of all inputs from nine bytes on. -/
def finish (h : UInt64) : UInt64 :=
  let h := (h ^^^ h >>> 37) * primeMixA
  h ^^^ h >>> 32

/-- The finish of inputs of four to eight bytes. -/
def finishWord (h length : UInt64) : UInt64 :=
  let h := (h ^^^ rotate h 49 ^^^ rotate h 24) * primeMixB
  let h := (h ^^^ (h >>> 35 + length)) * primeMixB
  h ^^^ h >>> 28

/-! ### The classes of lengths -/

/-- No bytes. -/
def hashEmpty : UInt64 := finishShort (read64 secret 56 ^^^ read64 secret 64)

/-- One to three bytes: the first, the middle and the last, with the length. -/
def hashTo3 (bs : Bytes) : UInt64 :=
  let byte (i : Nat) : UInt64 := (bs.getD i 0).toUInt64
  let n := bs.length
  let combined := byte 0 <<< 16 ||| byte (n / 2) <<< 24 ||| byte (n - 1) ||| n.toUInt64 <<< 8
  finishShort (combined ^^^ (read32 secret 0 ^^^ read32 secret 4))

/-- Four to eight bytes: the first and the last four. -/
def hashTo8 (bs : Bytes) : UInt64 :=
  let n := bs.length
  let input := read32 bs (n - 4) + read32 bs 0 <<< 32
  finishWord (input ^^^ (read64 secret 8 ^^^ read64 secret 16)) n.toUInt64

/-- Nine to sixteen bytes: the first and the last eight. -/
def hashTo16 (bs : Bytes) : UInt64 :=
  let n := bs.length
  let low := read64 bs 0 ^^^ (read64 secret 24 ^^^ read64 secret 32)
  let high := read64 bs (n - 8) ^^^ (read64 secret 40 ^^^ read64 secret 48)
  finish (n.toUInt64 + reverseBytes low + high + foldedProduct low high)

/-- Sixteen bytes of input at `start` mixed with sixteen of the secret at `key`. -/
def mix (bs : Bytes) (start key : Nat) : UInt64 :=
  foldedProduct (read64 bs start ^^^ read64 secret key)
    (read64 bs (start + 8) ^^^ read64 secret (key + 8))

/-- 17 to 128 bytes: pairs of reads, one from the front and one from the back, from the ends
inwards until they meet. -/
def hashTo128 (bs : Bytes) : UInt64 :=
  let n := bs.length
  let pairs := (n - 1) / 32 + 1
  -- the innermost reads overlap where the length is no multiple of 32
  finish <| (List.range pairs).foldl
    (fun acc i => acc + mix bs (16 * i) (32 * i) + mix bs (n - 16 * (i + 1)) (32 * i + 16))
    (n.toUInt64 * prime64a)

/-- 129 to 240 bytes: eight reads, an intermediate finish, the reads that are left with a shifted
secret, and the last sixteen bytes. -/
def hashTo240 (bs : Bytes) : UInt64 :=
  let n := bs.length
  let front := finish <| (List.range 8).foldl
    (fun acc i => acc + mix bs (16 * i) (16 * i)) (n.toUInt64 * prime64a)
  let back := (List.range (n / 16 - 8)).foldl
    (fun acc i => acc + mix bs (16 * (i + 8)) (16 * i + 3)) front
  finish (back + mix bs (n - 16) 119)

/-! ### Long inputs -/

/-- The eight words of a stripe. -/
def lanes (bs : Bytes) : List UInt64 := (List.range 8).map fun i => read64 bs (8 * i)

/-- Neighbouring words exchanged. -/
def swapPairs : List UInt64 → List UInt64
  | a :: b :: rest => b :: a :: swapPairs rest
  | rest => rest

/-- The accumulators before the first stripe. -/
def initialLanes : List UInt64 :=
  [prime32c, prime64a, prime64b, prime64c, prime64d, prime32b, prime64e, prime32a]

/-- The product of the two halves of a word. -/
def halvesProduct (x : UInt64) : UInt64 := (x &&& (0xFFFFFFFF : UInt64)) * (x >>> 32)

/-- Takes in the stripe at the start of `bs`: every accumulator gains the neighbouring word of the
stripe and the product of the halves of its own word under the key. -/
def absorb (acc : List UInt64) (bs key : Bytes) : List UInt64 :=
  let data := lanes bs
  let keyed := List.zipWith (· ^^^ ·) data (lanes key)
  List.zipWith (· + ·) (List.zipWith (· + ·) acc (swapPairs data)) (keyed.map halvesProduct)

/-- Takes in `count` stripes, moving on by eight bytes of the secret for each. -/
def absorbAll : (count : Nat) → (acc : List UInt64) → (bs key : Bytes) → List UInt64
  | 0, acc, _, _ => acc
  | count + 1, acc, bs, key => absorbAll count (absorb acc bs key) (bs.drop 64) (key.drop 8)

/-- The mixing after each block of sixteen stripes. -/
def scramble (acc : List UInt64) : List UInt64 :=
  let mixLane (a k : UInt64) : UInt64 := (a ^^^ a >>> 47 ^^^ k) * prime32a
  List.zipWith mixLane acc (lanes (secret.drop 128))

/-- Takes in `count` blocks of 1024 bytes and returns the bytes after them. -/
def absorbBlocks : (count : Nat) → (acc : List UInt64) → (bs : Bytes) → List UInt64 × Bytes
  | 0, acc, bs => (acc, bs)
  | count + 1, acc, bs =>
    absorbBlocks count (scramble (absorbAll 16 acc bs secret)) (bs.drop 1024)

/-- Combines neighbouring accumulators with the secret. -/
def mergePairs (total : UInt64) : List UInt64 → Bytes → UInt64
  | a :: b :: rest, key =>
    mergePairs (total + foldedProduct (a ^^^ read64 key 0) (b ^^^ read64 key 8)) rest (key.drop 16)
  | _, _ => total

/-- More than 240 bytes. The last 64 bytes are always taken in as a stripe of their own. -/
def hashLong (bs : Bytes) : UInt64 :=
  let n := bs.length
  let blocks := (n - 1) / 1024
  -- the last block is never scrambled, even when it is whole
  let (acc, rest) := absorbBlocks blocks initialLanes bs
  let acc := absorbAll ((n - 1 - 1024 * blocks) / 64) acc rest secret
  let acc := absorb acc (bs.drop (n - 64)) (secret.drop 121)
  finish (mergePairs (n.toUInt64 * prime64a) acc (secret.drop 11))

/-- The hash of a byte string. -/
def hash (bs : Bytes) : UInt64 :=
  match bs.length with
  | 0 => hashEmpty
  | n =>
    if n ≤ 3 then hashTo3 bs
    else if n ≤ 8 then hashTo8 bs
    else if n ≤ 16 then hashTo16 bs
    else if n ≤ 128 then hashTo128 bs
    else if n ≤ 240 then hashTo240 bs
    else hashLong bs

end RespStore.Xxh3
