/-!
# The XXH3 digest of 128 bits

XXH3 with seed zero and the standard secret, as its specification lays it down: four short forms by
length (0, 1–3, 4–8, 9–16 bytes), two middle forms (17–128, 129–240) and a striped form for
anything longer.  All words are little-endian; `UInt64` arithmetic wraps, as the algorithm asks.

* `digest` — both halves of the digest, the low one first.
-/

namespace Netscribe.Xxh3

/-! ## Words -/

/-- The byte at a position, zero past the end. -/
def byteAt (data : ByteArray) (i : Nat) : UInt8 :=
  if h : i < data.size then data[i] else 0

/-- The little-endian word of four bytes at a position. -/
def word32 (data : ByteArray) (i : Nat) : UInt32 :=
  (byteAt data i).toUInt32 ||| (byteAt data (i + 1)).toUInt32 <<< 8 |||
    (byteAt data (i + 2)).toUInt32 <<< 16 ||| (byteAt data (i + 3)).toUInt32 <<< 24

/-- The little-endian word of eight bytes at a position. -/
def word64 (data : ByteArray) (i : Nat) : UInt64 :=
  (word32 data i).toUInt64 ||| (word32 data (i + 4)).toUInt64 <<< 32

/-- The bytes of a word in the opposite order. -/
def swap32 (x : UInt32) : UInt32 :=
  (x <<< 24) ||| ((x <<< 8) &&& (0x00FF0000 : UInt32)) |||
    ((x >>> 8) &&& (0x0000FF00 : UInt32)) ||| (x >>> 24)

/-- The bytes of a double word in the opposite order. -/
def swap64 (x : UInt64) : UInt64 :=
  (swap32 x.toUInt32).toUInt64 <<< 32 ||| (swap32 (x >>> 32).toUInt32).toUInt64

def rotateLeft32 (x : UInt32) (n : UInt32) : UInt32 :=
  (x <<< n) ||| (x >>> (32 - n))

/-- A number of 128 bits as two words. -/
structure Wide where
  low : UInt64
  high : UInt64
  deriving DecidableEq

/-- The full product of two words. -/
def mulWide (a b : UInt64) : Wide :=
  let product := a.toNat * b.toNat
  ⟨UInt64.ofNat product, UInt64.ofNat (product >>> 64)⟩

/-- The two halves of the full product, folded into one word. -/
def mulFold (a b : UInt64) : UInt64 :=
  let product := mulWide a b
  product.low ^^^ product.high

/-! ## Constants -/

/-- First prime of 32 bits. -/
def prime32A : UInt64 := 0x9E3779B1
/-- Second prime of 32 bits. -/
def prime32B : UInt64 := 0x85EBCA77
/-- Third prime of 32 bits. -/
def prime32C : UInt64 := 0xC2B2AE3D
/-- First prime of 64 bits. -/
def prime64A : UInt64 := 0x9E3779B185EBCA87
/-- Second prime of 64 bits. -/
def prime64B : UInt64 := 0xC2B2AE3D27D4EB4F
/-- Third prime of 64 bits. -/
def prime64C : UInt64 := 0x165667B19E3779F9
/-- Fourth prime of 64 bits. -/
def prime64D : UInt64 := 0x85EBCA77C2B2AE63
/-- Fifth prime of 64 bits. -/
def prime64E : UInt64 := 0x27D4EB2F165667C5
def mixA : UInt64 := 0x165667919E3779F9
def mixB : UInt64 := 0x9FB21C651E98DF25

/-- The standard secret, 192 bytes. -/
def secret : ByteArray := ⟨#[
  0xb8, 0xfe, 0x6c, 0x39, 0x23, 0xa4, 0x4b, 0xbe, 0x7c, 0x01, 0x81, 0x2c, 0xf7, 0x21, 0xad, 0x1c,
  0xde, 0xd4, 0x6d, 0xe9, 0x83, 0x90, 0x97, 0xdb, 0x72, 0x40, 0xa4, 0xa4, 0xb7, 0xb3, 0x67, 0x1f,
  0xcb, 0x79, 0xe6, 0x4e, 0xcc, 0xc0, 0xe5, 0x78, 0x82, 0x5a, 0xd0, 0x7d, 0xcc, 0xff, 0x72, 0x21,
  0xb8, 0x08, 0x46, 0x74, 0xf7, 0x43, 0x24, 0x8e, 0xe0, 0x35, 0x90, 0xe6, 0x81, 0x3a, 0x26, 0x4c,
  0x3c, 0x28, 0x52, 0xbb, 0x91, 0xc3, 0x00, 0xcb, 0x88, 0xd0, 0x65, 0x8b, 0x1b, 0x53, 0x2e, 0xa3,
  0x71, 0x64, 0x48, 0x97, 0xa2, 0x0d, 0xf9, 0x4e, 0x38, 0x19, 0xef, 0x46, 0xa9, 0xde, 0xac, 0xd8,
  0xa8, 0xfa, 0x76, 0x3f, 0xe3, 0x9c, 0x34, 0x3f, 0xf9, 0xdc, 0xbb, 0xc7, 0xc7, 0x0b, 0x4f, 0x1d,
  0x8a, 0x51, 0xe0, 0x4b, 0xcd, 0xb4, 0x59, 0x31, 0xc8, 0x9f, 0x7e, 0xc9, 0xd9, 0x78, 0x73, 0x64,
  0xea, 0xc5, 0xac, 0x83, 0x34, 0xd3, 0xeb, 0xc3, 0xc5, 0x81, 0xa0, 0xff, 0xfa, 0x13, 0x63, 0xeb,
  0x17, 0x0d, 0xdd, 0x51, 0xb7, 0xf0, 0xda, 0x49, 0xd3, 0x16, 0x55, 0x26, 0x29, 0xd4, 0x68, 0x9e,
  0x2b, 0x16, 0xbe, 0x58, 0x7d, 0x47, 0xa1, 0xfc, 0x8f, 0xf8, 0xb8, 0xd1, 0x7a, 0xd0, 0x31, 0xce,
  0x45, 0xcb, 0x3a, 0x8f, 0x95, 0x16, 0x04, 0x28, 0xaf, 0xd7, 0xfb, 0xca, 0xbb, 0x4b, 0x40, 0x7e]⟩

/-! ## Avalanches -/

/-- The final mixing of the shortest forms. -/
def avalancheShort (h : UInt64) : UInt64 :=
  let h := (h ^^^ (h >>> 33)) * prime64B
  let h := (h ^^^ (h >>> 29)) * prime64C
  h ^^^ (h >>> 32)

/-- The final mixing of every other form. -/
def avalanche (h : UInt64) : UInt64 :=
  let h := (h ^^^ (h >>> 37)) * mixA
  h ^^^ (h >>> 32)

/-! ## Up to sixteen bytes -/

/-- No input: two pairs of secret words. -/
def digestEmpty : Wide :=
  ⟨avalancheShort (word64 secret 64 ^^^ word64 secret 72),
   avalancheShort (word64 secret 80 ^^^ word64 secret 88)⟩

/-- One to three bytes: first, middle and last byte with the length in one word. -/
def digestTo3 (data : ByteArray) : Wide :=
  let size := data.size
  let first := (byteAt data 0).toUInt32
  let middle := (byteAt data (size / 2)).toUInt32
  let last := (byteAt data (size - 1)).toUInt32
  let packed := (first <<< 16) ||| (middle <<< 24) ||| last ||| (UInt32.ofNat size <<< 8)
  let turned := rotateLeft32 (swap32 packed) 13
  let flipLow := (word32 secret 0 ^^^ word32 secret 4).toUInt64
  let flipHigh := (word32 secret 8 ^^^ word32 secret 12).toUInt64
  ⟨avalancheShort (packed.toUInt64 ^^^ flipLow), avalancheShort (turned.toUInt64 ^^^ flipHigh)⟩

/-- Four to eight bytes: first and last four bytes in one word. -/
def digestTo8 (data : ByteArray) : Wide :=
  let size := data.size
  let input := (word32 data 0).toUInt64 + ((word32 data (size - 4)).toUInt64 <<< 32)
  let flip := word64 secret 16 ^^^ word64 secret 24
  let product := mulWide (input ^^^ flip) (prime64A + (UInt64.ofNat size <<< 2))
  let high := product.high + (product.low <<< 1)
  let low := product.low ^^^ (high >>> 3)
  let low := (low ^^^ (low >>> 35)) * mixB
  ⟨low ^^^ (low >>> 28), avalanche high⟩

/-- Nine to sixteen bytes: first and last eight bytes. -/
def digestTo16 (data : ByteArray) : Wide :=
  let size := data.size
  let flipLow := word64 secret 32 ^^^ word64 secret 40
  let flipHigh := word64 secret 48 ^^^ word64 secret 56
  let first := word64 data 0
  let last := word64 data (size - 8)
  let product := mulWide (first ^^^ last ^^^ flipLow) prime64A
  let low := product.low + (UInt64.ofNat (size - 1) <<< 54)
  let last := last ^^^ flipHigh
  let high := product.high + (last + last.toUInt32.toUInt64 * (prime32B - 1))
  let low := low ^^^ swap64 high
  let final := mulWide low prime64B
  ⟨avalanche final.low, avalanche (final.high + high * prime64B)⟩

/-! ## Up to 240 bytes -/

/-- Sixteen bytes of input against sixteen bytes of secret. -/
def mix16 (data : ByteArray) (i s : Nat) : UInt64 :=
  mulFold (word64 data i ^^^ word64 secret s) (word64 data (i + 8) ^^^ word64 secret (s + 8))

/-- Two blocks of sixteen bytes against 32 bytes of secret. -/
def mix32 (acc : Wide) (data : ByteArray) (i j s : Nat) : Wide :=
  ⟨(acc.low + mix16 data i s) ^^^ (word64 data j + word64 data (j + 8)),
   (acc.high + mix16 data j (s + 16)) ^^^ (word64 data i + word64 data (i + 8))⟩

/-- The end of both middle forms. -/
def finishMiddle (acc : Wide) (size : Nat) : Wide :=
  let low := acc.low + acc.high
  let high := acc.low * prime64A + acc.high * prime64D + UInt64.ofNat size * prime64B
  ⟨avalanche low, 0 - avalanche high⟩

/-- 17 to 128 bytes: pairs of blocks from the outside in, taken innermost first. -/
def digestTo128 (data : ByteArray) : Wide :=
  let size := data.size
  let pairs := (size - 1) / 32 + 1
  let step (acc : Wide) (k : Nat) : Wide :=
    let p := pairs - 1 - k
    mix32 acc data (16 * p) (size - 16 * (p + 1)) (32 * p)
  finishMiddle ((List.range pairs).foldl step ⟨UInt64.ofNat size * prime64A, 0⟩) size

/-- 129 to 240 bytes: four rounds, an avalanche, the other rounds, and the last 32 bytes. -/
def digestTo240 (data : ByteArray) : Wide :=
  let size := data.size
  let early := (List.range 4).foldl
    (fun acc k => mix32 acc data (32 * k) (32 * k + 16) (32 * k))
    ⟨UInt64.ofNat size * prime64A, 0⟩
  let late := (List.range (size / 32 - 4)).foldl
    (fun acc k => mix32 acc data (32 * (k + 4)) (32 * (k + 4) + 16) (3 + 32 * k))
    ⟨avalanche early.low, avalanche early.high⟩
  finishMiddle (mix32 late data (size - 16) (size - 32) 103) size

/-! ## Longer input -/

/-- The eight lanes at the start. -/
def startLanes : List UInt64 :=
  [prime32C, prime64A, prime64B, prime64C, prime64D, prime32B, prime64E, prime32A]

/-- Adds one stripe of 64 bytes: each lane takes the keyed product of its word, and its neighbour
the word itself. -/
def addStripe (lanes : List UInt64) (data : ByteArray) (i s : Nat) : List UInt64 :=
  lanes.zipIdx.map fun (lane, k) =>
    let neighbour := word64 data (i + 8 * (k ^^^ 1))
    let key := word64 data (i + 8 * k) ^^^ word64 secret (s + 8 * k)
    lane + neighbour + key.toUInt32.toUInt64 * (key >>> 32)

/-- Stirs the lanes after a block of sixteen stripes. -/
def scramble (lanes : List UInt64) : List UInt64 :=
  lanes.zipIdx.map fun (lane, k) =>
    ((lane ^^^ (lane >>> 47)) ^^^ word64 secret (128 + 8 * k)) * prime32A

/-- Adds `count` stripes from position `i`, with eight more bytes of secret skipped each time. -/
def addStripes (lanes : List UInt64) (data : ByteArray) (i count : Nat) : List UInt64 :=
  (List.range count).foldl (fun lanes k => addStripe lanes data (i + 64 * k) (8 * k)) lanes

/-- Folds the lanes, two at a time, into one word. -/
def mergeLanes : List UInt64 → Nat → UInt64 → UInt64
  | a :: b :: rest, s, acc =>
    mergeLanes rest (s + 16) (acc + mulFold (a ^^^ word64 secret s) (b ^^^ word64 secret (s + 8)))
  | _, _, acc => avalanche acc

/-- More than 240 bytes: whole blocks of 1024 bytes, the stripes that are left, and the last 64
bytes. -/
def digestLong (data : ByteArray) : Wide :=
  let size := data.size
  let blocks := (size - 1) / 1024
  let lanes := (List.range blocks).foldl
    (fun lanes n => scramble (addStripes lanes data (1024 * n) 16)) startLanes
  let lanes := addStripes lanes data (1024 * blocks) ((size - 1 - 1024 * blocks) / 64)
  let lanes := addStripe lanes data (size - 64) 121
  let length := UInt64.ofNat size
  ⟨mergeLanes lanes 11 (length * prime64A), mergeLanes lanes 117 (~~~(length * prime64B))⟩

/-- **The digest**: the form is chosen by the length. -/
def digest (data : ByteArray) : Wide :=
  if data.size = 0 then digestEmpty
  else if data.size ≤ 3 then digestTo3 data
  else if data.size ≤ 8 then digestTo8 data
  else if data.size ≤ 16 then digestTo16 data
  else if data.size ≤ 128 then digestTo128 data
  else if data.size ≤ 240 then digestTo240 data
  else digestLong data

end Netscribe.Xxh3
