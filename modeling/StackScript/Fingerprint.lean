/-!
# Fingerprints of texts

A fingerprint is the 64-bit XXH3 hash of the bytes of a text, with seed zero and the
standard secret.  The function is a fixed recipe with six ranges of input length, each of
which reads the input and the secret as little-endian words at given places; nothing else
in the library depends on how it is computed.
-/

namespace StackScript

namespace XXH3

/-- The standard secret. -/
def secret : ByteArray := ⟨
  #[0xb8, 0xfe, 0x6c, 0x39, 0x23, 0xa4, 0x4b, 0xbe, 0x7c, 0x01, 0x81, 0x2c, 0xf7, 0x21, 0xad, 0x1c,
    0xde, 0xd4, 0x6d, 0xe9, 0x83, 0x90, 0x97, 0xdb, 0x72, 0x40, 0xa4, 0xa4, 0xb7, 0xb3, 0x67, 0x1f,
    0xcb, 0x79, 0xe6, 0x4e, 0xcc, 0xc0, 0xe5, 0x78, 0x82, 0x5a, 0xd0, 0x7d, 0xcc, 0xff, 0x72, 0x21,
    0xb8, 0x08, 0x46, 0x74, 0xf7, 0x43, 0x24, 0x8e, 0xe0, 0x35, 0x90, 0xe6, 0x81, 0x3a, 0x26, 0x4c,
    0x3c, 0x28, 0x52, 0xbb, 0x91, 0xc3, 0x00, 0xcb, 0x88, 0xd0, 0x65, 0x8b, 0x1b, 0x53, 0x2e, 0xa3,
    0x71, 0x64, 0x48, 0x97, 0xa2, 0x0d, 0xf9, 0x4e, 0x38, 0x19, 0xef, 0x46, 0xa9, 0xde, 0xac, 0xd8,
    0xa8, 0xfa, 0x76, 0x3f, 0xe3, 0x9c, 0x34, 0x3f, 0xf9, 0xdc, 0xbb, 0xc7, 0xc7, 0x0b, 0x4f, 0x1d,
    0x8a, 0x51, 0xe0, 0x4b, 0xcd, 0xb4, 0x59, 0x31, 0xc8, 0x9f, 0x7e, 0xc9, 0xd9, 0x78, 0x73, 0x64,
    0xea, 0xc5, 0xac, 0x83, 0x34, 0xd3, 0xeb, 0xc3, 0xc5, 0x81, 0xa0, 0xff, 0xfa, 0x13, 0x63, 0xeb,
    0x17, 0x0d, 0xdd, 0x51, 0xb7, 0xf0, 0xda, 0x49, 0xd3, 0x16, 0x55, 0x26, 0x29, 0xd4, 0x68, 0x9e,
    0x2b, 0x16, 0xbe, 0x58, 0x7d, 0x47, 0xa1, 0xfc, 0x8f, 0xf8, 0xb8, 0xd1, 0x7a, 0xd0, 0x31, 0xce,
    0x45, 0xcb, 0x3a, 0x8f, 0x95, 0x16, 0x04, 0x28, 0xaf, 0xd7, 0xfb, 0xca, 0xbb, 0x4b, 0x40, 0x7e]⟩

/-- The byte at some place; there are zeros behind the end. -/
def byteAt (bs : ByteArray) (i : Nat) : UInt8 :=
  bs[i]?.getD 0

/-- Four bytes as a word. -/
def word32 (bs : ByteArray) (i : Nat) : UInt64 :=
  (byteAt bs i).toUInt64 ||| ((byteAt bs (i + 1)).toUInt64 <<< 8)
    ||| ((byteAt bs (i + 2)).toUInt64 <<< 16) ||| ((byteAt bs (i + 3)).toUInt64 <<< 24)

/-- Eight bytes as a word. -/
def word64 (bs : ByteArray) (i : Nat) : UInt64 :=
  word32 bs i ||| (word32 bs (i + 4) <<< 32)

/-- The first multiplier of 32 bits. -/
def prime32₁ : UInt64 := 0x9e3779b1

/-- The second multiplier of 32 bits. -/
def prime32₂ : UInt64 := 0x85ebca77

/-- The third multiplier of 32 bits. -/
def prime32₃ : UInt64 := 0xc2b2ae3d

/-- The first multiplier of 64 bits. -/
def prime64₁ : UInt64 := 0x9e3779b185ebca87

/-- The second multiplier of 64 bits. -/
def prime64₂ : UInt64 := 0xc2b2ae3d27d4eb4f

/-- The third multiplier of 64 bits. -/
def prime64₃ : UInt64 := 0x165667b19e3779f9

/-- The fourth multiplier of 64 bits. -/
def prime64₄ : UInt64 := 0x85ebca77c2b2ae63

/-- The fifth multiplier of 64 bits. -/
def prime64₅ : UInt64 := 0x27d4eb2f165667c5

/-- The multiplier of the final mixing. -/
def mixer : UInt64 := 0x165667919e3779f9

/-- The multiplier of the final mixing of inputs of four to eight bytes. -/
def rotatingMixer : UInt64 := 0x9fb21c651e98df25

/-- Rotation to the left. -/
def rotate (x k : UInt64) : UInt64 :=
  (x <<< k) ||| (x >>> (64 - k))

/-- The bytes of a word in the opposite order. -/
def swapBytes (x : UInt64) : UInt64 :=
  (List.range 8).foldl (fun y i => (y <<< 8) ||| ((x >>> UInt64.ofNat (8 * i)) &&& 0xff)) 0

/-- The two halves of a product of 128 bits, combined. -/
def foldProduct (a b : UInt64) : UInt64 :=
  let p := a.toNat * b.toNat
  UInt64.ofNat p ^^^ UInt64.ofNat (p >>> 64)

/-- The final mixing of the shortest inputs. -/
def avalancheShort (h : UInt64) : UInt64 :=
  let h := (h ^^^ (h >>> 33)) * prime64₂
  let h := (h ^^^ (h >>> 29)) * prime64₃
  h ^^^ (h >>> 32)

/-- The final mixing. -/
def avalanche (h : UInt64) : UInt64 :=
  let h := (h ^^^ (h >>> 37)) * mixer
  h ^^^ (h >>> 32)

/-- The final mixing of inputs of four to eight bytes. -/
def avalancheRotating (h len : UInt64) : UInt64 :=
  let h := (h ^^^ rotate h 49 ^^^ rotate h 24) * rotatingMixer
  let h := (h ^^^ ((h >>> 35) + len)) * rotatingMixer
  h ^^^ (h >>> 28)

/-- Sixteen bytes of input mixed with sixteen bytes of the secret. -/
def mix (bs : ByteArray) (i key : Nat) : UInt64 :=
  foldProduct (word64 bs i ^^^ word64 secret key) (word64 bs (i + 8) ^^^ word64 secret (key + 8))

/-- Up to sixteen bytes. -/
def hashTiny (bs : ByteArray) : UInt64 :=
  let n := bs.size
  let len := UInt64.ofNat n
  if 8 < n then
    let low := word64 bs 0 ^^^ (word64 secret 24 ^^^ word64 secret 32)
    let high := word64 bs (n - 8) ^^^ (word64 secret 40 ^^^ word64 secret 48)
    avalanche (len + swapBytes low + high + foldProduct low high)
  else if 4 ≤ n then
    let both := word32 bs (n - 4) + (word32 bs 0 <<< 32)
    avalancheRotating (both ^^^ (word64 secret 8 ^^^ word64 secret 16)) len
  else if 0 < n then
    let first := (byteAt bs 0).toUInt64
    let middle := (byteAt bs (n / 2)).toUInt64
    let last := (byteAt bs (n - 1)).toUInt64
    let all := (first <<< 16) ||| (middle <<< 24) ||| last ||| (len <<< 8)
    avalancheShort (all ^^^ (word32 secret 0 ^^^ word32 secret 4))
  else
    avalancheShort (word64 secret 56 ^^^ word64 secret 64)

/-- From 17 to 128 bytes: pieces from both ends, working inwards. -/
def hashSmall (bs : ByteArray) : UInt64 :=
  let n := bs.size
  let pairs := (n - 1) / 32
  avalanche ((List.range (pairs + 1)).foldl
    (fun acc i => acc + mix bs (16 * i) (32 * i) + mix bs (n - 16 * (i + 1)) (32 * i + 16))
    (UInt64.ofNat n * prime64₁))

/-- From 129 to 240 bytes: piece after piece, mixing after the eighth. -/
def hashMedium (bs : ByteArray) : UInt64 :=
  let n := bs.size
  let start := (List.range 8).foldl (fun acc i => acc + mix bs (16 * i) (16 * i))
    (UInt64.ofNat n * prime64₁)
  let rest := (List.range (n / 16 - 8)).foldl
    (fun acc i => acc + mix bs (16 * (i + 8)) (16 * i + 3)) (avalanche start)
  avalanche (rest + mix bs (n - 16) 119)

/-- The eight accumulators of long inputs. -/
abbrev Lanes := Array UInt64

/-- One accumulator. -/
def lane (acc : Lanes) (i : Nat) : UInt64 := acc.getD i 0

/-- Sixty-four bytes of input enter the accumulators. -/
def stripe (bs : ByteArray) (place key : Nat) (acc : Lanes) : Lanes :=
  ((List.range 8).map fun i =>
    let keyed := word64 bs (place + 8 * i) ^^^ word64 secret (key + 8 * i)
    let neighbour := if i % 2 = 0 then i + 1 else i - 1
    lane acc i + word64 bs (place + 8 * neighbour)
      + (keyed &&& (0xffffffff : UInt64)) * (keyed >>> 32)).toArray

/-- The accumulators are mixed after every block. -/
def scramble (acc : Lanes) : Lanes :=
  ((List.range 8).map fun i =>
    let a := lane acc i
    (a ^^^ (a >>> 47) ^^^ word64 secret (128 + 8 * i)) * prime32₁).toArray

/-- Some stripes of one block, from its first. -/
def stripes (bs : ByteArray) (place count : Nat) (acc : Lanes) : Lanes :=
  (List.range count).foldl (fun acc i => stripe bs (place + 64 * i) (8 * i) acc) acc

/-- More than 240 bytes: blocks of sixteen stripes, the rest, and the last sixty-four bytes. -/
def hashLong (bs : ByteArray) : UInt64 :=
  let n := bs.size
  let blocks := (n - 1) / 1024
  let start : Lanes :=
    #[prime32₃, prime64₁, prime64₂, prime64₃, prime64₄, prime32₂, prime64₅, prime32₁]
  let acc := (List.range blocks).foldl
    (fun acc i => scramble (stripes bs (1024 * i) 16 acc)) start
  let acc := stripes bs (1024 * blocks) ((n - 1 - 1024 * blocks) / 64) acc
  let acc := stripe bs (n - 64) 121 acc
  avalanche ((List.range 4).foldl
    (fun h i => h + foldProduct (lane acc (2 * i) ^^^ word64 secret (11 + 16 * i))
      (lane acc (2 * i + 1) ^^^ word64 secret (19 + 16 * i)))
    (UInt64.ofNat n * prime64₁))

/-- The hash of some bytes. -/
def hash (bs : ByteArray) : UInt64 :=
  if bs.size ≤ 16 then hashTiny bs
  else if bs.size ≤ 128 then hashSmall bs
  else if bs.size ≤ 240 then hashMedium bs
  else hashLong bs

end XXH3

/-- The fingerprint of a text. -/
structure Fingerprint where
  /-- The hash value. -/
  value : UInt64
  deriving DecidableEq, Repr

namespace Fingerprint

/-- The fingerprint of some bytes. -/
def ofBytes (bs : ByteArray) : Fingerprint := ⟨XXH3.hash bs⟩

/-- The fingerprint of a text. -/
def ofText (s : String) : Fingerprint := ofBytes s.toByteArray

/-- A number in hexadecimal digits, filled up with zeros. -/
def hex (width n : Nat) : String :=
  let ds := Nat.toDigits 16 n
  String.ofList (List.replicate (width - ds.length) '0' ++ ds)

/-- The fingerprint in sixteen hexadecimal digits. -/
def text (f : Fingerprint) : String := hex 16 f.value.toNat

/-- The upper half of the fingerprint, for diagnostics. -/
def summary (f : Fingerprint) : String :=
  s!"Fingerprint({hex 8 (f.value >>> 32).toNat}..)"

end Fingerprint

end StackScript
