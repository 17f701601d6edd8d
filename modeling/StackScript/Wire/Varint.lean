import StackScript.Wire.Bytes

/-!
# Numbers of variable width

A number below 251 is one byte.  A larger one is a marker byte, `0xfb`, `0xfc` or `0xfd`,
followed by two, four or eight bytes, least significant first.  Writing takes the
narrowest form that holds the number; reading accepts every form, so a number has up to
four spellings, of which one is written.  The markers `0xfe` and `0xff` are not used.

Signed numbers are folded onto the naturals first, the sign going to the lowest bit, so
that small magnitudes stay short.
-/

namespace StackScript.Wire

/-- The narrowest form of a number below `2 ^ 64`. -/
def varint (n : Nat) : List UInt8 :=
  if n < 251 then [UInt8.ofNat n]
  else if n < 0x10000 then 0xfb :: littleEndian 2 n
  else if n < 0x100000000 then 0xfc :: littleEndian 4 n
  else 0xfd :: littleEndian 8 n

/-- A number below `2 ^ 64` in any form. -/
def readVarint64 : Reader Nat := fun bs => do
  let (b, bs) ← byte bs
  if b < 251 then some (b.toNat, bs)
  else if b = 0xfb then fixed 2 bs
  else if b = 0xfc then fixed 4 bs
  else if b = 0xfd then fixed 8 bs
  else none

/-- A number below `2 ^ 32` in any form that cannot hold more. -/
def readVarint32 : Reader Nat := fun bs => do
  let (b, bs) ← byte bs
  if b < 251 then some (b.toNat, bs)
  else if b = 0xfb then fixed 2 bs
  else if b = 0xfc then fixed 4 bs
  else none

/-- A signed number folded onto the naturals: `0, -1, 1, -2, 2, …` in this order. -/
def foldSign (n : Int64) : Nat :=
  if n.toInt < 0 then 2 * n.toInt.natAbs - 1 else 2 * n.toInt.natAbs

/-- The signed number that a natural stands for. -/
def unfoldSign (k : Nat) : Int64 :=
  if k % 2 = 0 then Int64.ofInt (k / 2 : Nat) else Int64.ofInt (-((k / 2 : Nat) : Int) - 1)

/-- Signed numbers survive the folding. -/
theorem unfoldSign_foldSign (n : Int64) : unfoldSign (foldSign n) = n := by
  unfold unfoldSign foldSign
  split
  · next hneg =>
    have h : (2 * n.toInt.natAbs - 1) % 2 ≠ 0 := by omega
    rw [if_neg h]
    have hv : -((((2 * n.toInt.natAbs - 1) / 2 : Nat)) : Int) - 1 = n.toInt := by omega
    rw [hv, Int64.ofInt_toInt]
  · next hnonneg =>
    have h : (2 * n.toInt.natAbs) % 2 = 0 := by omega
    rw [if_pos h]
    have hv : (((2 * n.toInt.natAbs) / 2 : Nat) : Int) = n.toInt := by omega
    rw [hv, Int64.ofInt_toInt]

end StackScript.Wire
