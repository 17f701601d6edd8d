/-!
# Reading bytes

A reader takes bytes from the front of a list and returns what it read together with the
bytes that are left, or fails.  Readers here never look at a byte that they do not use, so
what follows a value has no influence on how it is read.
-/

namespace StackScript

/-- Takes a value off the front of a list of bytes. -/
abbrev Reader (α : Type) := List UInt8 → Option (α × List UInt8)

namespace Wire

/-- One byte. -/
def byte : Reader UInt8
  | [] => none
  | b :: bs => some (b, bs)

/-- A given number of bytes. -/
def bytes (n : Nat) : Reader (List UInt8) := fun bs =>
  if n ≤ bs.length then some (bs.take n, bs.drop n) else none

/-- The low `width` bytes of a number, least significant first. -/
def littleEndian : (width : Nat) → Nat → List UInt8
  | 0, _ => []
  | width + 1, n => UInt8.ofNat n :: littleEndian width (n / 256)

/-- The number that bytes spell, least significant first. -/
def valueOfBytes : List UInt8 → Nat
  | [] => 0
  | b :: bs => b.toNat + 256 * valueOfBytes bs

/-- A number of a given width. -/
def fixed (width : Nat) : Reader Nat := fun bs => do
  let (taken, rest) ← bytes width bs
  some (valueOfBytes taken, rest)

/-- Values one after the other, a given number of them. -/
def repeated {α : Type} (item : Reader α) : Nat → Reader (List α)
  | 0, bs => some ([], bs)
  | n + 1, bs => do
      let (a, bs) ← item bs
      let (as, bs) ← repeated item n bs
      some (a :: as, bs)

@[simp] theorem length_littleEndian (width n : Nat) : (littleEndian width n).length = width := by
  induction width generalizing n with
  | zero => rfl
  | succ width ih => simp [littleEndian, ih]

theorem bytes_append (xs rest : List UInt8) : bytes xs.length (xs ++ rest) = some (xs, rest) := by
  simp [bytes]

/-- What is read back from a number's bytes is the number, cut to their width. -/
theorem valueOfBytes_littleEndian (width n : Nat) :
    valueOfBytes (littleEndian width n) = n % Nat.pow 256 width := by
  induction width generalizing n with
  | zero => simp [littleEndian, valueOfBytes, Nat.mod_one]
  | succ width ih =>
    have hpow : Nat.pow 256 (width + 1) = 256 * Nat.pow 256 width := Nat.mul_comm _ _
    rw [hpow, Nat.mod_mul]
    simp only [littleEndian, valueOfBytes, ih, UInt8.toNat_ofNat']

end Wire

end StackScript
