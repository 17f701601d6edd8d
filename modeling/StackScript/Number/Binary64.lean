import StackScript.Number.Double

/-!
# Doubles as exact numbers

A finite double *is* a number: an integer below `2 ^ 53` times a power of two, with a
sign.  `shape` reads that form off the bits, and `rounded` goes back, from any
nonnegative fraction to the double nearest to it, ties going to the even neighbour.
Everything that has to be exact about doubles --- rounding down, the remainder of a
division, conversion from and to integers, reading decimals --- is then arithmetic on
natural numbers between one `shape` and one `rounded`.

## Why the bits of a rounded number are one sum

Let `m` be the rounded significand in units of `2 ^ q`, with `q ≥ -1074`.  A normal
double has `2 ^ 52 ≤ m < 2 ^ 53` and biased exponent `q + 1075`, so its bits are
`(q + 1075) * 2 ^ 52 + (m - 2 ^ 52) = (q + 1074) * 2 ^ 52 + m`.  A subnormal one has
`q = -1074` and bits `m`, which is the same sum.  If rounding carries `m` up to
`2 ^ 53` the sum carries into the exponent, which is again right.  So one formula covers
all finite results, and a sum at or beyond the bits of infinity is infinity.
-/

namespace StackScript.Binary64

/-- What a double is: a signed multiple of a power of two, an infinity, or no number. -/
inductive Shape where
  /-- The number `± significand * 2 ^ exponent`. -/
  | finite (negative : Bool) (significand : Nat) (exponent : Int)
  /-- Positive or negative infinity. -/
  | infinite (negative : Bool)
  /-- Not a number. -/
  | nan
  deriving DecidableEq, Repr

/-- The exponent of the smallest doubles. -/
def leastExponent : Int := -1074

/-- The number of bits that store the significand. -/
def storedBits : Nat := 52

/-- The first bit of a normal significand, `2 ^ 52`; it is not stored. -/
def hiddenBit : Nat := 0x10000000000000

/-- The bit for the sign, `2 ^ 63`. -/
def signBit : Nat := 0x8000000000000000

/-- The bits of positive infinity. -/
def infinityBits : Nat := 2047 * hiddenBit

/-- The form of the double with the given bits. -/
def shapeOfBits (bits : Nat) : Shape :=
  let negative := decide (bits / signBit % 2 = 1)
  let biased := bits / hiddenBit % 2048
  let stored := bits % hiddenBit
  if biased = 2047 then
    if stored = 0 then .infinite negative else .nan
  else if biased = 0 then
    .finite negative stored leastExponent
  else
    .finite negative (stored + hiddenBit) (leastExponent + (biased - 1 : Nat))

/-- The form of a double. -/
def shape (x : Double) : Shape :=
  shapeOfBits x.bits.toNat

/-- The double with a given sign and given bits below the sign. -/
def ofSignAndBits (negative : Bool) (bits : Nat) : Double :=
  ⟨UInt64.ofNat ((if negative then signBit else 0) + bits)⟩

/-- Zero with a sign. -/
def zero (negative : Bool) : Double := ofSignAndBits negative 0

/-- Infinity with a sign. -/
def infinity (negative : Bool) : Double := ofSignAndBits negative infinityBits

/-- The bits of the double that is written as no number. -/
def nanBits : Nat := infinityBits + hiddenBit / 2

/-- The double that is written as no number, with a sign. -/
def nan (negative : Bool) : Double := ofSignAndBits negative nanBits

/-! ## Rounding a fraction -/

/-- A fraction rounded to the nearest integer, a tie going to the even one. -/
def nearest (num den : Nat) : Nat :=
  let q := num / den
  let r := num % den
  if 2 * r < den then q
  else if den < 2 * r then q + 1
  else if q % 2 = 0 then q
  else q + 1

/-- A fraction multiplied by `2 ^ k`, as a fraction. -/
def scale (num den : Nat) (k : Int) : Nat × Nat :=
  match k with
  | .ofNat k => (num <<< k, den)
  | .negSucc k => (num, den <<< (k + 1))

/-- The exponent of the largest power of two that is not above a positive fraction. -/
def exponentOf (num den : Nat) : Int :=
  let k : Int := (num.log2 : Int) - (den.log2 : Int)
  let (n, d) := scale num den (-k)
  if d ≤ n then k else k - 1

/-- The double nearest to the fraction `num / den`, with the given sign. -/
def rounded (negative : Bool) (num den : Nat) : Double :=
  if num = 0 then
    zero negative
  else
    let unit := max (exponentOf num den - storedBits) leastExponent
    let (n, d) := scale num den (-unit)
    let bits := (unit - leastExponent).toNat * hiddenBit + nearest n d
    ofSignAndBits negative (min bits infinityBits)

/-! ## Conversions -/

/-- The double nearest to an integer. -/
def ofInt (n : Int) : Double :=
  rounded (n < 0) n.natAbs 1

/-- The double nearest to `significand * 10 ^ exponent`.  Exponents that are far outside the
range are answered without raising ten to them: a positive integer times `10 ^ 401` is
above every double, and a number with `b` bits times `10 ^ -(b + 401)` rounds to zero. -/
def ofDecimal (negative : Bool) (significand : Nat) (exponent : Int) : Double :=
  if significand = 0 then
    zero negative
  else if 400 < exponent then
    infinity negative
  else if exponent < -(significand.log2 + 401) then
    zero negative
  else
    match exponent with
    | .ofNat k => rounded negative (significand * Nat.pow 10 k) 1
    | .negSucc k => rounded negative significand (Nat.pow 10 (k + 1))

/-- The integer part of the number `± significand * 2 ^ exponent`. -/
def truncated (negative : Bool) (significand : Nat) (exponent : Int) : Int :=
  let (n, d) := scale significand 1 exponent
  if negative then -((n / d : Nat) : Int) else (n / d : Nat)

/-! ## Rounding down, and the remainder of a division -/

/-- The largest integer that is not above a double; zeros, infinities and numbers without a
fraction are left as they are, and what is no number stays none. -/
def floor (x : Double) : Double :=
  match shape x with
  | .finite negative m q =>
      if 0 ≤ q ∨ m = 0 then
        x
      else
        let (n, d) := scale m 1 q
        rounded negative (if negative ∧ n % d ≠ 0 then n / d + 1 else n / d) 1
  | .infinite _ => x
  | .nan => x.quieted

/-- The remainder of the division of two doubles with the quotient truncated.  It is exact: a
multiple of the finer of the two units, smaller than the divisor, with the sign of the
dividend. -/
def remainder (x y : Double) : Double :=
  match shape x, shape y with
  | .nan, _ => x.quieted
  | _, .nan => y.quieted
  | .finite negative m p, .finite _ n q =>
      if n = 0 then
        .indefinite
      else
        let unit := min p q
        let (a, b) := scale ((m <<< (p - unit).toNat) % (n <<< (q - unit).toNat)) 1 unit
        rounded negative a b
  | .finite _ _ _, .infinite _ => x
  | .infinite _, _ => .indefinite

end StackScript.Binary64
