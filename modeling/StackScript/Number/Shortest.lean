import StackScript.Number.Binary64

/-!
# The shortest decimal of a double

Many decimals read back as the same double: all those in the interval of reals that
round to it.  The text of a double is taken from the coarsest decimal grid that has a
point in that interval, and of the two grid points next to the double it is the nearer
one, the upper one when both are equally near.

The interval of `m * 2 ^ q` reaches half a unit up and half a unit down.  Below a power
of two the doubles are twice as dense, so there it reaches only a quarter of a unit
down.  In quarters of a unit its ends are therefore natural numbers, `4 * m + 2` above
and `4 * m - 2` or `4 * m - 1` below, and both ends belong to it exactly when `m` is
even, because a tie is read as the even neighbour.  Grid points are compared with these
ends by cross multiplication, so nothing is approximated.

The search runs through grids of one, two, … significant digits.  Seventeen are always
enough, so the list of grids to try is finite and the search is a plain recursion on how
many are left.
-/

namespace StackScript

/-- The decimal `significand * 10 ^ exponent`. -/
structure Decimal where
  /-- The digits, as one natural number. -/
  significand : Nat
  /-- The power of ten that they are multiplied with. -/
  exponent : Int
  deriving DecidableEq, Repr

namespace Shortest

/-- A positive double and the reals that round to it, in units of `2 ^ unit`. -/
structure Interval where
  /-- The lower end. -/
  low : Nat
  /-- The double itself. -/
  mid : Nat
  /-- The upper end. -/
  high : Nat
  /-- The exponent of the unit. -/
  unit : Int
  /-- Whether the two ends belong to the interval. -/
  closed : Bool

/-- The interval of the double `m * 2 ^ q`. -/
def interval (m : Nat) (q : Int) : Interval where
  low := if m = Binary64.hiddenBit ∧ Binary64.leastExponent < q then 4 * m - 1 else 4 * m - 2
  mid := 4 * m
  high := 4 * m + 2
  unit := q - 2
  closed := m % 2 == 0

/-- Two natural numbers in the proportion of `n * 10 ^ i` to `k * 2 ^ u`. -/
def commonScale (n : Nat) (i : Int) (k : Nat) (u : Int) : Nat × Nat :=
  ((n * Nat.pow 10 i.toNat) <<< (-u).toNat, (k <<< u.toNat) * Nat.pow 10 (-i).toNat)

/-- Whether the grid point `n * 10 ^ i` lies in the interval. -/
def Interval.hasPoint (v : Interval) (n : Nat) (i : Int) : Bool :=
  let (a, low) := commonScale n i v.low v.unit
  let (b, high) := commonScale n i v.high v.unit
  if v.closed then low ≤ a && b ≤ high else low < a && b < high

/-- The grid point with step `10 ^ i` at or just below the double. -/
def Interval.below (v : Interval) (i : Int) : Nat :=
  let (one, mid) := commonScale 1 i v.mid v.unit
  mid / one

/-- Whether the double is nearer to `n * 10 ^ i`, a grid point below it, than to the next
grid point; when it lies halfway, it is not. -/
def Interval.nearerBelow (v : Interval) (n : Nat) (i : Int) : Bool :=
  let (sum, mid) := commonScale (2 * n + 1) i (2 * v.mid) v.unit
  mid < sum

/-- The better of the two grid points next to the double, if one of them lies in the
interval. -/
def Interval.pointOn? (v : Interval) (i : Int) : Option Decimal :=
  let n := v.below i
  match v.hasPoint n i, v.hasPoint (n + 1) i with
  | true, true => some ⟨if v.nearerBelow n i then n else n + 1, i⟩
  | true, false => some ⟨n, i⟩
  | false, true => some ⟨n + 1, i⟩
  | false, false => none

/-- The first grid that has a point in the interval, from step `10 ^ i` downwards.  If
none of them has one the double itself is cut to the last grid. -/
def Interval.search (v : Interval) (i : Int) : Nat → Decimal
  | 0 => ⟨v.below i, i⟩
  | left + 1 =>
      match v.pointOn? i with
      | some d => d
      | none => v.search (i - 1) left

/-- The largest `i` with `10 ^ i` at most the double, found by going down from an upper
estimate. -/
def Interval.leading (v : Interval) (i : Int) : Nat → Int
  | 0 => i
  | left + 1 => if v.below i = 0 then v.leading (i - 1) left else i

/-- The number of significant digits that always suffice. -/
def mostDigits : Nat := 17

/-- Remove trailing zeros of the digits. -/
def strip (significand : Nat) (exponent : Int) : Nat → Decimal
  | 0 => ⟨significand, exponent⟩
  | left + 1 =>
      if significand % 10 = 0 then strip (significand / 10) (exponent + 1) left
      else ⟨significand, exponent⟩

/-- The shortest decimal of the positive double `m * 2 ^ q`.  The search for the leading
digit starts at the first power of ten above `2 ^ (bits of m + q)`, which is at most
four steps too high for a number of any size, because three bits are less than a digit. -/
def ofScaled (m : Nat) (q : Int) : Decimal :=
  let v := interval m q
  let top := (m.log2 + 1 + q) * 30103 / 100000 + 1
  let d := v.search (v.leading top 4) mostDigits
  strip d.significand d.exponent (mostDigits + 1)

end Shortest

end StackScript
