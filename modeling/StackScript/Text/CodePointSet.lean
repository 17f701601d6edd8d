/-!
# Sets of code points, written as their boundaries

A property of characters that is defined by a standard arrives as a long list of
ranges.  Written out as ranges each entry names two numbers and the list has to be
kept sorted and disjoint by hand.  Written as *boundaries* --- the code points at
which membership changes --- the same data is one increasing list of numbers, with
no pairs to keep consistent: a code point belongs to the set exactly when an odd
number of boundaries lie at or below it.

`CodePointSet.contains` reads the list from the left and flips a flag at every
boundary it passes, so it stops at the first boundary beyond its argument.
-/

namespace StackScript

/-- A set of code points, given by the increasing list of places where membership
changes; everything below the first boundary is outside. -/
structure CodePointSet where
  /-- The code points at which membership changes, in increasing order. -/
  bounds : List Nat

namespace CodePointSet

/-- Flip `inside` at every boundary at or below `n`. -/
def sweep (n : Nat) (inside : Bool) : List Nat → Bool
  | [] => inside
  | b :: rest => if n < b then inside else sweep n (!inside) rest

/-- Whether a code point belongs to the set. -/
def contains (s : CodePointSet) (n : Nat) : Bool :=
  sweep n false s.bounds

@[simp] theorem sweep_nil (n : Nat) (inside : Bool) : sweep n inside [] = inside := rfl

theorem sweep_cons_of_lt {n b : Nat} (h : n < b) (inside : Bool) (rest : List Nat) :
    sweep n inside (b :: rest) = inside := by
  simp [sweep, h]

theorem sweep_cons_of_le {n b : Nat} (h : b ≤ n) (inside : Bool) (rest : List Nat) :
    sweep n inside (b :: rest) = sweep n (!inside) rest := by
  simp [sweep, Nat.not_lt.mpr h]

end CodePointSet

end StackScript
