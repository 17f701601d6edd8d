/-!
# Whole numbers of 64 bits

The integers of the script language are `Int64`.  Arithmetic on them is never allowed
to wrap: an exact result that does not fit is reported to the caller.  Two styles of
operation are needed.

* Sums, differences and products are computed exactly in `Int` and then narrowed by
  `narrow?`, which refuses what does not fit.
* Floor division and its remainder are computed on words, from the truncating division
  of the machine and a correction by one step.  Nothing in them is checked except the
  single pair of operands whose quotient does not fit, so that no step can wrap is a
  fact about these definitions and not something they enforce.

The decimal spelling of a number, and the reading of it, are here as well: a sign and
digits on the way in, a minus sign only where it is needed on the way out.
-/

namespace StackScript.Word

/-- The word with the given value, if there is one: words reach from `-2 ^ 63` up to, but not
including, `2 ^ 63`. -/
def narrow? (n : Int) : Option Int64 :=
  if -0x8000000000000000 ≤ n ∧ n < 0x8000000000000000 then some (Int64.ofInt n) else none

theorem narrow?_eq_none_iff {n : Int} :
    narrow? n = none ↔ n < -0x8000000000000000 ∨ 0x8000000000000000 ≤ n := by
  unfold narrow?
  split <;> simp <;> omega

theorem toInt_of_narrow?_eq_some {n : Int} {w : Int64} (h : narrow? n = some w) :
    w.toInt = n := by
  unfold narrow? at h
  split at h
  · next hr =>
    cases h
    exact Int64.toInt_ofInt_of_le (by omega) (by omega)
  · simp at h

@[simp] theorem narrow?_toInt (w : Int64) : narrow? w.toInt = some w := by
  have hlow := w.le_toInt
  have hhigh := w.toInt_lt
  rw [narrow?, if_pos ⟨by omega, by omega⟩, Int64.ofInt_toInt]

/-! ## Arithmetic -/

/-- The sum, if it fits. -/
def add? (a b : Int64) : Option Int64 := narrow? (a.toInt + b.toInt)

/-- The difference, if it fits. -/
def sub? (a b : Int64) : Option Int64 := narrow? (a.toInt - b.toInt)

/-- The product, if it fits. -/
def mul? (a b : Int64) : Option Int64 := narrow? (a.toInt * b.toInt)

/-- The number with the other sign, if it fits. -/
def neg? (a : Int64) : Option Int64 := narrow? (-a.toInt)

/-- The number without its sign, if it fits. -/
def abs? (a : Int64) : Option Int64 := if a.toInt < 0 then neg? a else some a

/-- The quotient rounded down, for a divisor that is not zero.  The truncated quotient is
one too large exactly when the division leaves a remainder and the signs differ.  Only
the least word divided by `-1` has no answer. -/
def floorDiv? (a b : Int64) : Option Int64 :=
  if a = Int64.minValue ∧ b = -1 then
    none
  else if a % b ≠ 0 ∧ (a < 0) ≠ (b < 0) then
    some (a / b - 1)
  else
    some (a / b)

/-- The remainder that goes with the quotient rounded down: it is zero or has the sign of
the divisor. -/
def floorMod (a b : Int64) : Int64 :=
  if a % b ≠ 0 ∧ (a % b < 0) ≠ (b < 0) then
    a % b + b
  else
    a % b

/-! ## Decimal spelling -/

/-- The decimal digits of a natural number, most significant first. -/
def digits (n : Nat) : List Char :=
  Nat.toDigits 10 n

/-- The decimal spelling of a natural number as a text. -/
def natText (n : Nat) : String :=
  String.ofList (digits n)

/-- The decimal spelling of an integer. -/
def decimal (n : Int) : List Char :=
  if n < 0 then '-' :: digits n.natAbs else digits n.natAbs

/-- The decimal spelling as a text. -/
def text (w : Int64) : String :=
  String.ofList (decimal w.toInt)

/-- The value of a decimal digit. -/
def digitValue (c : Char) : Nat :=
  c.toNat - '0'.toNat

/-- The value of a list of decimal digits, most significant first. -/
def valueOfDigits (cs : List Char) : Nat :=
  cs.foldl (fun n c => 10 * n + digitValue c) 0

/-- The value of a list of decimal digits as far as a limit: from the digit on with which it
reaches the limit, further digits no longer count.  So a long list takes no more time
than its length, and values below the limit are exact. -/
def valueUpTo (limit : Nat) (cs : List Char) : Nat :=
  cs.foldl (fun n c => if n < limit then 10 * n + digitValue c else n) 0

/-- Counting with a limit and without one either agree or have both reached it. -/
theorem foldl_limit_eq_or_le (limit : Nat) (cs : List Char) (n m : Nat)
    (h : n = m ∨ limit ≤ n ∧ limit ≤ m) :
    let counted := cs.foldl (fun n c => if n < limit then 10 * n + digitValue c else n) n
    let value := cs.foldl (fun n c => 10 * n + digitValue c) m
    counted = value ∨ limit ≤ counted ∧ limit ≤ value := by
  induction cs generalizing n m with
  | nil => exact h
  | cons c cs ih =>
    rw [List.foldl_cons, List.foldl_cons]
    apply ih
    split <;> omega

theorem valueUpTo_of_lt {limit : Nat} {cs : List Char} (h : valueOfDigits cs < limit) :
    valueUpTo limit cs = valueOfDigits cs := by
  rcases foldl_limit_eq_or_le limit cs 0 0 (.inl rfl) with heq | ⟨_, hle⟩
  · exact heq
  · exact absurd hle (Nat.not_le.mpr h)

theorem le_valueUpTo {limit : Nat} {cs : List Char} (h : limit ≤ valueOfDigits cs) :
    limit ≤ valueUpTo limit cs := by
  rcases foldl_limit_eq_or_le limit cs 0 0 (.inl rfl) with heq | ⟨hle, _⟩
  · exact Nat.le_trans h (Nat.le_of_eq heq.symm)
  · exact hle

/-- A number written with digits only, as far as a limit; at least one digit is required. -/
def natural? (limit : Nat) (cs : List Char) : Option Nat :=
  if cs.isEmpty || !cs.all Char.isDigit then none else some (valueUpTo limit cs)

/-- From here on no number is a word, whatever its sign. -/
def beyondWords : Nat := 0x8000000000000001

/-- A word written in decimal: an optional sign, then digits. -/
def ofDecimal? : List Char → Option Int64
  | '+' :: cs => (natural? beyondWords cs).bind fun n => narrow? n
  | '-' :: cs => (natural? beyondWords cs).bind fun n => narrow? (-n)
  | cs => (natural? beyondWords cs).bind fun n => narrow? n

end StackScript.Word
