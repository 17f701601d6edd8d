import Mathlib.Algebra.Order.Field.Basic
import Mathlib.Data.Rat.Floor
import Mathlib.Tactic.Linarith
import StackScript.Arithmetic

/-!
# Whole-number arithmetic is exact

On whole numbers, truth values counting as `0` and `1`, every operator but `/` gives the exact
result of mathematics or says that there is none: the result does not fit in a word, or the divisor
is zero.  Nothing ever wraps.

## Division

The machine divides towards zero.  Let `q` and `r` be its quotient and remainder, so that
`a = q * b + r`, where `r` is smaller than `b` in size and has the sign of `a` or is zero.  The
quotient rounded down is the one whose remainder has the sign of `b`.  So the two divisions differ
exactly if `r` is not zero and the signs of `a` and `b` differ, and then `q - 1` and `r + b` are
right.  A `FloorPair` is what is wanted, and `FloorPair.floor_eq` says that its first part is the
floor of the fraction.

## Unchecked steps

The remainder that decides about the correction, the step from `q` to `q - 1` and the step from `r`
to `r + b` are taken without a check.  `Arithmetic.guarded` is the same computation with every step
of the machine guarded: a step that would wrap or divide by zero has no result, and then the whole
computation has none.  `guarded_eq` says that this never happens: on each path the steps that are
reached have a result, the one that `Arithmetic.intOp` computes with.
-/

namespace StackScript

/-! ## Quotients rounded down -/

/-- A quotient rounded down and the remainder that goes with it: zero, or between zero and the
divisor. -/
structure FloorPair (a b q r : Int) : Prop where
  /-- The two make up the dividend. -/
  sum_eq : a = q * b + r
  /-- The remainder is on the side of the divisor. -/
  between : (0 ≤ r ∧ r < b) ∨ (b < r ∧ r ≤ 0)

namespace FloorPair

variable {a b q r : Int}

/-- The quotient is the greatest whole number that the fraction reaches. -/
theorem floor_eq (h : FloorPair a b q r) : ⌊(a : ℚ) / b⌋ = q := by
  have hsum : (a : ℚ) = q * b + r := by exact_mod_cast h.sum_eq
  rw [Int.floor_eq_iff]
  rcases h.between with ⟨hlow, hhigh⟩ | ⟨hlow, hhigh⟩
  · have hr₀ : (0 : ℚ) ≤ r := by exact_mod_cast hlow
    have hr₁ : (r : ℚ) < b := by exact_mod_cast hhigh
    have hb : (0 : ℚ) < b := hr₀.trans_lt hr₁
    exact ⟨(le_div_iff₀ hb).mpr (by linarith), (div_lt_iff₀ hb).mpr (by linarith)⟩
  · have hr₀ : (r : ℚ) ≤ 0 := by exact_mod_cast hhigh
    have hr₁ : (b : ℚ) < r := by exact_mod_cast hlow
    have hb : (b : ℚ) < 0 := hr₁.trans_le hr₀
    exact ⟨(le_div_iff_of_neg hb).mpr (by linarith), (div_lt_iff_of_neg hb).mpr (by linarith)⟩

theorem abs_lt (h : FloorPair a b q r) : |r| < |b| := by
  rcases h.between with ⟨hlow, hhigh⟩ | ⟨hlow, hhigh⟩
  · rwa [abs_of_nonneg hlow, abs_of_nonneg (by omega)]
  · rw [abs_of_nonpos hhigh, abs_of_nonpos (by omega)]
    omega

theorem eq_zero_or_sign_eq (h : FloorPair a b q r) : r = 0 ∨ r.sign = b.sign := by
  rcases h.between with ⟨hlow, hhigh⟩ | ⟨hlow, hhigh⟩
  · rcases hlow.eq_or_lt with hzero | hpos
    · exact .inl hzero.symm
    · exact .inr (by rw [Int.sign_eq_one_of_pos hpos, Int.sign_eq_one_of_pos (hpos.trans hhigh)])
  · rcases hhigh.eq_or_lt with hzero | hneg
    · exact .inl hzero
    · exact .inr (by
        rw [Int.sign_eq_neg_one_of_neg hneg, Int.sign_eq_neg_one_of_neg (hlow.trans hneg)])

/-- The remainder of a division towards zero has the sign of the dividend and is smaller than the
divisor. -/
theorem tmod_bounds (a : Int) (hb : b ≠ 0) :
    (a.tmod b).natAbs < b.natAbs ∧ (0 ≤ a → 0 ≤ a.tmod b) ∧ (a ≤ 0 → a.tmod b ≤ 0) := by
  refine ⟨?_, fun ha => Int.tmod_nonneg b ha, fun ha => ?_⟩
  · rw [Int.natAbs_tmod]
    exact Nat.mod_lt _ (Int.natAbs_pos.mpr hb)
  · have hneg := Int.tmod_nonneg b (Int.neg_nonneg_of_nonpos ha)
    rw [Int.neg_tmod] at hneg
    omega

/-- Division towards zero rounds down already if it leaves nothing or the signs agree. -/
theorem of_truncated (hb : b ≠ 0) (h : a.tmod b = 0 ∨ (a < 0 ↔ b < 0)) :
    FloorPair a b (a.tdiv b) (a.tmod b) := by
  obtain ⟨hsize, hpos, hneg⟩ := tmod_bounds a hb
  refine ⟨by rw [Int.mul_comm, Int.mul_tdiv_add_tmod], ?_⟩
  omega

/-- If it leaves something and the signs differ, it is one step too high. -/
theorem of_corrected (hb : b ≠ 0) (hr : a.tmod b ≠ 0) (h : ¬(a < 0 ↔ b < 0)) :
    FloorPair a b (a.tdiv b - 1) (a.tmod b + b) := by
  obtain ⟨hsize, hpos, hneg⟩ := tmod_bounds a hb
  refine ⟨?_, ?_⟩
  · have hsum := Int.mul_tdiv_add_tmod a b
    linarith
  · omega

end FloorPair

/-! ## Steps of the machine -/

namespace Word

theorem narrow?_eq_some_iff {n : Int} {w : Int64} : narrow? n = some w ↔ w.toInt = n := by
  constructor
  · exact toInt_of_narrow?_eq_some
  · rintro rfl
    exact narrow?_toInt w

/-- The quotient towards zero; there is none for the divisor zero, and none that does not fit. -/
def div? (a b : Int64) : Option Int64 :=
  if b = 0 then none else narrow? (a.toInt.tdiv b.toInt)

/-- The remainder of a division towards zero; there is none where the division has no quotient. -/
def rem? (a b : Int64) : Option Int64 :=
  (div? a b).bind fun _ => narrow? (a.toInt.tmod b.toInt)

variable {a b : Int64}

theorem toInt_ne_zero (hb : b ≠ 0) : b.toInt ≠ 0 := by
  intro h
  exact hb (Int64.toInt_inj.mp (h.trans Int64.toInt_zero.symm))

theorem lt_zero_iff : a < 0 ↔ a.toInt < 0 := by
  rw [Int64.lt_iff_toInt_lt, Int64.toInt_zero]

/-- Only the least word divided by `-1` wraps. -/
theorem toInt_div (h : ¬(a = Int64.minValue ∧ b = -1)) :
    (a / b).toInt = a.toInt.tdiv b.toInt := by
  rcases not_and_or.mp h with ha | hb
  · exact Int64.toInt_div_of_ne_left a b ha
  · exact Int64.toInt_div_of_ne_right a b hb

theorem div?_of_fits (hb : b ≠ 0) (h : ¬(a = Int64.minValue ∧ b = -1)) :
    div? a b = some (a / b) := by
  rw [div?, if_neg hb, narrow?_eq_some_iff, toInt_div h]

theorem rem?_of_fits (hb : b ≠ 0) (h : ¬(a = Int64.minValue ∧ b = -1)) :
    rem? a b = some (a % b) := by
  rw [rem?, div?_of_fits hb h, Option.bind_some, narrow?_eq_some_iff, Int64.toInt_mod]

/-- The remainder that the machine has no answer for is zero. -/
theorem rem?_getD (a : Int64) (hb : b ≠ 0) : (rem? a b).getD 0 = a % b := by
  by_cases h : a = Int64.minValue ∧ b = -1
  · obtain ⟨rfl, rfl⟩ := h
    decide
  · rw [rem?_of_fits hb h, Option.getD_some]

theorem sub?_of_fits (hlow : -2 ^ 63 ≤ a.toInt - b.toInt) (hhigh : a.toInt - b.toInt < 2 ^ 63) :
    sub? a b = some (a - b) := by
  rw [sub?, narrow?_eq_some_iff, Int64.toInt_sub]
  exact Int.bmod_eq_of_le (by omega) (by omega)

theorem add?_of_fits (hlow : -2 ^ 63 ≤ a.toInt + b.toInt) (hhigh : a.toInt + b.toInt < 2 ^ 63) :
    add? a b = some (a + b) := by
  rw [add?, narrow?_eq_some_iff, Int64.toInt_add]
  exact Int.bmod_eq_of_le (by omega) (by omega)

/-! ## Floor division on words -/

/-- Whether division towards zero has to be corrected. -/
def Uneven (a b : Int) : Prop :=
  a.tmod b ≠ 0 ∧ ¬(a < 0 ↔ b < 0)

/-- The quotient is corrected if the remainder is not zero and the signs of the operands differ. -/
theorem uneven_iff : (a % b ≠ 0 ∧ (a < 0) ≠ (b < 0)) ↔ Uneven a.toInt b.toInt := by
  rw [Uneven, ne_eq, ne_eq, eq_iff_iff, lt_zero_iff, lt_zero_iff, ← Int64.toInt_inj,
    Int64.toInt_mod, Int64.toInt_zero]

/-- The remainder is corrected if it is not zero and its own sign is not that of the divisor, which
comes to the same. -/
theorem uneven_iff_rem (hb : b ≠ 0) :
    (a % b ≠ 0 ∧ (a % b < 0) ≠ (b < 0)) ↔ Uneven a.toInt b.toInt := by
  obtain ⟨-, hpos, hneg⟩ := FloorPair.tmod_bounds a.toInt (toInt_ne_zero hb)
  rw [Uneven, ne_eq, ne_eq, eq_iff_iff, lt_zero_iff, lt_zero_iff, ← Int64.toInt_inj,
    Int64.toInt_mod, Int64.toInt_zero]
  omega

/-- A division that has to be corrected is not the one that wraps: that one leaves nothing. -/
theorem Uneven.fits (h : Uneven a.toInt b.toInt) : ¬(a = Int64.minValue ∧ b = -1) := by
  rintro ⟨rfl, rfl⟩
  exact h.1 (by decide)

/-- The quotient of a division that has to be corrected is not the least word: the divisor is at
least two in size, so the quotient is at most half of the dividend. -/
theorem Uneven.sub?_eq (hb : b ≠ 0) (h : Uneven a.toInt b.toInt) :
    sub? (a / b) 1 = some (a / b - 1) := by
  have hsize : 2 ≤ b.toInt.natAbs := by
    have hrem := (FloorPair.tmod_bounds a.toInt (toInt_ne_zero hb)).1
    have hne := h.1
    omega
  have hhalf : (a.toInt.tdiv b.toInt).natAbs ≤ a.toInt.natAbs / 2 := by
    rw [Int.natAbs_tdiv]
    exact Nat.div_le_div_left hsize (by decide)
  have hlow := a.le_toInt
  have hhigh := a.toInt_lt
  apply sub?_of_fits <;> rw [toInt_div h.fits, Int64.toInt_one] <;> omega

/-- The sum of the remainder and the divisor is between zero and the divisor. -/
theorem Uneven.add?_eq (hb : b ≠ 0) (h : Uneven a.toInt b.toInt) :
    add? (a % b) b = some (a % b + b) := by
  have hbetween := (FloorPair.of_corrected (toInt_ne_zero hb) h.1 h.2).between
  have hlow := b.le_toInt
  have hhigh := b.toInt_lt
  apply add?_of_fits <;> rw [Int64.toInt_mod] <;> omega

/-- **Floor division on words**: the quotient is the one of whole numbers as far as it fits, and the
remainder is the one that goes with it. -/
theorem exists_floorPair (a : Int64) (hb : b ≠ 0) :
    ∃ q : Int, floorDiv? a b = narrow? q ∧ FloorPair a.toInt b.toInt q (floorMod a b).toInt := by
  by_cases h : Uneven a.toInt b.toInt
  · have hdiv : narrow? (a.toInt.tdiv b.toInt - 1) = some (a / b - 1) := by
      rw [← h.sub?_eq hb, sub?, toInt_div h.fits, Int64.toInt_one]
    have hmod : (a % b + b).toInt = a.toInt.tmod b.toInt + b.toInt := by
      rw [← Int64.toInt_mod]
      exact toInt_of_narrow?_eq_some (h.add?_eq hb)
    refine ⟨a.toInt.tdiv b.toInt - 1, ?_, ?_⟩
    · rw [floorDiv?, if_neg h.fits, if_pos (uneven_iff.mpr h), hdiv]
    · rw [floorMod, if_pos ((uneven_iff_rem hb).mpr h), hmod]
      exact .of_corrected (toInt_ne_zero hb) h.1 h.2
  · refine ⟨a.toInt.tdiv b.toInt, ?_, ?_⟩
    · rw [floorDiv?]
      split
      · next hleast =>
        obtain ⟨rfl, rfl⟩ := hleast
        decide
      · next hfits =>
        rw [if_neg (uneven_iff.not.mpr h), eq_comm, narrow?_eq_some_iff, toInt_div hfits]
    · rw [floorMod, if_neg ((uneven_iff_rem hb).not.mpr h), Int64.toInt_mod]
      exact .of_truncated (toInt_ne_zero hb) (by rwa [Uneven, not_and_or, not_not, not_not] at h)

end Word

/-! ## Results and errors -/

/-- A result is a given whole number if that fits in a word, and otherwise the report that the
operator's result is too large. -/
structure IsExact (op : String) (n : Int) (result : Except ArithmeticError Constant) : Prop where
  /-- There is a value exactly if the number is that of a word, and then it is that word. -/
  ok_iff : ∀ c, result = .ok c ↔ ∃ w : Int64, w.toInt = n ∧ c = .int w
  /-- Anything else is an overflow. -/
  error_iff : ∀ e, result = .error e ↔ ¬(-2 ^ 63 ≤ n ∧ n < 2 ^ 63) ∧ e = .overflow op

namespace Arithmetic

theorem isExact_checked (op : String) (n : Int) : IsExact op n (checked op (Word.narrow? n)) := by
  constructor
  · intro c
    cases h : Word.narrow? n with
    | none =>
      refine ⟨nofun, ?_⟩
      rintro ⟨w, hw, -⟩
      rw [Word.narrow?_eq_some_iff.mpr hw] at h
      cases h
    | some w =>
      have hw := Word.narrow?_eq_some_iff.mp h
      refine ⟨fun hc => ?_, ?_⟩
      · cases hc
        exact ⟨w, hw, rfl⟩
      · rintro ⟨v, hv, rfl⟩
        rw [Int64.toInt_inj.mp (hw.trans hv.symm)]
        rfl
  · intro e
    cases h : Word.narrow? n with
    | none =>
      rw [Word.narrow?_eq_none_iff] at h
      refine ⟨fun he => ?_, ?_⟩
      · cases he
        exact ⟨by omega, rfl⟩
      · rintro ⟨-, rfl⟩
        rfl
    | some w =>
      have hw := Word.narrow?_eq_some_iff.mp h
      have hlow := w.le_toInt
      have hhigh := w.toInt_lt
      refine ⟨nofun, ?_⟩
      rintro ⟨hfits, -⟩
      omega

/-! ## Every step guarded -/

/-- A binary operator on whole numbers in the steps of the machine.  There is no result at all if
some step would wrap or divide by zero without having been checked. -/
def guarded (op : BinaryOp) (a b : Int64) : Option (Except ArithmeticError Constant) :=
  match op with
  | .add => some (checked op.symbol (Word.add? a b))
  | .sub => some (checked op.symbol (Word.sub? a b))
  | .mul => some (checked op.symbol (Word.mul? a b))
  | .div => some (floatOp .div (Binary64.ofInt a.toInt) (Binary64.ofInt b.toInt))
  | .floorDiv =>
      if b = 0 then
        some (.error .zeroDivision)
      else
        match Word.div? a b with
        | none => some (.error (.overflow op.symbol))
        | some q => do
            let r ← Word.rem? a b
            if r ≠ 0 ∧ (a < 0) ≠ (b < 0) then
              let p ← Word.sub? q 1
              some (.ok (.int p))
            else
              some (.ok (.int q))
  | .mod =>
      if b = 0 then
        some (.error .zeroDivision)
      else
        let r := (Word.rem? a b).getD 0
        if r ≠ 0 ∧ (r < 0) ≠ (b < 0) then do
          let p ← Word.add? r b
          some (.ok (.int p))
        else
          some (.ok (.int r))

theorem guarded_floorDiv {a b : Int64} (hb : b ≠ 0) :
    guarded .floorDiv a b = some (checked "//" (Word.floorDiv? a b)) := by
  simp only [guarded, if_neg hb]
  by_cases hleast : a = Int64.minValue ∧ b = -1
  · obtain ⟨rfl, rfl⟩ := hleast
    rfl
  · rw [Word.div?_of_fits hb hleast, Word.rem?_of_fits hb hleast, Word.floorDiv?, if_neg hleast]
    by_cases h : Word.Uneven a.toInt b.toInt
    · have hstep := Word.uneven_iff.mpr h
      simp only [Option.bind_eq_bind, Option.bind_some, if_pos hstep, h.sub?_eq hb]
      rfl
    · have hstep := Word.uneven_iff.not.mpr h
      simp only [Option.bind_eq_bind, Option.bind_some, if_neg hstep]
      rfl

theorem guarded_mod {a b : Int64} (hb : b ≠ 0) :
    guarded .mod a b = some (.ok (.int (Word.floorMod a b))) := by
  simp only [guarded, if_neg hb, Word.rem?_getD a hb, Word.floorMod]
  by_cases h : Word.Uneven a.toInt b.toInt
  · have hstep := (Word.uneven_iff_rem hb).mpr h
    rw [if_pos hstep, if_pos hstep, h.add?_eq hb]
    rfl
  · have hstep := (Word.uneven_iff_rem hb).not.mpr h
    rw [if_neg hstep, if_neg hstep]

/-- **No unchecked step goes wrong**: with every step guarded, an operator has a result for all
operands, the one it has without the guards. -/
theorem guarded_eq (op : BinaryOp) (a b : Int64) : guarded op a b = some (intOp op a b) := by
  cases op with
  | add | sub | mul | div => rfl
  | floorDiv =>
    by_cases hb : b = 0
    · simp only [guarded, intOp, if_pos hb]
    · rw [guarded_floorDiv hb, intOp, if_neg hb]
      rfl
  | mod =>
    by_cases hb : b = 0
    · simp only [guarded, intOp, if_pos hb]
    · rw [guarded_mod hb, intOp, if_neg hb]

/-! ## Values that count as whole numbers -/

theorem numeral?_of_integer? {c : Constant} {n : Int64} (h : c.integer? = some n) :
    c.numeral? = some (.int n) := by
  cases c with
  | none | float | str => cases h
  | bool | int =>
    cases h
    rfl

variable {left right : Constant} {a b : Int64}

theorem binary_of_integers (hleft : left.integer? = some a) (hright : right.integer? = some b)
    (op : BinaryOp) : binary op left right = intOp op a b := by
  rw [binary, numeral?_of_integer? hleft, numeral?_of_integer? hright]
  rfl

theorem unary_neg_of_integer (hleft : left.integer? = some a) :
    unary .neg left = checked "-" (Word.narrow? (-a.toInt)) := by
  simp only [unary, numeral?_of_integer? hleft]
  rfl

theorem isExact_floorDiv (a : Int64) (hb : b ≠ 0) :
    IsExact "//" ⌊(a.toInt : ℚ) / b.toInt⌋ (intOp .floorDiv a b) := by
  obtain ⟨q, hquot, hpair⟩ := Word.exists_floorPair a hb
  rw [intOp, if_neg hb, hquot, hpair.floor_eq]
  exact isExact_checked "//" q

theorem floorDiv_overflow_iff (a : Int64) (hb : b ≠ 0) :
    intOp .floorDiv a b = .error (.overflow "//") ↔ a = Int64.minValue ∧ b = -1 := by
  rw [intOp, if_neg hb, Word.floorDiv?]
  split
  · next hleast => exact iff_of_true rfl hleast
  · next hfits =>
    refine iff_of_false ?_ hfits
    split <;> exact nofun

theorem mod_isRemainder (a : Int64) (hb : b ≠ 0) :
    ∃ r : Int64, intOp .mod a b = .ok (.int r) ∧
      a.toInt = ⌊(a.toInt : ℚ) / b.toInt⌋ * b.toInt + r.toInt ∧ |r.toInt| < |b.toInt| ∧
        (r.toInt = 0 ∨ r.toInt.sign = b.toInt.sign) := by
  obtain ⟨q, -, hpair⟩ := Word.exists_floorPair a hb
  refine ⟨Word.floorMod a b, by rw [intOp, if_neg hb], ?_, hpair.abs_lt, hpair.eq_zero_or_sign_eq⟩
  rw [hpair.floor_eq]
  exact hpair.sum_eq

theorem neg_overflow_iff :
    checked "-" (Word.narrow? (-a.toInt)) = .error (.overflow "-") ↔ a = Int64.minValue := by
  have hlow := a.le_toInt
  have hhigh := a.toInt_lt
  rw [(isExact_checked "-" (-a.toInt)).error_iff, and_iff_left rfl, ← Int64.toInt_inj,
    Int64.toInt_minValue]
  omega

/-- **Whole-number arithmetic is exact or an error.**  Of two values that count as the whole numbers
`a` and `b`, sums, differences and products are exact if they fit and overflow if not.  `//` and `%`
refuse the divisor zero and no other; otherwise `//` is the floor of the fraction, which overflows
for the least number and `-1` only, and `%` never fails and is what the floor leaves, smaller than
the divisor and of its sign.  The number with the other sign is exact, and overflows for the least
number only.  And with every step of the machine guarded all these operations have a result: no step
that is not checked can wrap or divide by zero where it is reached. -/
theorem integers_exact (hleft : left.integer? = some a) (hright : right.integer? = some b) :
    IsExact "+" (a.toInt + b.toInt) (binary .add left right) ∧
    IsExact "-" (a.toInt - b.toInt) (binary .sub left right) ∧
    IsExact "*" (a.toInt * b.toInt) (binary .mul left right) ∧
    (binary .floorDiv left right = .error .zeroDivision ↔ b = 0) ∧
    (binary .mod left right = .error .zeroDivision ↔ b = 0) ∧
    (b ≠ 0 →
      IsExact "//" ⌊(a.toInt : ℚ) / b.toInt⌋ (binary .floorDiv left right) ∧
      (binary .floorDiv left right = .error (.overflow "//") ↔
        a = Int64.minValue ∧ b = -1) ∧
      ∃ r : Int64, binary .mod left right = .ok (.int r) ∧
        a.toInt = ⌊(a.toInt : ℚ) / b.toInt⌋ * b.toInt + r.toInt ∧ |r.toInt| < |b.toInt| ∧
          (r.toInt = 0 ∨ r.toInt.sign = b.toInt.sign)) ∧
    IsExact "-" (-a.toInt) (unary .neg left) ∧
    (unary .neg left = .error (.overflow "-") ↔ a = Int64.minValue) ∧
    ∀ op, guarded op a b = some (binary op left right) := by
  simp only [binary_of_integers hleft hright, unary_neg_of_integer hleft]
  refine ⟨isExact_checked _ _, isExact_checked _ _, isExact_checked _ _, ?_, ?_, fun hb => ?_,
    isExact_checked _ _, neg_overflow_iff, fun op => guarded_eq op a b⟩
  · refine ⟨fun h => ?_, fun hb => by rw [intOp, if_pos hb]⟩
    by_contra hb
    have hover := ((isExact_floorDiv a hb).error_iff _).mp h
    cases hover.2
  · refine ⟨fun h => ?_, fun hb => by rw [intOp, if_pos hb]⟩
    by_contra hb
    rw [intOp, if_neg hb] at h
    cases h
  · exact ⟨isExact_floorDiv a hb, floorDiv_overflow_iff a hb, mod_isRemainder a hb⟩

/-- The least number and `-1`: the quotient overflows, the remainder is zero all the same. -/
theorem integers_exact_least :
    (Constant.int Int64.minValue).integer? = some Int64.minValue ∧
      (Constant.int (-1)).integer? = some (-1) ∧
      binary .floorDiv (.int Int64.minValue) (.int (-1)) = .error (.overflow "//") ∧
      (∃ r : Int64, binary .mod (.int Int64.minValue) (.int (-1)) = .ok (.int r) ∧
        |r.toInt| < |(-1 : Int64).toInt|) ∧
      unary .neg (.int Int64.minValue) = .error (.overflow "-") := by
  have hleft : (Constant.int Int64.minValue).integer? = some Int64.minValue := rfl
  have hright : (Constant.int (-1)).integer? = some (-1) := rfl
  obtain ⟨-, -, -, -, -, hdivision, -, hneg, -⟩ := integers_exact hleft hright
  obtain ⟨-, hoverflow, r, hmod, -, hsize, -⟩ := hdivision (by decide)
  exact ⟨hleft, hright, hoverflow.mpr ⟨rfl, rfl⟩, ⟨r, hmod, hsize⟩, hneg.mpr rfl⟩

end Arithmetic

end StackScript
