import StackScript.Arithmetic
import StackScript.Script.Replace

/-!
# Folding literal pairs

The cheap pass: a sum, difference, product or quotient of two literals becomes its value.
The pass enters calls, prefix operators and statements, but never a binary operator, so
what is folded is exactly the outermost binary operators, and a pair of literals below
another operator stays.  An operation that has no value is left for the program to run
into.

The pass exists twice: `Script.foldPairs` as a replacement, and `Script.countPairs`, which
builds the same tree and also counts the pairs it folded and those it had to leave.
-/

namespace StackScript

/-- Whether the cheap pass folds an operator. -/
def BinaryOp.isPlain : BinaryOp → Bool
  | .add | .sub | .mul | .div => true
  | .floorDiv | .mod => false

/-- What the cheap pass finds at a binary operator. -/
inductive Pair where
  /-- Not two literals under an operator that it folds. -/
  | other
  /-- Two literals with a value. -/
  | value (c : Constant)
  /-- Two literals without a value. -/
  | stuck

/-- What the cheap pass finds at a binary operator. -/
def Pair.inspect (op : BinaryOp) (left right : Expr) : Pair :=
  if op.isPlain then
    match left.constant?, right.constant? with
    | some a, some b =>
        match Arithmetic.binary op a b with
        | .ok c => .value c
        | .error _ => .stuck
    | _, _ => .other
  else
    .other

/-- The answer of the cheap pass: every binary operator has one, and it is the operator
itself unless it is a pair with a value. -/
def foldPair? : Expr → Option Expr
  | .binary op left right =>
      match Pair.inspect op left right with
      | .value c => some (.constant c)
      | _ => some (.binary op left right)
  | _ => none

/-- The cheap pass over a script. -/
def Script.foldPairs (s : Script) : Script :=
  s.replace foldPair?

/-! ## The counting version -/

/-- How many pairs were folded, and how many had to be left. -/
structure PairCount where
  /-- Pairs replaced by their value. -/
  folded : Nat
  /-- Pairs that have no value. -/
  abandoned : Nat
  deriving DecidableEq, Repr

/-- Counts of two parts together. -/
def PairCount.add (a b : PairCount) : PairCount :=
  ⟨a.folded + b.folded, a.abandoned + b.abandoned⟩

instance : Add PairCount := ⟨PairCount.add⟩

instance : Zero PairCount := ⟨⟨0, 0⟩⟩

mutual

/-- The cheap pass on an expression, with counts. -/
def Expr.countPairs : Expr → Expr × PairCount
  | .constant value => (.constant value, 0)
  | .name word => (.name word, 0)
  | .unary op operand =>
      let (e, n) := operand.countPairs
      (.unary op e, n)
  | .binary op left right =>
      match Pair.inspect op left right with
      | .value c => (.constant c, ⟨1, 0⟩)
      | .stuck => (.binary op left right, ⟨0, 1⟩)
      | .other => (.binary op left right, 0)
  | .call callee arguments =>
      let (f, n) := callee.countPairs
      let (as, k) := Expr.countPairsAll arguments
      (.call f as, n + k)

/-- The cheap pass on a list of expressions, with counts. -/
def Expr.countPairsAll : List Expr → List Expr × PairCount
  | [] => ([], 0)
  | e :: es =>
      let (e', n) := e.countPairs
      let (es', k) := Expr.countPairsAll es
      (e' :: es', n + k)

end

/-- The cheap pass on a statement, with counts. -/
def Stmt.countPairs : Stmt → Stmt × PairCount
  | .assign target value => (.assign target value.countPairs.1, value.countPairs.2)
  | .expr value => (.expr value.countPairs.1, value.countPairs.2)

/-- The cheap pass on a script, with counts. -/
def Script.countPairs : Script → Script × PairCount
  | [] => ([], 0)
  | t :: ts =>
      let (t', n) := t.countPairs
      let (ts', k) := Script.countPairs ts
      (t' :: ts', n + k)

/-! ## The two versions agree -/

mutual

theorem Expr.countPairs_fst : ∀ e : Expr, e.countPairs.1 = e.replace foldPair?
  | .constant _ => rfl
  | .name _ => rfl
  | .unary op operand => by
      simp [Expr.countPairs, Expr.replace, foldPair?, operand.countPairs_fst]
  | .binary op left right => by
      simp only [Expr.countPairs, Expr.replace, foldPair?]
      cases Pair.inspect op left right <;> rfl
  | .call callee arguments => by
      simp [Expr.countPairs, Expr.replace, foldPair?, callee.countPairs_fst,
        Expr.countPairsAll_fst arguments]

theorem Expr.countPairsAll_fst :
    ∀ es : List Expr, (Expr.countPairsAll es).1 = Expr.replaceAll foldPair? es
  | [] => rfl
  | e :: es => by
      simp [Expr.countPairsAll, Expr.replaceAll, e.countPairs_fst, Expr.countPairsAll_fst es]

end

theorem Stmt.countPairs_fst (t : Stmt) : t.countPairs.1 = t.replace foldPair? := by
  cases t <;> simp [Stmt.countPairs, Stmt.replace, Expr.countPairs_fst]

/-- Counting does not change what is built. -/
theorem Script.countPairs_fst (s : Script) : s.countPairs.1 = s.foldPairs := by
  induction s with
  | nil => rfl
  | cons t ts ih =>
    simp [Script.countPairs, Script.foldPairs, Script.replace, Stmt.countPairs_fst] at ih ⊢
    exact ih

end StackScript
