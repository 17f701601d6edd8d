import StackScript.Arithmetic
import StackScript.Script.Tree

/-!
# Folding from the inside out

The thorough pass: operands first, then the operator.  All operators take part, so a
whole tree of literals becomes one literal, unless one of its operations has no value; in
that case the operation stays, and so does everything above it.  Every node that becomes
a literal is counted.
-/

namespace StackScript

/-- A prefix operator on an operand that has been folded, and how many nodes that folded. -/
def foldUnary (op : UnaryOp) (operand : Expr) : Expr × Nat :=
  match operand.constant? with
  | some a =>
      match Arithmetic.unary op a with
      | .ok c => (.constant c, 1)
      | .error _ => (.unary op operand, 0)
  | none => (.unary op operand, 0)

/-- A binary operator on operands that have been folded, and how many nodes that folded. -/
def foldBinary (op : BinaryOp) (left right : Expr) : Expr × Nat :=
  match left.constant?, right.constant? with
  | some a, some b =>
      match Arithmetic.binary op a b with
      | .ok c => (.constant c, 1)
      | .error _ => (.binary op left right, 0)
  | _, _ => (.binary op left right, 0)

mutual

/-- The thorough pass on an expression. -/
def Expr.foldDeep : Expr → Expr × Nat
  | .constant value => (.constant value, 0)
  | .name word => (.name word, 0)
  | .unary op operand =>
      let (e, n) := operand.foldDeep
      let (d, k) := foldUnary op e
      (d, n + k)
  | .binary op left right =>
      let (a, n) := left.foldDeep
      let (b, m) := right.foldDeep
      let (d, k) := foldBinary op a b
      (d, n + m + k)
  | .call callee arguments =>
      let (f, n) := callee.foldDeep
      let (as, k) := Expr.foldDeepAll arguments
      (.call f as, n + k)

/-- The thorough pass on a list of expressions. -/
def Expr.foldDeepAll : List Expr → List Expr × Nat
  | [] => ([], 0)
  | e :: es =>
      let (e', n) := e.foldDeep
      let (es', k) := Expr.foldDeepAll es
      (e' :: es', n + k)

end

/-- The thorough pass on a statement. -/
def Stmt.foldDeep : Stmt → Stmt × Nat
  | .assign target value => (.assign target value.foldDeep.1, value.foldDeep.2)
  | .expr value => (.expr value.foldDeep.1, value.foldDeep.2)

/-- The thorough pass on a script. -/
def Script.foldDeep : Script → Script × Nat
  | [] => ([], 0)
  | t :: ts =>
      let (t', n) := t.foldDeep
      let (ts', k) := Script.foldDeep ts
      (t' :: ts', n + k)

end StackScript
