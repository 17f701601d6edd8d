import StackScript.Script.Tree

/-!
# Replacing nodes of a tree from the outside in

What is replaced is given by an answer to single nodes: another node, or nothing.  A node
with an answer becomes that answer, and what lay below it is not looked at; a node without
one is kept, and its children are looked at in turn.  The targets of assignments are not
nodes and never change.
-/

namespace StackScript

mutual

/-- Replace every outermost node that has an answer. -/
def Expr.replace (answer : Expr → Option Expr) : Expr → Expr
  | .constant value => (answer (.constant value)).getD (.constant value)
  | .name word => (answer (.name word)).getD (.name word)
  | .unary op operand =>
      match answer (.unary op operand) with
      | some e => e
      | none => .unary op (operand.replace answer)
  | .binary op left right =>
      match answer (.binary op left right) with
      | some e => e
      | none => .binary op (left.replace answer) (right.replace answer)
  | .call callee arguments =>
      match answer (.call callee arguments) with
      | some e => e
      | none => .call (callee.replace answer) (Expr.replaceAll answer arguments)

/-- Replace in every expression of a list. -/
def Expr.replaceAll (answer : Expr → Option Expr) : List Expr → List Expr
  | [] => []
  | e :: es => e.replace answer :: Expr.replaceAll answer es

end

/-- Replace in the expression of a statement. -/
def Stmt.replace (answer : Expr → Option Expr) : Stmt → Stmt
  | .assign target value => .assign target (value.replace answer)
  | .expr value => .expr (value.replace answer)

/-- Replace in every statement of a script. -/
def Script.replace (answer : Expr → Option Expr) (s : Script) : Script :=
  s.map (·.replace answer)

theorem Expr.replaceAll_eq_map (answer : Expr → Option Expr) (es : List Expr) :
    Expr.replaceAll answer es = es.map (·.replace answer) := by
  induction es with
  | nil => rfl
  | cons e es ih => simp [Expr.replaceAll, ih]

/-- A node with an answer becomes that answer. -/
theorem Expr.replace_of_some {answer : Expr → Option Expr} {e d : Expr} (h : answer e = some d) :
    e.replace answer = d := by
  cases e <;> simp [Expr.replace, h]

end StackScript
