import StackScript.Constant
import StackScript.Operator

/-!
# Syntax trees

A script is a list of statements, and a statement is an assignment or a bare expression.
Expressions are literals, names, prefix and binary operators, and calls with any number
of arguments.

Because the arguments of a call are a list of expressions, recursion over an expression
comes in pairs: one function on expressions and one on lists of them.
-/

namespace StackScript

/-- An expression. -/
inductive Expr where
  /-- A literal value. -/
  | constant (value : Constant)
  /-- A name to be looked up. -/
  | name (word : String)
  /-- A prefix operator and its operand. -/
  | unary (op : UnaryOp) (operand : Expr)
  /-- A binary operator between its operands. -/
  | binary (op : BinaryOp) (left right : Expr)
  /-- A call. -/
  | call (callee : Expr) (arguments : List Expr)

instance : Inhabited Expr := ⟨.constant .none⟩

/-- A statement. -/
inductive Stmt where
  /-- Bind a name to the value of an expression. -/
  | assign (target : String) (value : Expr)
  /-- Evaluate an expression and drop its value. -/
  | expr (value : Expr)

namespace Stmt

/-- The expression of a statement. -/
def value : Stmt → Expr
  | .assign _ value => value
  | .expr value => value

/-- The name that a statement binds. -/
def target? : Stmt → Option String
  | .assign target _ => some target
  | .expr _ => none

/-- A statement is what it binds and what it evaluates. -/
theorem eq_of_target?_of_value {t t' : Stmt} (htarget : t.target? = t'.target?)
    (hvalue : t.value = t'.value) : t = t' := by
  cases t <;> cases t' <;> simp_all [target?, value]

end Stmt

/-- A script: its statements in order. -/
abbrev Script := List Stmt

/-! ## Equality -/

mutual

/-- Whether two expressions are the same tree. -/
def Expr.same : Expr → Expr → Bool
  | .constant a, .constant b => a == b
  | .name a, .name b => a == b
  | .unary o a, .unary p b => o == p && a.same b
  | .binary o a b, .binary p c d => o == p && a.same c && b.same d
  | .call f as, .call g bs => f.same g && Expr.sameAll as bs
  | _, _ => false

/-- Whether two lists of expressions are the same, one by one. -/
def Expr.sameAll : List Expr → List Expr → Bool
  | [], [] => true
  | a :: as, b :: bs => a.same b && Expr.sameAll as bs
  | _, _ => false

end

mutual

theorem Expr.eq_of_same : ∀ {a b : Expr}, a.same b = true → a = b
  | .constant _, .constant _, h => by simp_all [Expr.same]
  | .name _, .name _, h => by simp_all [Expr.same]
  | .unary _ a, .unary _ b, h => by
      simp only [Expr.same, Bool.and_eq_true, beq_iff_eq] at h
      rw [h.1, Expr.eq_of_same h.2]
  | .binary _ a b, .binary _ c d, h => by
      simp only [Expr.same, Bool.and_eq_true, beq_iff_eq] at h
      rw [h.1.1, Expr.eq_of_same h.1.2, Expr.eq_of_same h.2]
  | .call f as, .call g bs, h => by
      simp only [Expr.same, Bool.and_eq_true] at h
      rw [Expr.eq_of_same h.1, Expr.eq_of_sameAll h.2]
  | .constant _, .name _, h | .constant _, .unary _ _, h | .constant _, .binary _ _ _, h
  | .constant _, .call _ _, h | .name _, .constant _, h | .name _, .unary _ _, h
  | .name _, .binary _ _ _, h | .name _, .call _ _, h | .unary _ _, .constant _, h
  | .unary _ _, .name _, h | .unary _ _, .binary _ _ _, h | .unary _ _, .call _ _, h
  | .binary _ _ _, .constant _, h | .binary _ _ _, .name _, h | .binary _ _ _, .unary _ _, h
  | .binary _ _ _, .call _ _, h | .call _ _, .constant _, h | .call _ _, .name _, h
  | .call _ _, .unary _ _, h | .call _ _, .binary _ _ _, h => by simp [Expr.same] at h

theorem Expr.eq_of_sameAll : ∀ {as bs : List Expr}, Expr.sameAll as bs = true → as = bs
  | [], [], _ => rfl
  | a :: as, b :: bs, h => by
      simp only [Expr.sameAll, Bool.and_eq_true] at h
      rw [Expr.eq_of_same h.1, Expr.eq_of_sameAll h.2]
  | [], _ :: _, h | _ :: _, [], h => by simp [Expr.sameAll] at h

end

mutual

theorem Expr.same_self : ∀ a : Expr, a.same a = true
  | .constant _ => by simp [Expr.same]
  | .name _ => by simp [Expr.same]
  | .unary _ a => by simp [Expr.same, a.same_self]
  | .binary _ a b => by simp [Expr.same, a.same_self, b.same_self]
  | .call f as => by simp [Expr.same, f.same_self, Expr.sameAll_self as]

theorem Expr.sameAll_self : ∀ as : List Expr, Expr.sameAll as as = true
  | [] => rfl
  | a :: as => by simp [Expr.sameAll, a.same_self, Expr.sameAll_self as]

end

instance : DecidableEq Expr := fun a b =>
  if h : a.same b = true then
    isTrue (Expr.eq_of_same h)
  else
    isFalse fun e => h (e ▸ a.same_self)

deriving instance DecidableEq for Stmt

namespace Expr

/-- The value of an expression that is a literal. -/
def constant? : Expr → Option Constant
  | .constant value => some value
  | _ => none

end Expr

end StackScript
