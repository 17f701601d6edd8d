/-!
# Operators

The six binary and two prefix operators of the language, with their spellings.
-/

namespace StackScript

/-- The operators that stand between two operands. -/
inductive BinaryOp where
  | add
  | sub
  | mul
  | div
  | floorDiv
  | mod
  deriving DecidableEq, Repr, Inhabited

/-- The spelling of a binary operator. -/
def BinaryOp.symbol : BinaryOp → String
  | .add => "+"
  | .sub => "-"
  | .mul => "*"
  | .div => "/"
  | .floorDiv => "//"
  | .mod => "%"

/-- The operators that stand before one operand. -/
inductive UnaryOp where
  | neg
  | pos
  deriving DecidableEq, Repr, Inhabited

/-- The spelling of a prefix operator. -/
def UnaryOp.symbol : UnaryOp → String
  | .neg => "-"
  | .pos => "+"

/-- Different binary operators are spelled differently. -/
theorem BinaryOp.symbol_injective : ∀ a b : BinaryOp, a.symbol = b.symbol → a = b := by
  intro a b h
  cases a <;> cases b <;> simp [symbol] at h ⊢

end StackScript
