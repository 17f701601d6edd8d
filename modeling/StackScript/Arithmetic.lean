import StackScript.Constant
import StackScript.Operator

/-!
# Arithmetic on literal values

One definition of every operator, used both where constant expressions are folded and
where a program runs; that is what makes folding invisible.

Truth values count as `0` and `1`.  Two whole numbers give a whole number, except under
`/`, which always gives a double; as soon as one operand is a double the other is
converted.  `//` and `%` round down.  Texts are joined by `+` and repeated by `*` with a
whole number on either side.  Everything else is refused with the names of the kinds
involved.

A whole number that does not fit in 64 bits is refused rather than wrapped, and so is a
repetition longer than `maxTextBytes`.
-/

namespace StackScript

/-- Why an operation has no value. -/
inductive ArithmeticError where
  /-- The divisor is zero. -/
  | zeroDivision
  /-- The result is out of range. -/
  | overflow (op : String)
  /-- A binary operator does not apply to operands of these kinds. -/
  | unsupportedOperands (op left right : String)
  /-- A prefix operator does not apply to an operand of this kind. -/
  | unsupportedOperand (op operand : String)
  deriving DecidableEq, Repr

/-- The wording of an arithmetic error. -/
def ArithmeticError.message : ArithmeticError → String
  | .zeroDivision => "division by zero"
  | .overflow op => s!"result of '{op}' is too large"
  | .unsupportedOperands op left right =>
      s!"unsupported operand type(s) for {op}: '{left}' and '{right}'"
  | .unsupportedOperand op operand => s!"bad operand type for unary {op}: '{operand}'"

namespace Arithmetic

/-- The largest number of bytes that repeating a text may produce, `2 ^ 30`. -/
def maxTextBytes : Nat := 0x40000000

/-- A whole-number result, or the report that it does not fit. -/
def checked (op : String) : Option Int64 → Except ArithmeticError Constant
  | some n => .ok (.int n)
  | none => .error (.overflow op)

/-- Binary operators on two doubles. -/
def floatOp (op : BinaryOp) (a b : Double) : Except ArithmeticError Constant :=
  match op with
  | .add => .ok (.float (a + b))
  | .sub => .ok (.float (a - b))
  | .mul => .ok (.float (a * b))
  | .div => if b.isZero then .error .zeroDivision else .ok (.float (a / b))
  | .floorDiv =>
      if b.isZero then .error .zeroDivision else .ok (.float (Binary64.floor (a / b)))
  | .mod =>
      if b.isZero then
        .error .zeroDivision
      else
        let r := Binary64.remainder a b
        if !r.isZero && r.lt 0 != b.lt 0 then
          .ok (.float (r + b))
        else
          .ok (.float r)

/-- Binary operators on two whole numbers. -/
def intOp (op : BinaryOp) (a b : Int64) : Except ArithmeticError Constant :=
  match op with
  | .add => checked op.symbol (Word.add? a b)
  | .sub => checked op.symbol (Word.sub? a b)
  | .mul => checked op.symbol (Word.mul? a b)
  | .div => floatOp .div (Binary64.ofInt a.toInt) (Binary64.ofInt b.toInt)
  | .floorDiv =>
      if b = 0 then .error .zeroDivision else checked op.symbol (Word.floorDiv? a b)
  | .mod => if b = 0 then .error .zeroDivision else .ok (.int (Word.floorMod a b))

/-- Binary operators on two numbers. -/
def numericOp (op : BinaryOp) : Numeral → Numeral → Except ArithmeticError Constant
  | .int a, .int b => intOp op a b
  | .int a, .float b => floatOp op (Binary64.ofInt a.toInt) b
  | .float a, .int b => floatOp op a (Binary64.ofInt b.toInt)
  | .float a, .float b => floatOp op a b

/-- A text written `count` times; none at all if the count is not positive.  The empty text is
the same however often it is written. -/
def repeated (s : String) (count : Int64) : Except ArithmeticError Constant :=
  let times := count.toInt.toNat
  if maxTextBytes < s.utf8ByteSize * times then
    .error (.overflow BinaryOp.mul.symbol)
  else if s.isEmpty then
    .ok (.str "")
  else
    .ok (.str (String.join (List.replicate times s)))

/-- The report that an operator does not apply to its operands. -/
def unsupported (op : BinaryOp) (left right : Constant) : Except ArithmeticError Constant :=
  .error (.unsupportedOperands op.symbol left.typeName right.typeName)

/-- Binary operators when one operand is not a number. -/
def textOp (op : BinaryOp) (left right : Constant) : Except ArithmeticError Constant :=
  match op, left, right with
  | .add, .str a, .str b => .ok (.str (a ++ b))
  | .mul, .str s, n =>
      match n.integer? with
      | some count => repeated s count
      | none => unsupported op left right
  | .mul, n, .str s =>
      match n.integer? with
      | some count => repeated s count
      | none => unsupported op left right
  | _, _, _ => unsupported op left right

/-- The value of a binary operator. -/
def binary (op : BinaryOp) (left right : Constant) : Except ArithmeticError Constant :=
  match left.numeral?, right.numeral? with
  | some a, some b => numericOp op a b
  | _, _ => textOp op left right

/-- The value of a prefix operator. -/
def unary (op : UnaryOp) (operand : Constant) : Except ArithmeticError Constant :=
  match op, operand.numeral? with
  | .neg, some (.int n) => checked op.symbol (Word.neg? n)
  | .neg, some (.float x) => .ok (.float (-x))
  | .pos, some (.int n) => .ok (.int n)
  | .pos, some (.float x) => .ok (.float x)
  | _, none => .error (.unsupportedOperand op.symbol operand.typeName)

end Arithmetic

end StackScript
