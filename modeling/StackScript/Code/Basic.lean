import StackScript.Constant
import StackScript.Operator

/-!
# Compiled code

Code for a stack machine: a list of instructions without jumps, and two tables that their
operands point into.  Any value of these types is code in the sense of this module, well
formed or not; the machine deals with operands that point nowhere and with streams that
have no end.
-/

namespace StackScript

/-- One instruction. -/
inductive Instr where
  /-- Push an entry of the constant table. -/
  | loadConst (index : UInt32)
  /-- Push the value of an entry of the name table. -/
  | loadName (index : UInt32)
  /-- Pop a value and bind it to an entry of the name table. -/
  | storeName (index : UInt32)
  /-- Pop the right and the left operand and push the result. -/
  | binary (op : BinaryOp)
  /-- Pop an operand and push the result. -/
  | unary (op : UnaryOp)
  /-- Pop that many arguments and then a callee, and push the result of the call. -/
  | call (count : UInt32)
  /-- Pop a value and drop it. -/
  | pop
  /-- Pop a value and finish with it. -/
  | ret
  deriving DecidableEq

/-- The compiled form of one script. -/
structure Code where
  /-- The name of the script. -/
  filename : String
  /-- The constant table. -/
  constants : List Constant
  /-- The name table. -/
  names : List String
  /-- The instructions in order. -/
  instructions : List Instr
  deriving DecidableEq

namespace Code

/-- The number of instructions. -/
def length (code : Code) : Nat := code.instructions.length

/-- Whether there are no instructions. -/
def isEmpty (code : Code) : Bool := code.instructions.isEmpty

/-- Whether the last instruction returns. -/
def endsWithReturn (code : Code) : Bool := code.instructions.getLast? == some .ret

/-- The constant that an operand points to. -/
def constant? (code : Code) (index : UInt32) : Option Constant :=
  code.constants[index.toNat]?

/-- The name that an operand points to. -/
def name? (code : Code) (index : UInt32) : Option String :=
  code.names[index.toNat]?

/-- The pass over compiled code; it has nothing to do. -/
def peephole (code : Code) : Code := code

end Code

end StackScript
