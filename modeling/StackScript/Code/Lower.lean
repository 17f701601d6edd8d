import StackScript.Code.Basic
import StackScript.Number.Word
import StackScript.Script.Tree

/-!
# Lowering a script to code

Every statement becomes a stretch of code that leaves the stack as it found it, and at the
end `None` is loaded and returned.  Operands are lowered left to right before their
operator, a callee before its arguments, the value of an assignment before its target.

Constants and names are entered into their tables when they are first needed and found
there afterwards, so each table lists its entries in the order of their first use, without
repetition.  Tables only ever grow at their end, which is why an operand that was handed
out once stays right.

An operand has 32 bits.  A table index or a number of arguments that does not fit is an
error.
-/

namespace StackScript

/-- Why a script cannot be lowered. -/
inductive LowerError where
  /-- An index into the constant table does not fit. -/
  | tooManyConstants (filename : String) (limit : Nat)
  /-- An index into the name table does not fit. -/
  | tooManyNames (filename : String) (limit : Nat)
  /-- The number of arguments of a call does not fit. -/
  | tooManyArguments (filename : String) (count : Nat)
  deriving DecidableEq, Repr

/-- The wording of a lowering error. -/
def LowerError.message : LowerError → String
  | .tooManyConstants filename limit =>
      s!"too many constants in {filename} (limit {Word.natText limit})"
  | .tooManyNames filename limit =>
      s!"too many names in {filename} (limit {Word.natText limit})"
  | .tooManyArguments filename count =>
      s!"call with {Word.natText count} arguments in {filename} exceeds the limit"

/-- The two tables as far as they have been filled. -/
structure Tables where
  /-- The constant table. -/
  constants : List Constant
  /-- The name table. -/
  names : List String

namespace Lower

/-- The largest operand. -/
def operandLimit : Nat := 0xffffffff

/-- A number as an operand, if it fits. -/
def operand? (n : Nat) : Option UInt32 :=
  if n ≤ operandLimit then some (UInt32.ofNat n) else none

/-- The place of an entry in a table, and the table with the entry in it. -/
def intern {α : Type} [DecidableEq α] (table : List α) (a : α) : Nat × List α :=
  match table.idxOf? a with
  | some i => (i, table)
  | none => (table.length, table ++ [a])

/-- Enter a constant. -/
def constant (filename : String) (c : Constant) (tables : Tables) :
    Except LowerError (UInt32 × Tables) :=
  let (i, constants) := intern tables.constants c
  match operand? i with
  | some n => .ok (n, { tables with constants })
  | none => .error (.tooManyConstants filename operandLimit)

/-- Enter a name. -/
def name (filename : String) (word : String) (tables : Tables) :
    Except LowerError (UInt32 × Tables) :=
  let (i, names) := intern tables.names word
  match operand? i with
  | some n => .ok (n, { tables with names })
  | none => .error (.tooManyNames filename operandLimit)

mutual

/-- The code of an expression: it pushes one value. -/
def expr (filename : String) (tables : Tables) :
    Expr → Except LowerError (List Instr × Tables)
  | .constant c => do
      let (i, tables) ← constant filename c tables
      .ok ([.loadConst i], tables)
  | .name word => do
      let (i, tables) ← name filename word tables
      .ok ([.loadName i], tables)
  | .unary op operand => do
      let (code, tables) ← expr filename tables operand
      .ok (code ++ [.unary op], tables)
  | .binary op left right => do
      let (code₁, tables) ← expr filename tables left
      let (code₂, tables) ← expr filename tables right
      .ok (code₁ ++ code₂ ++ [.binary op], tables)
  | .call callee arguments => do
      let (code₁, tables) ← expr filename tables callee
      let (code₂, tables) ← exprs filename tables arguments
      match operand? arguments.length with
      | some n => .ok (code₁ ++ code₂ ++ [.call n], tables)
      | none => .error (.tooManyArguments filename arguments.length)

/-- The code of a list of expressions: it pushes their values in order. -/
def exprs (filename : String) (tables : Tables) :
    List Expr → Except LowerError (List Instr × Tables)
  | [] => .ok ([], tables)
  | e :: es => do
      let (code₁, tables) ← expr filename tables e
      let (code₂, tables) ← exprs filename tables es
      .ok (code₁ ++ code₂, tables)

end

/-- The code of a statement. -/
def stmt (filename : String) (tables : Tables) :
    Stmt → Except LowerError (List Instr × Tables)
  | .assign target value => do
      let (code, tables) ← expr filename tables value
      let (i, tables) ← name filename target tables
      .ok (code ++ [.storeName i], tables)
  | .expr value => do
      let (code, tables) ← expr filename tables value
      .ok (code ++ [.pop], tables)

/-- The code of a list of statements. -/
def stmts (filename : String) (tables : Tables) :
    List Stmt → Except LowerError (List Instr × Tables)
  | [] => .ok ([], tables)
  | t :: ts => do
      let (code₁, tables) ← stmt filename tables t
      let (code₂, tables) ← stmts filename tables ts
      .ok (code₁ ++ code₂, tables)

end Lower

/-- The code of a script. -/
def Script.lower (filename : String) (s : Script) : Except LowerError Code := do
  let (code, tables) ← Lower.stmts filename ⟨[], []⟩ s
  let (i, tables) ← Lower.constant filename .none tables
  .ok ⟨filename, tables.constants, tables.names, code ++ [.loadConst i, .ret]⟩

end StackScript
