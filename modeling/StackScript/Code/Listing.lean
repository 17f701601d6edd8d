import StackScript.Code.Basic
import StackScript.Text.Quoted

/-!
# Listings

Code as text: a heading with the name of the script, then a line for every instruction
with its offset, its name, its operand, and in parentheses what the operand points to.
Texts are quoted, so that every instruction stays on its line.  A question mark stands for
what an operand that points nowhere points to.
-/

namespace StackScript

namespace Listing

/-- A text moved to the right edge of a column. -/
def padLeft (width : Nat) (s : String) : String :=
  String.ofList (List.replicate (width - s.length) ' ') ++ s

/-- A number moved to the right edge of a column. -/
def column (width n : Nat) : String :=
  padLeft width (Word.natText n)

/-- A constant as listings show it. -/
def constant : Option Constant → String
  | some (.str s) => Text.quote s
  | some c => c.display
  | none => "?"

/-- A name as listings show it. -/
def name : Option String → String
  | some word => word
  | none => "?"

/-- An operand. -/
def operand (n : UInt32) : String := column 4 n.toNat

/-- An instruction with its operand. -/
def instruction (code : Code) : Instr → String
  | .loadConst i => s!"LOAD_CONST    {operand i} ({constant (code.constant? i)})"
  | .loadName i => s!"LOAD_NAME     {operand i} ({name (code.name? i)})"
  | .storeName i => s!"STORE_NAME    {operand i} ({name (code.name? i)})"
  | .binary op => s!"BINARY_OP          ({op.symbol})"
  | .unary .neg => "UNARY_NEGATIVE"
  | .unary .pos => "UNARY_POSITIVE"
  | .call n => s!"CALL          {operand n}"
  | .pop => "POP_TOP"
  | .ret => "RETURN_VALUE"

/-- A line: the offset and the instruction. -/
def line (code : Code) (offset : Nat) (i : Instr) : String :=
  s!"{column 6 offset}  {instruction code i}\n"

/-- The lines of instructions that start at some offset. -/
def lines (code : Code) (offset : Nat) : List Instr → List String
  | [] => []
  | i :: is => line code offset i :: lines code (offset + 1) is

end Listing

/-- The listing of some code. -/
def Code.listing (code : Code) : String :=
  String.join (s!"code object for {code.filename}:\n" :: Listing.lines code 0 code.instructions)

end StackScript
