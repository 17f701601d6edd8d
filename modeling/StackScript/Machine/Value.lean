import StackScript.Constant

/-!
# Values of a running program

A value is literal data or a builtin function.  A builtin is known by its name: two builtins
of one name are equal, and what one does is said by the table of the machine
(`BuiltinTable.function`).
-/

namespace StackScript

/-- A value on the stack or bound to a name. -/
inductive Value where
  /-- Literal data. -/
  | data (c : Constant)
  /-- A builtin function, by name. -/
  | builtin (name : String)
  deriving DecidableEq

instance : Inhabited Value := ⟨.data .none⟩

namespace Value

/-- The value `None`. -/
def none : Value := .data .none

/-- A whole number. -/
def int (n : Int64) : Value := .data (.int n)

/-- A text. -/
def str (s : String) : Value := .data (.str s)

/-- The name of the kind of a value, as error messages give it. -/
def typeName : Value → String
  | .data c => c.typeName
  | .builtin _ => "builtin_function_or_method"

/-- The text that printing a value shows. -/
def display : Value → String
  | .data c => c.display
  | .builtin name => s!"<built-in function {name}>"

end Value

end StackScript
