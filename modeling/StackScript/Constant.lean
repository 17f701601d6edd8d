import StackScript.Number.FloatText

/-!
# Literal values

The five kinds of value that can be written in a script and stored in compiled code.
Equality of constants is equality of what they are: two doubles are equal when their bits
are, so that `0.0` and `-0.0` stay apart, and so do two doubles that are no number unless
their bits are the same; and values of different kinds are never equal, so that `1`, `1.0`
and `True` are three constants.
-/

namespace StackScript

/-- A literal value. -/
inductive Constant where
  /-- The value `None`. -/
  | none
  /-- A truth value. -/
  | bool (b : Bool)
  /-- A 64-bit integer. -/
  | int (n : Int64)
  /-- A double. -/
  | float (x : Double)
  /-- A text. -/
  | str (s : String)
  deriving DecidableEq

instance : Inhabited Constant := ⟨.none⟩

namespace Constant

/-- The name of the kind of a value, as error messages give it. -/
def typeName : Constant → String
  | .none => "NoneType"
  | .bool _ => "bool"
  | .int _ => "int"
  | .float _ => "float"
  | .str _ => "str"

/-- The text that printing a value shows; a text is shown as it is. -/
def display : Constant → String
  | .none => "None"
  | .bool true => "True"
  | .bool false => "False"
  | .int n => Word.text n
  | .float x => FloatText.text x
  | .str s => s

/-- The integer that a value counts as: truth values are `0` and `1`. -/
def integer? : Constant → Option Int64
  | .bool b => some (if b then 1 else 0)
  | .int n => some n
  | _ => Option.none

end Constant

/-- A value that arithmetic can be done with. -/
inductive Numeral where
  /-- A whole number. -/
  | int (n : Int64)
  /-- A double. -/
  | float (x : Double)

/-- The number that a value counts as. -/
def Constant.numeral? : Constant → Option Numeral
  | .bool b => some (.int (if b then 1 else 0))
  | .int n => some (.int n)
  | .float x => some (.float x)
  | _ => Option.none

end StackScript
