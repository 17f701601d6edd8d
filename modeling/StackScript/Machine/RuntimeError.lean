import StackScript.Arithmetic

/-!
# Errors of a running program

Every way in which running a program can fail.  Each cause belongs to a class, and the
wording of a cause starts with the name of its class; only malformed code is reported in
words of its own, because it is no error of the script.
-/

namespace StackScript

/-- What is wrong with malformed code. -/
inductive CodeFault where
  /-- An operand points outside the constant table. -/
  | constantIndex (index : UInt32)
  /-- An operand points outside the name table. -/
  | nameIndex (index : UInt32)
  /-- There is nothing to pop. -/
  | underflow
  /-- There are fewer values than a call needs. -/
  | callUnderflow (count : UInt32)
  /-- The instructions end without a return. -/
  | noReturn
  deriving DecidableEq

/-- The wording of a fault. -/
def CodeFault.message : CodeFault → String
  | .constantIndex index => s!"constant index {Word.natText index.toNat} out of range"
  | .nameIndex index => s!"name index {Word.natText index.toNat} out of range"
  | .underflow => "stack underflow"
  | .callUnderflow count => s!"stack underflow calling with {Word.natText count.toNat} args"
  | .noReturn => "instruction stream does not end with a return"

/-- Why a running program failed. -/
inductive RuntimeError where
  /-- A name has no value. -/
  | unbound (name : String)
  /-- An operator has no value. -/
  | arithmetic (e : ArithmeticError)
  /-- A builtin that takes exactly one argument was given another number. -/
  | notOneArgument (function : String) (given : Nat)
  /-- A builtin that takes at most one argument was given more. -/
  | tooManyArguments (function : String) (given : Nat)
  /-- A value has no length. -/
  | noLength (type : String)
  /-- A value has no absolute value. -/
  | noMagnitude (type : String)
  /-- A value cannot be converted to a number. -/
  | notConvertible (function type : String)
  /-- Something that is no function was called. -/
  | notCallable (type : String)
  /-- A text is no whole number. -/
  | badInteger (content : String)
  /-- A text is no number. -/
  | badFloat (content : String)
  /-- The double that is no number has no whole part. -/
  | nanToInteger
  /-- The whole part of a double does not fit. -/
  | floatTooLarge
  /-- The magnitude of a whole number does not fit. -/
  | magnitudeTooLarge
  /-- The output could not be written. -/
  | output (reason : String)
  /-- The code is malformed. -/
  | invalidCode (filename : String) (fault : CodeFault)
  deriving DecidableEq

/-- The classes of runtime errors. -/
inductive RuntimeError.Kind where
  | nameError
  | typeError
  | notCallable
  | valueError
  | zeroDivision
  | overflow
  | output
  | invalidCode
  deriving DecidableEq, Repr

namespace RuntimeError

/-- The class of an error. -/
def kind : RuntimeError → Kind
  | .unbound _ => .nameError
  | .arithmetic .zeroDivision => .zeroDivision
  | .arithmetic (.overflow _) => .overflow
  | .arithmetic (.unsupportedOperands _ _ _) => .typeError
  | .arithmetic (.unsupportedOperand _ _) => .typeError
  | .notOneArgument _ _ => .typeError
  | .tooManyArguments _ _ => .typeError
  | .noLength _ => .typeError
  | .noMagnitude _ => .typeError
  | .notConvertible _ _ => .typeError
  | .notCallable _ => .notCallable
  | .badInteger _ => .valueError
  | .badFloat _ => .valueError
  | .nanToInteger => .valueError
  | .floatTooLarge => .overflow
  | .magnitudeTooLarge => .overflow
  | .output _ => .output
  | .invalidCode _ _ => .invalidCode

/-- The name that the wording of a class starts with. -/
def Kind.label : Kind → String
  | .nameError => "NameError: "
  | .typeError => "TypeError: "
  | .notCallable => "TypeError: "
  | .valueError => "ValueError: "
  | .zeroDivision => "ZeroDivisionError: "
  | .overflow => "OverflowError: "
  | .output => "OSError: "
  | .invalidCode => ""

/-- The wording of a cause without its class. -/
def detail : RuntimeError → String
  | .unbound name => s!"name '{name}' is not defined"
  | .arithmetic e => e.message
  | .notOneArgument function given =>
      s!"{function}() takes exactly one argument ({Word.natText given} given)"
  | .tooManyArguments function given =>
      s!"{function}() takes at most 1 argument ({Word.natText given} given)"
  | .noLength type => s!"object of type '{type}' has no len()"
  | .noMagnitude type => s!"bad operand type for abs(): '{type}'"
  | .notConvertible function type =>
      s!"{function}() argument must be a string or a number, not '{type}'"
  | .notCallable type => s!"'{type}' object is not callable"
  | .badInteger content => s!"invalid literal for int() with base 10: '{content}'"
  | .badFloat content => s!"could not convert string to float: '{content}'"
  | .nanToInteger => "cannot convert float NaN to integer"
  | .floatTooLarge => "cannot convert float to 64-bit integer"
  | .magnitudeTooLarge => "integer absolute value overflow"
  | .output reason => s!"cannot write output: {reason}"
  | .invalidCode filename fault => s!"invalid code object {filename}: {fault.message}"

/-- The wording of an error. -/
def message (e : RuntimeError) : String :=
  e.kind.label ++ e.detail

end RuntimeError

end StackScript
