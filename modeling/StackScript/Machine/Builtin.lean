import StackScript.Machine.Named
import StackScript.Machine.RuntimeError
import StackScript.Machine.Sink
import StackScript.Machine.Value
import StackScript.Text.Whitespace

/-!
# Builtin functions

A builtin takes the sink of the program and its arguments, and returns a value or an error
together with the sink as it left it.  It can write to the sink but not read from it: what
was written before has no influence on a builtin, and it stays as it is.

A table gives builtins names.  The standard table has six of them: one prints, one measures
a text, three convert, and one takes absolute values.  Only printing touches the sink.

A builtin that is a value need not be in the table of the machine that calls it, since whoever
runs a program may bind a name to any builtin beforehand.  `elsewhere` says what those do that
are not in the table, so that every builtin that is a value is a function (`function`).
-/

namespace StackScript

/-- What a builtin does. -/
structure Builtin where
  /-- The result for the given arguments, and the sink afterwards. -/
  call : Sink → List Value → Except RuntimeError Value × Sink
  /-- What was written earlier has no influence, and it stays. -/
  call_after (earlier : String) (sink : Sink) (args : List Value) :
    call (sink.after earlier) args = ((call sink args).1, (call sink args).2.after earlier)

instance : CoeFun Builtin fun _ => Sink → List Value → Except RuntimeError Value × Sink :=
  ⟨Builtin.call⟩

namespace Builtin

/-- A builtin that does not touch the sink. -/
def ofPure (f : List Value → Except RuntimeError Value) : Builtin where
  call sink args := (f args, sink)
  call_after _ _ _ := rfl

/-- Write the arguments on one line, separated by spaces. -/
def print : Builtin where
  call sink args :=
    match sink.writeLine (" ".intercalate (args.map Value.display)) with
    | (.ok (), sink) => (.ok .none, sink)
    | (.error reason, sink) => (.error (.output reason), sink)
  call_after earlier sink args := by
    rw [Sink.writeLine_after]
    rcases sink.writeLine (" ".intercalate (args.map Value.display)) with ⟨_ | _, _⟩ <;> rfl

/-- The number of characters of a text. -/
def len : List Value → Except RuntimeError Value
  | [.data (.str s)] => .ok (.int (Int64.ofNat s.length))
  | [v] => .error (.noLength v.typeName)
  | args => .error (.notOneArgument "len" args.length)

/-- The text that printing shows. -/
def str : List Value → Except RuntimeError Value
  | [] => .ok (.str "")
  | [v] => .ok (.str v.display)
  | args => .error (.tooManyArguments "str" args.length)

/-- The whole part of a double. -/
def integerOfFloat (x : Double) : Except RuntimeError Value :=
  match Binary64.shape x with
  | .nan => .error .nanToInteger
  | .infinite _ => .error .floatTooLarge
  | .finite negative m q =>
      match Word.narrow? (Binary64.truncated negative m q) with
      | some n => .ok (.int n)
      | none => .error .floatTooLarge

/-- The whole number that a text spells: white space around it and underscores anywhere in
it mean nothing. -/
def integerOfText? (s : String) : Option Int64 :=
  Word.ofDecimal? ((Text.trim s.toList).filter (· != '_'))

/-- Conversion to a whole number. -/
def int : List Value → Except RuntimeError Value
  | [] => .ok (.int 0)
  | [.data (.int n)] => .ok (.int n)
  | [.data (.bool b)] => .ok (.int (if b then 1 else 0))
  | [.data (.float x)] => integerOfFloat x
  | [.data (.str s)] =>
      match integerOfText? s with
      | some n => .ok (.int n)
      | none => .error (.badInteger s)
  | [v] => .error (.notConvertible "int" v.typeName)
  | args => .error (.tooManyArguments "int" args.length)

/-- Conversion to a double. -/
def float : List Value → Except RuntimeError Value
  | [] => .ok (.data (.float 0))
  | [.data (.int n)] => .ok (.data (.float (Binary64.ofInt n.toInt)))
  | [.data (.bool b)] => .ok (.data (.float (if b then 1 else 0)))
  | [.data (.float x)] => .ok (.data (.float x))
  | [.data (.str s)] =>
      match FloatText.read? (Text.trim s.toList) with
      | some x => .ok (.data (.float x))
      | none => .error (.badFloat s)
  | [v] => .error (.notConvertible "float" v.typeName)
  | args => .error (.tooManyArguments "float" args.length)

/-- The absolute value. -/
def abs : List Value → Except RuntimeError Value
  | [.data (.int n)] =>
      match Word.abs? n with
      | some m => .ok (.int m)
      | none => .error .magnitudeTooLarge
  | [.data (.bool b)] => .ok (.int (if b then 1 else 0))
  | [.data (.float x)] => .ok (.data (.float x.abs))
  | [v] => .error (.noMagnitude v.typeName)
  | args => .error (.notOneArgument "abs" args.length)

end Builtin

/-- Builtins by name, in the order of their names. -/
structure BuiltinTable where
  /-- The names and what they stand for. -/
  entries : List (String × Builtin)
  /-- The names are in order, and none comes twice. -/
  ordered : entries.Pairwise fun a b => a.1 < b.1
  /-- What builtins do that are values without being in the table. -/
  elsewhere : String → Builtin

namespace BuiltinTable

/-- The table with one more builtin. -/
def register (table : BuiltinTable) (name : String) (b : Builtin) : BuiltinTable :=
  { table with
    entries := Named.place name b table.entries
    ordered := Named.ordered_place name b table.ordered }

/-- The builtin of a name. -/
def get? (table : BuiltinTable) (name : String) : Option Builtin :=
  table.entries.lookup name

/-- What a builtin does that is a value. -/
def function (table : BuiltinTable) (name : String) : Builtin :=
  (table.get? name).getD (table.elsewhere name)

/-- What a builtin does is said in the table, unless it is from elsewhere. -/
theorem function_cases (table : BuiltinTable) (name : String) :
    (∃ b, (name, b) ∈ table.entries ∧ table.function name = b) ∨
      table.function name = table.elsewhere name := by
  cases hget : table.get? name with
  | none => exact .inr (by rw [function, hget, Option.getD_none])
  | some b =>
    obtain ⟨before, behind, hentries, -⟩ := List.lookup_eq_some_iff.mp hget
    refine .inl ⟨b, ?_, by rw [function, hget, Option.getD_some]⟩
    rw [hentries]
    exact List.mem_append_right before List.mem_cons_self

/-- All names, in order. -/
def names (table : BuiltinTable) : List String :=
  table.entries.map Prod.fst

/-- A builtin that cannot be called. -/
def uncallable : Builtin :=
  .ofPure fun _ => .error (.notCallable (Value.builtin "").typeName)

/-- The standard builtins, and no others. -/
def standard : BuiltinTable where
  entries :=
    [("abs", .ofPure Builtin.abs), ("float", .ofPure Builtin.float), ("int", .ofPure Builtin.int),
      ("len", .ofPure Builtin.len), ("print", Builtin.print), ("str", .ofPure Builtin.str)]
  ordered := by decide
  elsewhere _ := uncallable

end BuiltinTable

end StackScript
