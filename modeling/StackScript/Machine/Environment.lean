import StackScript.Machine.Builtin

/-!
# Names of a running program

The bindings that a program makes, in the order of the names, and the lookup of a name: a
binding of the program comes before a builtin of the same name.

The order is part of what bindings are, and so is it that no name is bound twice.  So
bindings are known from the values that they give to names.
-/

namespace StackScript

/-- The bindings of a program, in the order of the names. -/
structure Globals where
  /-- The names and their values. -/
  entries : List (String × Value)
  /-- The names are in order, and none comes twice. -/
  ordered : entries.Pairwise fun a b => a.1 < b.1
  deriving DecidableEq

namespace Globals

/-- Bind a name. -/
def set (g : Globals) (name : String) (v : Value) : Globals :=
  ⟨Named.place name v g.entries, Named.ordered_place name v g.ordered⟩

/-- The value bound to a name. -/
def get? (g : Globals) (name : String) : Option Value :=
  g.entries.lookup name

/-- No bindings. -/
def empty : Globals := ⟨[], .nil⟩

/-- The bindings that every program starts with: its module name and its origin. -/
def initial (moduleName origin : String) : Globals :=
  (empty.set "__name__" (.str moduleName)).set "__file__" (.str origin)

/-- A name that was just bound has the value it was bound to. -/
@[simp] theorem get?_set_self (g : Globals) (name : String) (v : Value) :
    (g.set name v).get? name = some v :=
  Named.lookup_place_self name v g.entries

/-- Binding a name leaves the other names alone. -/
theorem get?_set_of_ne (g : Globals) {name other : String} (h : other ≠ name) (v : Value) :
    (g.set name v).get? other = g.get? other :=
  Named.lookup_place_of_ne h v g.entries

/-- The value of a name: a binding of the program, or else a builtin. -/
def lookup? (g : Globals) (table : BuiltinTable) (name : String) : Option Value :=
  match g.get? name with
  | some v => some v
  | none => (table.get? name).map fun _ => .builtin name

end Globals

end StackScript
