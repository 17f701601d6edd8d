/-!
# Positions in a script

A position is a line and a column, both counted from one.  Only a line feed starts a new
line; every other character, whatever its width on the screen, is one column.
-/

namespace StackScript

/-- A place between the characters of a script. -/
structure Position where
  /-- One more than the number of line feeds before this place. -/
  line : Nat
  /-- One more than the number of characters since the last line feed. -/
  column : Nat
  deriving DecidableEq, Repr, Inhabited

namespace Position

/-- The place before the first character. -/
def start : Position := ⟨1, 1⟩

/-- The place behind one more character. -/
def next (p : Position) (c : Char) : Position :=
  if c = '\n' then ⟨p.line + 1, 1⟩ else ⟨p.line, p.column + 1⟩

/-- The place behind the given characters. -/
def after (p : Position) (cs : List Char) : Position :=
  cs.foldl next p

@[simp] theorem after_nil (p : Position) : p.after [] = p := rfl

@[simp] theorem after_cons (p : Position) (c : Char) (cs : List Char) :
    p.after (c :: cs) = (p.next c).after cs := rfl

@[simp] theorem after_append (p : Position) (as bs : List Char) :
    p.after (as ++ bs) = (p.after as).after bs :=
  List.foldl_append

end Position

end StackScript
