import StackScript.Code.Lower

/-!
# What lowering emits, and how its tables grow

Lowering threads two tables through the tree.  Everything later modules say about lowered
code rests on two facts about them, and this file is where both are proved.

## 1.  What a successful lowering did

Lowering fails only for want of room in an operand.  When it succeeds, the code of a node
is the code of its parts in order with one instruction behind it, and the tables are those
that the last part left.  For each kind of node this is one equivalence (`expr_unary_iff`
and its like), so that no later proof has to open the definitions.

## 2.  An operand stays right

An entry goes to the end of its table or is found where it already is; nothing is ever
moved or removed.  So the tables before are beginnings of the tables after (`Grows`), and
an operand that pointed to an entry when it was handed out points to the same entry in the
finished code (`Grows.constant`, `Grows.name`).
-/

namespace StackScript

/-- The tables of a code object. -/
def Code.tables (c : Code) : Tables := ⟨c.constants, c.names⟩

namespace Lower

/-! ## Operands and entries -/

theorem bind_eq_ok_iff {ε α β : Type} {x : Except ε α} {f : α → Except ε β} {b : β} :
    (x >>= f) = .ok b ↔ ∃ a, x = .ok a ∧ f a = .ok b := by
  cases x with
  | error e => simp [bind, Except.bind]
  | ok a => simp [bind, Except.bind]

/-- An operand is the number it was made from. -/
theorem toNat_of_operand? {n : Nat} {i : UInt32} (h : operand? n = some i) : i.toNat = n := by
  unfold operand? at h
  split at h
  · next hn =>
    cases h
    rw [operandLimit] at hn
    rw [UInt32.toNat_ofNat']
    exact Nat.mod_eq_of_lt (by omega)
  · cases h

/-- What stands in the beginning of a table stands in the table. -/
theorem getElem?_of_prefix {α : Type} {l₁ l₂ : List α} (h : l₁ <+: l₂) {i : Nat} {a : α}
    (hi : l₁[i]? = some a) : l₂[i]? = some a := by
  obtain ⟨rest, rfl⟩ := h
  obtain ⟨hlt, -⟩ := List.getElem?_eq_some_iff.mp hi
  rw [List.getElem?_append_left hlt, hi]

section Intern

variable {α : Type} [DecidableEq α] (table : List α) (a : α)

/-- Entering something keeps what is there. -/
theorem prefix_intern : table <+: (intern table a).2 := by
  unfold intern
  split
  · exact List.prefix_refl table
  · exact List.prefix_append table [a]

/-- What was entered is found at its place. -/
theorem getElem?_intern : (intern table a).2[(intern table a).1]? = some a := by
  unfold intern
  split
  · next i hi =>
    obtain ⟨hlt, hget, -⟩ := List.idxOf?_eq_some_iff.mp hi
    rw [List.getElem?_eq_getElem hlt, hget]
  · rw [List.getElem?_append_right (Nat.le_refl _), Nat.sub_self]
    rfl

end Intern

/-! ## Inversion -/

variable {filename : String} {t t' : Tables} {code : List Instr}

theorem constant_iff {c : Constant} {i : UInt32} :
    constant filename c t = .ok (i, t') ↔
      operand? (intern t.constants c).1 = some i ∧
        t' = { t with constants := (intern t.constants c).2 } := by
  simp only [constant]
  cases operand? (intern t.constants c).1 with
  | none => simp
  | some n => simp [eq_comm]

theorem name_iff {word : String} {i : UInt32} :
    name filename word t = .ok (i, t') ↔
      operand? (intern t.names word).1 = some i ∧
        t' = { t with names := (intern t.names word).2 } := by
  simp only [name]
  cases operand? (intern t.names word).1 with
  | none => simp
  | some n => simp [eq_comm]

theorem expr_constant_iff {c : Constant} :
    expr filename t (.constant c) = .ok (code, t') ↔
      ∃ i, constant filename c t = .ok (i, t') ∧ code = [.loadConst i] := by
  simp only [expr, bind_eq_ok_iff, Prod.exists, Except.ok.injEq, Prod.mk.injEq]
  constructor
  · rintro ⟨i, t₁, h, rfl, rfl⟩
    exact ⟨i, h, rfl⟩
  · rintro ⟨i, h, rfl⟩
    exact ⟨i, t', h, rfl, rfl⟩

theorem expr_name_iff {word : String} :
    expr filename t (.name word) = .ok (code, t') ↔
      ∃ i, name filename word t = .ok (i, t') ∧ code = [.loadName i] := by
  simp only [expr, bind_eq_ok_iff, Prod.exists, Except.ok.injEq, Prod.mk.injEq]
  constructor
  · rintro ⟨i, t₁, h, rfl, rfl⟩
    exact ⟨i, h, rfl⟩
  · rintro ⟨i, h, rfl⟩
    exact ⟨i, t', h, rfl, rfl⟩

theorem expr_unary_iff {op : UnaryOp} {e : Expr} :
    expr filename t (.unary op e) = .ok (code, t') ↔
      ∃ code₁, expr filename t e = .ok (code₁, t') ∧ code = code₁ ++ [.unary op] := by
  simp only [expr, bind_eq_ok_iff, Prod.exists, Except.ok.injEq, Prod.mk.injEq]
  constructor
  · rintro ⟨code₁, t₁, h, rfl, rfl⟩
    exact ⟨code₁, h, rfl⟩
  · rintro ⟨code₁, h, rfl⟩
    exact ⟨code₁, t', h, rfl, rfl⟩

theorem expr_binary_iff {op : BinaryOp} {e₁ e₂ : Expr} :
    expr filename t (.binary op e₁ e₂) = .ok (code, t') ↔
      ∃ code₁ t₁ code₂, expr filename t e₁ = .ok (code₁, t₁) ∧
        expr filename t₁ e₂ = .ok (code₂, t') ∧ code = code₁ ++ code₂ ++ [.binary op] := by
  simp only [expr, bind_eq_ok_iff, Prod.exists, Except.ok.injEq, Prod.mk.injEq]
  constructor
  · rintro ⟨code₁, t₁, h₁, code₂, t₂, h₂, rfl, rfl⟩
    exact ⟨code₁, t₁, code₂, h₁, h₂, rfl⟩
  · rintro ⟨code₁, t₁, code₂, h₁, h₂, rfl⟩
    exact ⟨code₁, t₁, h₁, code₂, t', h₂, rfl, rfl⟩

theorem expr_call_iff {e : Expr} {es : List Expr} :
    expr filename t (.call e es) = .ok (code, t') ↔
      ∃ code₁ t₁ code₂ n, expr filename t e = .ok (code₁, t₁) ∧
        exprs filename t₁ es = .ok (code₂, t') ∧ operand? es.length = some n ∧
          code = code₁ ++ code₂ ++ [.call n] := by
  simp only [expr, bind_eq_ok_iff, Prod.exists]
  constructor
  · rintro ⟨code₁, t₁, h₁, code₂, t₂, h₂, h⟩
    cases hn : operand? es.length with
    | none => simp [hn] at h
    | some n =>
      simp only [hn, Except.ok.injEq, Prod.mk.injEq] at h
      obtain ⟨rfl, rfl⟩ := h
      exact ⟨code₁, t₁, code₂, n, h₁, h₂, rfl, rfl⟩
  · rintro ⟨code₁, t₁, code₂, n, h₁, h₂, hn, rfl⟩
    exact ⟨code₁, t₁, h₁, code₂, t', h₂, by rw [hn]⟩

theorem exprs_nil_iff : exprs filename t [] = .ok (code, t') ↔ code = [] ∧ t' = t := by
  simp [exprs, eq_comm]

theorem exprs_cons_iff {e : Expr} {es : List Expr} :
    exprs filename t (e :: es) = .ok (code, t') ↔
      ∃ code₁ t₁ code₂, expr filename t e = .ok (code₁, t₁) ∧
        exprs filename t₁ es = .ok (code₂, t') ∧ code = code₁ ++ code₂ := by
  simp only [exprs, bind_eq_ok_iff, Prod.exists, Except.ok.injEq, Prod.mk.injEq]
  constructor
  · rintro ⟨code₁, t₁, h₁, code₂, t₂, h₂, rfl, rfl⟩
    exact ⟨code₁, t₁, code₂, h₁, h₂, rfl⟩
  · rintro ⟨code₁, t₁, code₂, h₁, h₂, rfl⟩
    exact ⟨code₁, t₁, h₁, code₂, t', h₂, rfl, rfl⟩

theorem stmt_assign_iff {target : String} {value : Expr} :
    stmt filename t (.assign target value) = .ok (code, t') ↔
      ∃ code₁ t₁ i, expr filename t value = .ok (code₁, t₁) ∧
        name filename target t₁ = .ok (i, t') ∧ code = code₁ ++ [.storeName i] := by
  simp only [stmt, bind_eq_ok_iff, Prod.exists, Except.ok.injEq, Prod.mk.injEq]
  constructor
  · rintro ⟨code₁, t₁, h₁, i, t₂, h₂, rfl, rfl⟩
    exact ⟨code₁, t₁, i, h₁, h₂, rfl⟩
  · rintro ⟨code₁, t₁, i, h₁, h₂, rfl⟩
    exact ⟨code₁, t₁, h₁, i, t', h₂, rfl, rfl⟩

theorem stmt_expr_iff {value : Expr} :
    stmt filename t (.expr value) = .ok (code, t') ↔
      ∃ code₁, expr filename t value = .ok (code₁, t') ∧ code = code₁ ++ [.pop] := by
  simp only [stmt, bind_eq_ok_iff, Prod.exists, Except.ok.injEq, Prod.mk.injEq]
  constructor
  · rintro ⟨code₁, t₁, h, rfl, rfl⟩
    exact ⟨code₁, h, rfl⟩
  · rintro ⟨code₁, h, rfl⟩
    exact ⟨code₁, t', h, rfl, rfl⟩

theorem stmts_nil_iff : stmts filename t [] = .ok (code, t') ↔ code = [] ∧ t' = t := by
  simp [stmts, eq_comm]

theorem stmts_cons_iff {u : Stmt} {us : List Stmt} :
    stmts filename t (u :: us) = .ok (code, t') ↔
      ∃ code₁ t₁ code₂, stmt filename t u = .ok (code₁, t₁) ∧
        stmts filename t₁ us = .ok (code₂, t') ∧ code = code₁ ++ code₂ := by
  simp only [stmts, bind_eq_ok_iff, Prod.exists, Except.ok.injEq, Prod.mk.injEq]
  constructor
  · rintro ⟨code₁, t₁, h₁, code₂, t₂, h₂, rfl, rfl⟩
    exact ⟨code₁, t₁, code₂, h₁, h₂, rfl⟩
  · rintro ⟨code₁, t₁, code₂, h₁, h₂, rfl⟩
    exact ⟨code₁, t₁, h₁, code₂, t', h₂, rfl, rfl⟩

/-- **The code of a script** is the code of its statements, a load of `None` and a return, with
the tables as they are at the end. -/
theorem lower_iff {s : Script} {c : Code} :
    s.lower filename = .ok c ↔
      ∃ code t i, stmts filename ⟨[], []⟩ s = .ok (code, t) ∧
        constant filename .none t = .ok (i, c.tables) ∧
          c.filename = filename ∧ c.instructions = code ++ [.loadConst i, .ret] := by
  simp only [Script.lower, bind_eq_ok_iff, Prod.exists, Except.ok.injEq]
  constructor
  · rintro ⟨code, t, h₁, i, t', h₂, rfl⟩
    exact ⟨code, t, i, h₁, h₂, rfl, rfl⟩
  · rintro ⟨code, t, i, h₁, h₂, hfile, hcode⟩
    obtain ⟨_, _, _, _⟩ := c
    cases hfile
    cases hcode
    exact ⟨code, t, h₁, i, _, h₂, rfl⟩

/-! ## Tables grow at their ends -/

/-- The entries of one pair of tables are the first entries of another. -/
structure Grows (t t' : Tables) : Prop where
  /-- The constants stay where they are. -/
  constants : t.constants <+: t'.constants
  /-- The names stay where they are. -/
  names : t.names <+: t'.names

namespace Grows

theorem refl (t : Tables) : Grows t t :=
  ⟨List.prefix_refl _, List.prefix_refl _⟩

theorem trans {t₁ t₂ t₃ : Tables} (h : Grows t₁ t₂) (h' : Grows t₂ t₃) : Grows t₁ t₃ :=
  ⟨h.constants.trans h'.constants, h.names.trans h'.names⟩

/-- An operand for a constant points to it in all later tables. -/
theorem constant {c : Constant} {i : UInt32} {t₁ t₂ : Tables}
    (h : Lower.constant filename c t = .ok (i, t₁)) (hg : Grows t₁ t₂) :
    t₂.constants[i.toNat]? = some c := by
  obtain ⟨hi, rfl⟩ := constant_iff.mp h
  rw [toNat_of_operand? hi]
  exact getElem?_of_prefix hg.constants (getElem?_intern t.constants c)

/-- An operand for a name points to it in all later tables. -/
theorem name {word : String} {i : UInt32} {t₁ t₂ : Tables}
    (h : Lower.name filename word t = .ok (i, t₁)) (hg : Grows t₁ t₂) :
    t₂.names[i.toNat]? = some word := by
  obtain ⟨hi, rfl⟩ := name_iff.mp h
  rw [toNat_of_operand? hi]
  exact getElem?_of_prefix hg.names (getElem?_intern t.names word)

end Grows

theorem grows_of_constant {c : Constant} {i : UInt32}
    (h : constant filename c t = .ok (i, t')) : Grows t t' := by
  obtain ⟨-, rfl⟩ := constant_iff.mp h
  exact ⟨prefix_intern _ _, List.prefix_refl _⟩

theorem grows_of_name {word : String} {i : UInt32}
    (h : name filename word t = .ok (i, t')) : Grows t t' := by
  obtain ⟨-, rfl⟩ := name_iff.mp h
  exact ⟨List.prefix_refl _, prefix_intern _ _⟩

mutual

theorem grows_of_expr : ∀ {e : Expr} {t t' : Tables} {code : List Instr},
    expr filename t e = .ok (code, t') → Grows t t'
  | .constant _, _, _, _, h => by
      obtain ⟨i, h, -⟩ := expr_constant_iff.mp h
      exact grows_of_constant h
  | .name _, _, _, _, h => by
      obtain ⟨i, h, -⟩ := expr_name_iff.mp h
      exact grows_of_name h
  | .unary _ e, _, _, _, h => by
      obtain ⟨code₁, h, -⟩ := expr_unary_iff.mp h
      exact grows_of_expr h
  | .binary _ e₁ e₂, _, _, _, h => by
      obtain ⟨code₁, t₁, code₂, h₁, h₂, -⟩ := expr_binary_iff.mp h
      exact (grows_of_expr h₁).trans (grows_of_expr h₂)
  | .call e es, _, _, _, h => by
      obtain ⟨code₁, t₁, code₂, n, h₁, h₂, -⟩ := expr_call_iff.mp h
      exact (grows_of_expr h₁).trans (grows_of_exprs h₂)

theorem grows_of_exprs : ∀ {es : List Expr} {t t' : Tables} {code : List Instr},
    exprs filename t es = .ok (code, t') → Grows t t'
  | [], _, _, _, h => by
      obtain ⟨-, rfl⟩ := exprs_nil_iff.mp h
      exact .refl _
  | e :: es, _, _, _, h => by
      obtain ⟨code₁, t₁, code₂, h₁, h₂, -⟩ := exprs_cons_iff.mp h
      exact (grows_of_expr h₁).trans (grows_of_exprs h₂)

end

theorem grows_of_stmt {u : Stmt} (h : stmt filename t u = .ok (code, t')) : Grows t t' := by
  cases u with
  | assign target value =>
    obtain ⟨code₁, t₁, i, h₁, h₂, -⟩ := stmt_assign_iff.mp h
    exact (grows_of_expr h₁).trans (grows_of_name h₂)
  | expr value =>
    obtain ⟨code₁, h₁, -⟩ := stmt_expr_iff.mp h
    exact grows_of_expr h₁

theorem grows_of_stmts {us : List Stmt} (h : stmts filename t us = .ok (code, t')) :
    Grows t t' := by
  induction us generalizing t code with
  | nil =>
    obtain ⟨-, rfl⟩ := stmts_nil_iff.mp h
    exact .refl _
  | cons u us ih =>
    obtain ⟨code₁, t₁, code₂, h₁, h₂, -⟩ := stmts_cons_iff.mp h
    exact (grows_of_stmt h₁).trans (ih h₂)

end Lower

end StackScript
