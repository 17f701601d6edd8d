import StackScript.Proofs.Lowering.Canonical

/-!
# Scripts can be recovered from their code

Lowering loses nothing: from the code of a script its tree can be put together again.  The code has
no marks where statements or operands end, and a call says only how many arguments it has, so this
needs the stack: `assemble` goes along the code like the machine, but what lies on its stack are
expressions.  An operator takes its operands from there and puts back a larger expression, a store
or a pop takes one expression and completes a statement.

The code of an expression, wherever it stands, puts that expression on the stack and does nothing
else (`assemble_expr`).  This holds for every stack, which is what makes the induction go through:
the operands of an operator are assembled on top of what was there already.
-/

namespace StackScript

/-- What has been put together so far. -/
structure Assembly where
  /-- Expressions that nothing has taken yet, last one first. -/
  stack : List Expr
  /-- Statements that are complete, last one first. -/
  done : List Stmt

namespace Code

/-- Put together what one instruction says. -/
def assemble (c : Code) (a : Assembly) : Instr → Option Assembly
  | .loadConst index =>
      (c.constant? index).map fun value => ⟨.constant value :: a.stack, a.done⟩
  | .loadName index =>
      (c.name? index).map fun word => ⟨.name word :: a.stack, a.done⟩
  | .storeName index =>
      match a.stack, c.name? index with
      | value :: stack, some target => some ⟨stack, .assign target value :: a.done⟩
      | _, _ => none
  | .unary op =>
      match a.stack with
      | operand :: stack => some ⟨.unary op operand :: stack, a.done⟩
      | [] => none
  | .binary op =>
      match a.stack with
      | right :: left :: stack => some ⟨.binary op left right :: stack, a.done⟩
      | _ => none
  | .call count =>
      match a.stack.drop count.toNat with
      | callee :: stack =>
          some ⟨.call callee (a.stack.take count.toNat).reverse :: stack, a.done⟩
      | [] => none
  | .pop =>
      match a.stack with
      | value :: stack => some ⟨stack, .expr value :: a.done⟩
      | [] => none
  | .ret => none

/-- The script that some code was lowered from: everything in front of the return is put together,
and `None` is left for the return. -/
def decompile? (c : Code) : Option Script :=
  match c.instructions.dropLast.foldlM c.assemble ⟨[], []⟩ with
  | some ⟨[.constant .none], done⟩ => if c.endsWithReturn then some done.reverse else none
  | _ => none

end Code

namespace Lower

variable {filename : String} {c : Code}

/-- Code that is followed by one more instruction. -/
theorem assemble_concat {code : List Instr} {i : Instr} {a a' : Assembly}
    (h : code.foldlM c.assemble a = some a') :
    (code ++ [i]).foldlM c.assemble a = c.assemble a' i := by
  rw [List.foldlM_append, h, Option.bind_eq_bind, Option.bind_some, List.foldlM_cons]
  cases c.assemble a' i <;> rfl

/-- A call takes its arguments from the top of the stack and its callee from below them. -/
theorem assemble_call {n : UInt32} {callee : Expr} {arguments stack : List Expr}
    {done : List Stmt} (hn : n.toNat = arguments.length) :
    c.assemble ⟨arguments.reverse ++ callee :: stack, done⟩ (.call n) =
      some ⟨.call callee arguments :: stack, done⟩ := by
  have hlength : n.toNat = arguments.reverse.length := by rw [hn, List.length_reverse]
  simp only [Code.assemble, hlength, List.drop_left, List.take_left, List.reverse_reverse]

mutual

/-- **The code of an expression puts the expression on the stack.** -/
theorem assemble_expr : ∀ {e : Expr} {t t' : Tables} {code : List Instr},
    expr filename t e = .ok (code, t') → Grows t' c.tables → ∀ a : Assembly,
      code.foldlM c.assemble a = some ⟨e :: a.stack, a.done⟩
  | .constant value, _, _, _, h, hg, a => by
      obtain ⟨i, hentry, rfl⟩ := expr_constant_iff.mp h
      have hvalue : c.constant? i = some value := hg.constant hentry
      simp [Code.assemble, hvalue]
  | .name word, _, _, _, h, hg, a => by
      obtain ⟨i, hentry, rfl⟩ := expr_name_iff.mp h
      have hword : c.name? i = some word := hg.name hentry
      simp [Code.assemble, hword]
  | .unary op e, _, _, _, h, hg, a => by
      obtain ⟨code₁, h₁, rfl⟩ := expr_unary_iff.mp h
      rw [assemble_concat (assemble_expr h₁ hg a)]
      rfl
  | .binary op e₁ e₂, _, _, _, h, hg, a => by
      obtain ⟨code₁, t₁, code₂, h₁, h₂, rfl⟩ := expr_binary_iff.mp h
      have hoperands : (code₁ ++ code₂).foldlM c.assemble a =
          some ⟨e₂ :: e₁ :: a.stack, a.done⟩ := by
        rw [List.foldlM_append, assemble_expr h₁ ((grows_of_expr h₂).trans hg)]
        exact assemble_expr h₂ hg _
      rw [assemble_concat hoperands]
      rfl
  | .call e es, _, _, _, h, hg, a => by
      obtain ⟨code₁, t₁, code₂, n, h₁, h₂, hn, rfl⟩ := expr_call_iff.mp h
      have hoperands : (code₁ ++ code₂).foldlM c.assemble a =
          some ⟨es.reverse ++ e :: a.stack, a.done⟩ := by
        rw [List.foldlM_append, assemble_expr h₁ ((grows_of_exprs h₂).trans hg)]
        exact assemble_exprs h₂ hg _
      rw [assemble_concat hoperands]
      exact assemble_call (toNat_of_operand? hn)

/-- The code of a list of expressions puts them on the stack, the last one on top. -/
theorem assemble_exprs : ∀ {es : List Expr} {t t' : Tables} {code : List Instr},
    exprs filename t es = .ok (code, t') → Grows t' c.tables → ∀ a : Assembly,
      code.foldlM c.assemble a = some ⟨es.reverse ++ a.stack, a.done⟩
  | [], _, _, _, h, _, a => by
      obtain ⟨rfl, -⟩ := exprs_nil_iff.mp h
      rfl
  | e :: es, _, _, _, h, hg, a => by
      obtain ⟨code₁, t₁, code₂, h₁, h₂, rfl⟩ := exprs_cons_iff.mp h
      rw [List.foldlM_append, assemble_expr h₁ ((grows_of_exprs h₂).trans hg),
        List.reverse_cons, List.append_assoc]
      exact assemble_exprs h₂ hg _

end

variable {t t' : Tables} {code : List Instr}

/-- The code of a statement completes the statement. -/
theorem assemble_stmt {u : Stmt} (h : stmt filename t u = .ok (code, t'))
    (hg : Grows t' c.tables) (a : Assembly) :
    code.foldlM c.assemble a = some ⟨a.stack, u :: a.done⟩ := by
  cases u with
  | assign target value =>
    obtain ⟨code₁, t₁, i, h₁, h₂, rfl⟩ := stmt_assign_iff.mp h
    have htarget : c.name? i = some target := hg.name h₂
    rw [assemble_concat (assemble_expr h₁ ((grows_of_name h₂).trans hg) a)]
    simp only [Code.assemble, htarget]
  | expr value =>
    obtain ⟨code₁, h₁, rfl⟩ := stmt_expr_iff.mp h
    rw [assemble_concat (assemble_expr h₁ hg a)]
    rfl

theorem assemble_stmts {us : List Stmt} (h : stmts filename t us = .ok (code, t'))
    (hg : Grows t' c.tables) (a : Assembly) :
    code.foldlM c.assemble a = some ⟨a.stack, us.reverse ++ a.done⟩ := by
  induction us generalizing t code a with
  | nil =>
    obtain ⟨rfl, rfl⟩ := stmts_nil_iff.mp h
    rfl
  | cons u us ih =>
    obtain ⟨code₁, t₁, code₂, h₁, h₂, rfl⟩ := stmts_cons_iff.mp h
    rw [List.foldlM_append, assemble_stmt h₁ ((grows_of_stmts h₂).trans hg),
      List.reverse_cons, List.append_assoc]
    exact ih h₂ _

end Lower

/-- Every script is recovered from its code. -/
theorem Script.decompile?_of_lower {filename : String} {s : Script} {c : Code}
    (h : s.lower filename = .ok c) : c.decompile? = some s := by
  obtain ⟨code, t, i, hcode, hnone, -, hc⟩ := Lower.lower_iff.mp h
  have hinstr : c.instructions = (code ++ [.loadConst i]) ++ [.ret] := by
    rw [hc, List.append_assoc]
    rfl
  have hvalue : c.constant? i = some .none := (Lower.Grows.refl c.tables).constant hnone
  have hassemble : (code ++ [Instr.loadConst i]).foldlM c.assemble ⟨[], []⟩ =
      some ⟨[.constant .none], s.reverse⟩ := by
    rw [Lower.assemble_concat (Lower.assemble_stmts hcode (Lower.grows_of_constant hnone) ⟨[], []⟩)]
    simp [Code.assemble, hvalue]
  have hret : c.endsWithReturn = true := by simp [Code.endsWithReturn, hinstr]
  rw [Code.decompile?, hinstr, List.dropLast_concat, hassemble]
  simp [hret]

/-- Two code objects agree, doubles in their bits. -/
structure Code.SameBits (c d : Code) : Prop where
  /-- They have one name. -/
  filename : c.filename = d.filename
  /-- Their constants agree one by one. -/
  constants : List.Forall₂ (fun a b => a.sameEntry b = true) c.constants d.constants
  /-- They have the same names. -/
  names : c.names = d.names
  /-- They have the same instructions. -/
  instructions : c.instructions = d.instructions

theorem Code.SameBits.eq {c d : Code} (h : c.SameBits d) : c = d := by
  have hconstants : c.constants = d.constants := by
    rw [← List.forall₂_eq_eq_eq]
    exact h.constants.imp fun _ _ => Constant.sameEntry_iff.mp
  obtain ⟨_, _, _, _⟩ := c
  obtain ⟨_, _, _, _⟩ := d
  cases h.filename
  cases hconstants
  cases h.names
  cases h.instructions
  rfl

/-- **Lowering loses nothing.**  There is a decompiler that recovers every script from its code; so
two scripts whose code agrees, doubles in their bits, are the same script. -/
theorem lower_loses_nothing :
    (∀ (filename : String) (s : Script) (c : Code), s.lower filename = .ok c →
      c.decompile? = some s) ∧
    ∀ (filename : String) (s s' : Script) (c c' : Code), s.lower filename = .ok c →
      s'.lower filename = .ok c' → c.SameBits c' → s = s' := by
  refine ⟨fun filename s c h => Script.decompile?_of_lower h, ?_⟩
  intro filename s s' c c' h h' hsame
  have hs := Script.decompile?_of_lower h
  have hs' := Script.decompile?_of_lower h'
  rw [hsame.eq, hs'] at hs
  exact (Option.some.inj hs).symm

/-- The statements `f(1, g(1))(n, -n)` and `f = (f)`, where `n` is no number. -/
def Script.nestedCalls : Script :=
  [.expr (.call (.call (.name "f") [.constant (.int 1), .call (.name "g") [.constant (.int 1)]])
      [.constant (.float .indefinite), .constant (.float (-.indefinite))]),
    .assign "f" (.name "f")]

theorem lower_loses_nothing_nestedCalls :
    ∃ c, Script.nestedCalls.lower "t" = .ok c ∧ c.decompile? = some Script.nestedCalls ∧
      ∀ s, s.lower "t" = .ok c → s = Script.nestedCalls := by
  have h : ∃ c, Script.nestedCalls.lower "t" = .ok c := ⟨_, rfl⟩
  obtain ⟨c, hc⟩ := h
  obtain ⟨hrecovers, hinjective⟩ := lower_loses_nothing
  have hself : c.SameBits c :=
    ⟨rfl, List.forall₂_same.mpr fun _ _ => Constant.sameEntry_iff.mpr rfl, rfl, rfl⟩
  exact ⟨c, hc, hrecovers "t" _ c hc, fun s hs => hinjective "t" s _ c c hs hc hself⟩

end StackScript
