import StackScript.Proofs.Evaluation
import StackScript.Proofs.Lowering.Tables

/-!
# Lowered code does what the script says

Running the code of a script and evaluating its tree give the same result, the same output
and the same bindings, whatever bindings, builtins and sink they start with.

## The shape of the argument

The machine works on a state and an evaluation on a scope, so they are compared through the
scope that a state stands for: the rest of a run --- some instructions, some stack --- does
what some computation does (`Machine.Does`).  Each instruction has a lemma that puts it in
front of a rest (`does_unary` and its like), and for an expression this becomes

    if   is (v :: stack)        does  f v               for every value v
    then (code of e ++ is) stack  does  eval e >>= f

for *all* following instructions, *all* stacks and *all* continuations.  Each of the three
is needed: the code of an operand is followed by the rest of the expression, which is what
the continuation computes, and it runs on a stack that already holds its neighbours.  An
error of `eval e` ends the computation at once, and so this also says that the machine
stops there, with the state as it is.

The operands in the code of `e` were handed out while the tables were still growing.  They
are read in the finished tables, of which those were beginnings (`Lower.Grows`).

## Literals

`Code.loads` lists what the load instructions of some code load, in order.  For the code of
a script these are its literals in order and then `None` (`loads_lower`), so sharing table
entries never confuses two literals: constants are equal only if they are of one kind and
have the same bits.
-/

namespace StackScript

open Evaluation

namespace Machine

/-- The rest of a run does what a computation does: from every state it leads to the same
result, and to the same scope. -/
def Does (table : BuiltinTable) (c : Code) (is : List Instr) (stack : List Value)
    (x : Evaluation Value) : Prop :=
  ∀ state, ((run table c is stack state).1, (run table c is stack state).2.scope) =
    x.start state.scope

/-! ## One instruction -/

section Instructions

variable {table : BuiltinTable} {c : Code} {is : List Instr} {stack : List Value}
  {x : Evaluation Value} {f : Value → Evaluation Value}

theorem does_loadConst {i : UInt32} {k : Constant} (h : c.constant? i = some k)
    (hrest : Does table c is (.data k :: stack) x) :
    Does table c (.loadConst i :: is) stack x := by
  intro state
  simp only [run, step, h]
  exact hrest state

theorem does_loadName {i : UInt32} {word : String} (h : c.name? i = some word)
    (hrest : ∀ v, Does table c is (v :: stack) (f v)) :
    Does table c (.loadName i :: is) stack (lookup table word >>= f) := by
  intro state
  rw [start_bind, start_lookup_scope]
  simp only [run, step, h]
  cases state.globals.lookup? table word with
  | none => rfl
  | some v => exact hrest v state

theorem does_storeName {i : UInt32} {word : String} {v : Value} (h : c.name? i = some word)
    (hrest : Does table c is stack x) :
    Does table c (.storeName i :: is) (v :: stack) (assign word v >>= fun _ => x) := by
  intro state
  rw [start_bind, start_assign, ← State.scope_set]
  simp only [run, step, h]
  exact hrest _

theorem does_unary {op : UnaryOp} {v : Value} (hrest : ∀ w, Does table c is (w :: stack) (f w)) :
    Does table c (.unary op :: is) (v :: stack) (Evaluation.unary op v >>= f) := by
  intro state
  rw [unary_eq, start_bind, start_ofExcept]
  simp only [run, step]
  cases unary op v with
  | error e => rfl
  | ok w => exact hrest w state

theorem does_binary {op : BinaryOp} {a b : Value}
    (hrest : ∀ w, Does table c is (w :: stack) (f w)) :
    Does table c (.binary op :: is) (b :: a :: stack) (Evaluation.binary op a b >>= f) := by
  intro state
  rw [binary_eq, start_bind, start_ofExcept]
  simp only [run, step]
  cases binary op a b with
  | error e => rfl
  | ok w => exact hrest w state

/-- A call finds its callee below its arguments, which lie on the stack last one first. -/
theorem does_call {n : UInt32} {callee : Value} {args : List Value} (hn : n.toNat = args.length)
    (hrest : ∀ w, Does table c is (w :: stack) (f w)) :
    Does table c (.call n :: is) (args.reverse ++ callee :: stack)
      (Evaluation.call table callee args >>= f) := by
  have hdrop : (args.reverse ++ callee :: stack).drop n.toNat = callee :: stack := by
    rw [hn, ← List.length_reverse, List.drop_left]
  have htake : (args.reverse ++ callee :: stack).take n.toNat = args.reverse := by
    rw [hn, ← List.length_reverse, List.take_left]
  intro state
  have hsink : state.scope.sink = state.sink := rfl
  rw [start_bind, start_call, hsink]
  simp only [run, step, hdrop, htake, List.reverse_reverse]
  rcases apply table callee args state.sink with ⟨e | w, sink⟩
  · rfl
  · exact hrest w { state with sink }

theorem does_pop {v : Value} (hrest : Does table c is stack x) :
    Does table c (.pop :: is) (v :: stack) x := hrest

theorem does_ret {v : Value} : Does table c (.ret :: is) (v :: stack) (pure v) := fun _ => rfl

end Instructions

/-! ## The simulation -/

section Simulation

variable (table : BuiltinTable) {filename : String} {c : Code} {is : List Instr}

mutual

/-- **The code of an expression pushes its value**, or stops with its error. -/
theorem does_expr : ∀ {e : Expr} {t t' : Tables} {code : List Instr},
    Lower.expr filename t e = .ok (code, t') → Lower.Grows t' c.tables →
      ∀ {is : List Instr} {stack : List Value} {f : Value → Evaluation Value},
        (∀ v, Does table c is (v :: stack) (f v)) →
          Does table c (code ++ is) stack (e.eval table >>= f)
  | .constant k, t, t', code, h, hg, is, stack, f, hf => by
      obtain ⟨i, hk, rfl⟩ := Lower.expr_constant_iff.mp h
      rw [Expr.eval, pure_bind]
      exact does_loadConst (hg.constant hk) (hf _)
  | .name word, t, t', code, h, hg, is, stack, f, hf => by
      obtain ⟨i, hw, rfl⟩ := Lower.expr_name_iff.mp h
      rw [Expr.eval]
      exact does_loadName (hg.name hw) hf
  | .unary op e, t, t', code, h, hg, is, stack, f, hf => by
      obtain ⟨code₁, h₁, rfl⟩ := Lower.expr_unary_iff.mp h
      rw [List.append_assoc, Expr.eval, bind_assoc]
      exact does_expr h₁ hg fun v => does_unary hf
  | .binary op e₁ e₂, t, t', code, h, hg, is, stack, f, hf => by
      obtain ⟨code₁, t₁, code₂, h₁, h₂, rfl⟩ := Lower.expr_binary_iff.mp h
      have hg₁ : Lower.Grows t₁ c.tables := (Lower.grows_of_expr h₂).trans hg
      rw [List.append_assoc, List.append_assoc, Expr.eval, bind_assoc]
      refine does_expr h₁ hg₁ fun a => ?_
      rw [bind_assoc]
      exact does_expr h₂ hg fun b => does_binary hf
  | .call e es, t, t', code, h, hg, is, stack, f, hf => by
      obtain ⟨code₁, t₁, code₂, n, h₁, h₂, hn, rfl⟩ := Lower.expr_call_iff.mp h
      have hg₁ : Lower.Grows t₁ c.tables := (Lower.grows_of_exprs h₂).trans hg
      rw [List.append_assoc, List.append_assoc, Expr.eval, bind_assoc]
      refine does_expr h₁ hg₁ fun callee => ?_
      rw [bind_assoc]
      -- the operand of the call counts the arguments of the node, not the values at hand
      refine does_exprs h₂ hg fun args hargs => ?_
      exact does_call (by rw [Lower.toNat_of_operand? hn, hargs]) hf

/-- The code of a list of expressions pushes a value for each, the last one on top. -/
theorem does_exprs : ∀ {es : List Expr} {t t' : Tables} {code : List Instr},
    Lower.exprs filename t es = .ok (code, t') → Lower.Grows t' c.tables →
      ∀ {is : List Instr} {stack : List Value} {f : List Value → Evaluation Value},
        (∀ vs, vs.length = es.length → Does table c is (vs.reverse ++ stack) (f vs)) →
          Does table c (code ++ is) stack (Expr.evalAll table es >>= f)
  | [], t, t', code, h, hg, is, stack, f, hf => by
      obtain ⟨rfl, rfl⟩ := Lower.exprs_nil_iff.mp h
      rw [Expr.evalAll, pure_bind]
      exact hf [] rfl
  | e :: es, t, t', code, h, hg, is, stack, f, hf => by
      obtain ⟨code₁, t₁, code₂, h₁, h₂, rfl⟩ := Lower.exprs_cons_iff.mp h
      have hg₁ : Lower.Grows t₁ c.tables := (Lower.grows_of_exprs h₂).trans hg
      rw [List.append_assoc, Expr.evalAll, bind_assoc]
      refine does_expr h₁ hg₁ fun v => ?_
      rw [bind_assoc]
      refine does_exprs h₂ hg fun vs hvs => ?_
      have hlast := hf (v :: vs) (congrArg Nat.succ hvs)
      rw [List.reverse_cons, List.append_assoc] at hlast
      rw [pure_bind]
      exact hlast

end

variable {t t' : Tables} {code : List Instr} {stack : List Value} {x : Evaluation Value}

/-- The code of a statement has its effect and leaves the stack as it was. -/
theorem does_stmt {u : Stmt} (h : Lower.stmt filename t u = .ok (code, t'))
    (hg : Lower.Grows t' c.tables) (hrest : Does table c is stack x) :
    Does table c (code ++ is) stack (u.eval table >>= fun _ => x) := by
  cases u with
  | assign target value =>
    obtain ⟨code₁, t₁, i, h₁, h₂, rfl⟩ := Lower.stmt_assign_iff.mp h
    have hg₁ : Lower.Grows t₁ c.tables := (Lower.grows_of_name h₂).trans hg
    rw [List.append_assoc, Stmt.eval, bind_assoc]
    exact does_expr table h₁ hg₁ fun v => does_storeName (hg.name h₂) hrest
  | expr value =>
    obtain ⟨code₁, h₁, rfl⟩ := Lower.stmt_expr_iff.mp h
    rw [List.append_assoc, Stmt.eval, bind_assoc]
    refine does_expr table h₁ hg fun v => ?_
    rw [pure_bind]
    exact does_pop hrest

/-- The code of statements has their effects, one after the other. -/
theorem does_stmts {us : List Stmt} (h : Lower.stmts filename t us = .ok (code, t'))
    (hg : Lower.Grows t' c.tables) (hrest : Does table c is stack x) :
    Does table c (code ++ is) stack (Script.eval table us >>= fun _ => x) := by
  induction us generalizing t code with
  | nil =>
    obtain ⟨rfl, rfl⟩ := Lower.stmts_nil_iff.mp h
    rw [Script.eval, pure_bind]
    exact hrest
  | cons u us ih =>
    obtain ⟨code₁, t₁, code₂, h₁, h₂, rfl⟩ := Lower.stmts_cons_iff.mp h
    have hg₁ : Lower.Grows t₁ c.tables := (Lower.grows_of_stmts h₂).trans hg
    rw [List.append_assoc, Script.eval, bind_assoc]
    exact does_stmt table h₁ hg₁ (ih h₂)

/-- The code of a script has the effects of its statements and returns `None`. -/
theorem does_lower {s : Script} (h : s.lower filename = .ok c) :
    Does table c c.instructions [] (Script.eval table s >>= fun _ => pure Value.none) := by
  obtain ⟨code, t, i, hcode, hnone, -, hc⟩ := Lower.lower_iff.mp h
  rw [hc]
  refine does_stmts table hcode (Lower.grows_of_constant hnone) ?_
  exact does_loadConst ((Lower.Grows.refl c.tables).constant hnone) does_ret

end Simulation

/-- Executing the code of a script is evaluating the script. -/
theorem execute_eq_perform (table : BuiltinTable) {filename : String} {s : Script} {c : Code}
    (h : s.lower filename = .ok c) (state : State) :
    ((execute table c state).1, (execute table c state).2.scope) =
      s.perform table state.scope := by
  have hdoes := does_lower table h state
  rcases hrun : run table c c.instructions [] state with ⟨result, final⟩
  rw [hrun, start_bind] at hdoes
  simp only [execute, hrun, State.scope_flushed, Script.perform]
  rcases hstart : (Script.eval table s).start state.scope with ⟨e | _, scope⟩ <;>
    rw [hstart] at hdoes <;> cases hdoes <;> rfl

end Machine

/-! ## Literals and loads -/

mutual

/-- The literals of an expression, from left to right. -/
def Expr.literals : Expr → List Constant
  | .constant k => [k]
  | .name _ => []
  | .unary _ operand => operand.literals
  | .binary _ left right => left.literals ++ right.literals
  | .call callee arguments => callee.literals ++ Expr.literalsAll arguments

/-- The literals of a list of expressions, from left to right. -/
def Expr.literalsAll : List Expr → List Constant
  | [] => []
  | e :: es => e.literals ++ Expr.literalsAll es

end

/-- The literals of a statement. -/
def Stmt.literals : Stmt → List Constant
  | .assign _ value => value.literals
  | .expr value => value.literals

/-- The literals of a script, from left to right. -/
def Script.literals (s : Script) : List Constant :=
  s.flatMap Stmt.literals

/-- What an instruction loads from the constant table, if it is a load; `some none` is a load
that misses the table. -/
def Code.loadedBy (c : Code) : Instr → Option (Option Constant)
  | .loadConst i => some (c.constant? i)
  | _ => none

/-- What the load instructions of some code load, in order. -/
def Code.loads (c : Code) : List (Option Constant) :=
  c.instructions.filterMap c.loadedBy

namespace Lower

variable {filename : String} {c : Code}

mutual

theorem filterMap_loadedBy_expr : ∀ {e : Expr} {t t' : Tables} {code : List Instr},
    expr filename t e = .ok (code, t') → Grows t' c.tables →
      code.filterMap c.loadedBy = e.literals.map some
  | .constant k, t, t', code, h, hg => by
      obtain ⟨i, hk, rfl⟩ := expr_constant_iff.mp h
      have hload : c.loadedBy (.loadConst i) = some (some k) :=
        congrArg some (hg.constant hk)
      rw [List.filterMap_cons_some hload]
      rfl
  | .name word, t, t', code, h, hg => by
      obtain ⟨i, hw, rfl⟩ := expr_name_iff.mp h
      rfl
  | .unary op e, t, t', code, h, hg => by
      obtain ⟨code₁, h₁, rfl⟩ := expr_unary_iff.mp h
      rw [List.filterMap_append, filterMap_loadedBy_expr h₁ hg]
      exact List.append_nil _
  | .binary op e₁ e₂, t, t', code, h, hg => by
      obtain ⟨code₁, t₁, code₂, h₁, h₂, rfl⟩ := expr_binary_iff.mp h
      rw [List.filterMap_append, List.filterMap_append,
        filterMap_loadedBy_expr h₁ ((grows_of_expr h₂).trans hg),
        filterMap_loadedBy_expr h₂ hg, ← List.map_append]
      exact List.append_nil _
  | .call e es, t, t', code, h, hg => by
      obtain ⟨code₁, t₁, code₂, n, h₁, h₂, hn, rfl⟩ := expr_call_iff.mp h
      rw [List.filterMap_append, List.filterMap_append,
        filterMap_loadedBy_expr h₁ ((grows_of_exprs h₂).trans hg),
        filterMap_loadedBy_exprs h₂ hg, ← List.map_append]
      exact List.append_nil _

theorem filterMap_loadedBy_exprs : ∀ {es : List Expr} {t t' : Tables} {code : List Instr},
    exprs filename t es = .ok (code, t') → Grows t' c.tables →
      code.filterMap c.loadedBy = (Expr.literalsAll es).map some
  | [], t, t', code, h, hg => by
      obtain ⟨rfl, rfl⟩ := exprs_nil_iff.mp h
      rfl
  | e :: es, t, t', code, h, hg => by
      obtain ⟨code₁, t₁, code₂, h₁, h₂, rfl⟩ := exprs_cons_iff.mp h
      rw [List.filterMap_append, filterMap_loadedBy_expr h₁ ((grows_of_exprs h₂).trans hg),
        filterMap_loadedBy_exprs h₂ hg, ← List.map_append]
      rfl

end

variable {t t' : Tables} {code : List Instr}

theorem filterMap_loadedBy_stmt {u : Stmt} (h : stmt filename t u = .ok (code, t'))
    (hg : Grows t' c.tables) : code.filterMap c.loadedBy = u.literals.map some := by
  cases u with
  | assign target value =>
    obtain ⟨code₁, t₁, i, h₁, h₂, rfl⟩ := stmt_assign_iff.mp h
    rw [List.filterMap_append, filterMap_loadedBy_expr h₁ ((grows_of_name h₂).trans hg)]
    exact List.append_nil _
  | expr value =>
    obtain ⟨code₁, h₁, rfl⟩ := stmt_expr_iff.mp h
    rw [List.filterMap_append, filterMap_loadedBy_expr h₁ hg]
    exact List.append_nil _

theorem filterMap_loadedBy_stmts {us : List Stmt} (h : stmts filename t us = .ok (code, t'))
    (hg : Grows t' c.tables) :
    code.filterMap c.loadedBy = (Script.literals us).map some := by
  induction us generalizing t code with
  | nil =>
    obtain ⟨rfl, rfl⟩ := stmts_nil_iff.mp h
    rfl
  | cons u us ih =>
    obtain ⟨code₁, t₁, code₂, h₁, h₂, rfl⟩ := stmts_cons_iff.mp h
    rw [List.filterMap_append, filterMap_loadedBy_stmt h₁ ((grows_of_stmts h₂).trans hg), ih h₂,
      ← List.map_append]
    rfl

/-- **Every literal is loaded as it is.**  The loads of lowered code give the literals of the
script in order, and then `None`. -/
theorem loads_lower {s : Script} (h : s.lower filename = .ok c) :
    c.loads = (s.literals ++ [Constant.none]).map some := by
  obtain ⟨code, t, i, hcode, hnone, -, hc⟩ := lower_iff.mp h
  have hload : c.loadedBy (.loadConst i) = some (some Constant.none) :=
    congrArg some ((Grows.refl c.tables).constant hnone)
  rw [Code.loads, hc, List.filterMap_append,
    filterMap_loadedBy_stmts hcode (grows_of_constant hnone), List.filterMap_cons_some hload,
    List.map_append]
  rfl

end Lower

/-! ## Lowering is correct -/

/-- **Lowering is correct.**  For every script that can be lowered, every set of bindings, every
table of builtins and every sink, executing the code gives what evaluating the tree gives:
the same value or error, the same output, and bindings that give the same value to every
name.  A report of malformed code can only come from a builtin, and with the standard ones
there is none.  Each load gives its literal, with its own kind and its own bits. -/
theorem execute_lower {filename : String} {s : Script} {c : Code}
    (h : s.lower filename = .ok c) (table : BuiltinTable) (state : State) :
    ((Machine.execute table c state).1, (Machine.execute table c state).2.scope) =
        s.perform table state.scope ∧
      (∀ e, (Machine.execute table c state).1 = .error e → e.kind = .invalidCode →
        table.Raises e) ∧
      (∀ e, (Machine.execute .standard c state).1 = .error e → e.kind ≠ .invalidCode) ∧
      c.loads = (s.literals ++ [Constant.none]).map some := by
  have hraises : ∀ (table : BuiltinTable) (e : RuntimeError),
      (Machine.execute table c state).1 = .error e → e.kind = .invalidCode → table.Raises e := by
    intro table e he hk
    have hresult := congrArg Prod.fst (Machine.execute_eq_perform table h state)
    exact Script.raises_of_perform (hresult.symm.trans he) hk
  refine ⟨Machine.execute_eq_perform table h state, hraises table, ?_, Lower.loads_lower h⟩
  exact fun e he hk => BuiltinTable.kind_ne_of_raises_standard (hraises .standard e he hk) hk

/-- Literals that are easily taken for each other, and a division that fails behind them. -/
def Script.lookalikes : Script :=
  [.assign "x" (.constant (.float (Binary64.zero false))),
    .assign "y" (.constant (.float (Binary64.zero true))),
    .assign "x" (.constant (.float .indefinite)),
    .assign "z" (.constant (.float (-.indefinite))),
    .expr (.call (.name "print") [.constant (.int 1), .constant (.bool true)]),
    .expr (.binary .floorDiv (.constant (.int 1)) (.constant (.int 0)))]

theorem execute_lower_lookalikes :
    ∃ c result final, Script.lookalikes.lower "t" = .ok c ∧
      Machine.execute .standard c ⟨.initial "__main__" "t", {}⟩ = (result, final) ∧
      result = .error (.arithmetic .zeroDivision) ∧ final.sink.written = "1 True\n" ∧
      ["x", "y", "z", "__name__", "print"].map final.globals.get? =
        [some (.data (.float .indefinite)), some (.data (.float (Binary64.zero true))),
          some (.data (.float (-.indefinite))), some (.str "__main__"), none] ∧
      c.loads = [some (.float (Binary64.zero false)), some (.float (Binary64.zero true)),
        some (.float .indefinite), some (.float (-.indefinite)), some (.int 1),
        some (.bool true), some (.int 1), some (.int 0), some .none] := by
  have h : ∃ c, Script.lookalikes.lower "t" = .ok c := ⟨_, rfl⟩
  obtain ⟨c, hc⟩ := h
  obtain ⟨hrun, -, -, hloads⟩ := execute_lower hc .standard ⟨.initial "__main__" "t", {}⟩
  rw [State.scope_initial] at hrun
  refine ⟨c, _, _, hc, rfl, congrArg Prod.fst hrun, ?_, ?_, hloads⟩
  · exact congrArg (fun outcome => outcome.2.sink.written) hrun
  · exact congrArg (fun outcome => ["x", "y", "z", "__name__", "print"].map outcome.2.bound?) hrun

end StackScript
