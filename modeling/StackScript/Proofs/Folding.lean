import StackScript.Code.Compile
import StackScript.Proofs.Lowering.Correctness

/-!
# Folding is invisible

Neither of the two passes over the tree changes what a script does.  This is proved on
trees, where it is a statement about single nodes: a folded node and the node it replaces
are the same computation, for every table of builtins and from every scope.

## Why a fold can be looked at alone

Equal computations may replace each other anywhere, so nothing has to be said about what
stands around a folded node.  A literal has no effect and cannot fail, hence an operator on
two literals has no effect either; and because it is folded by the arithmetic the machine
uses, its value is the value at run time.  If it has none it is not folded, and the error
waits at the place where it was.

The two traversals differ, and so do the two inductions.  The cheap pass is an instance of
`Expr.replace`, which is right for every answer that is right at single nodes
(`Expr.eval_replace`).  The thorough pass rebuilds a node from folded parts before it looks
at it, so its induction goes through `foldUnary` and `foldBinary`.

## What is compared

`execute_optimized` compares two pieces of code on the machine: that of a script and that
of the same script optimised.  They need not have the same tables or the same length.  The
machine is brought in by the correctness of lowering only, and `execute_optimized` adds
that the scripts agree up to every statement, so that an error comes at the same one.
-/

namespace StackScript

open Evaluation

variable (table : BuiltinTable)

/-! ## Operators on literals -/

/-- An operator on two literals is a literal if it has a value. -/
theorem Expr.eval_binary_constant {op : BinaryOp} {a b k : Constant}
    (h : Arithmetic.binary op a b = .ok k) :
    (Expr.binary op (.constant a) (.constant b)).eval table = (Expr.constant k).eval table := by
  rw [Expr.eval, Expr.eval, Expr.eval, Expr.eval, pure_bind, pure_bind, Evaluation.binary, h]
  rfl

/-- A prefix operator on a literal is a literal if it has a value. -/
theorem Expr.eval_unary_constant {op : UnaryOp} {a k : Constant}
    (h : Arithmetic.unary op a = .ok k) :
    (Expr.unary op (.constant a)).eval table = (Expr.constant k).eval table := by
  rw [Expr.eval, Expr.eval, Expr.eval, pure_bind, Evaluation.unary, h]
  rfl

theorem Expr.eq_constant_of_constant? {e : Expr} {k : Constant} (h : e.constant? = some k) :
    e = .constant k := by
  cases e with
  | constant value =>
    cases h
    rfl
  | name | unary | binary | call => cases h

/-! ## Replacing nodes -/

mutual

/-- A replacement that keeps the meaning of every node it answers keeps the meaning of the
whole tree. -/
theorem Expr.eval_replace {answer : Expr → Option Expr}
    (h : ∀ e d, answer e = some d → d.eval table = e.eval table) :
    ∀ e : Expr, (e.replace answer).eval table = e.eval table
  | .constant k => by
      cases hd : answer (.constant k) with
      | some d => rw [Expr.replace_of_some hd, h _ _ hd]
      | none => rw [Expr.replace, hd, Option.getD_none]
  | .name word => by
      cases hd : answer (.name word) with
      | some d => rw [Expr.replace_of_some hd, h _ _ hd]
      | none => rw [Expr.replace, hd, Option.getD_none]
  | .unary op e => by
      cases hd : answer (.unary op e) with
      | some d => rw [Expr.replace_of_some hd, h _ _ hd]
      | none =>
        simp only [Expr.replace, hd]
        rw [Expr.eval, Expr.eval, Expr.eval_replace h e]
  | .binary op e₁ e₂ => by
      cases hd : answer (.binary op e₁ e₂) with
      | some d => rw [Expr.replace_of_some hd, h _ _ hd]
      | none =>
        simp only [Expr.replace, hd]
        rw [Expr.eval, Expr.eval, Expr.eval_replace h e₁, Expr.eval_replace h e₂]
  | .call e es => by
      cases hd : answer (.call e es) with
      | some d => rw [Expr.replace_of_some hd, h _ _ hd]
      | none =>
        simp only [Expr.replace, hd]
        rw [Expr.eval, Expr.eval, Expr.eval_replace h e, Expr.evalAll_replaceAll h es]

theorem Expr.evalAll_replaceAll {answer : Expr → Option Expr}
    (h : ∀ e d, answer e = some d → d.eval table = e.eval table) :
    ∀ es : List Expr, Expr.evalAll table (Expr.replaceAll answer es) = Expr.evalAll table es
  | [] => rfl
  | e :: es => by
      rw [Expr.replaceAll, Expr.evalAll, Expr.evalAll, Expr.eval_replace h e,
        Expr.evalAll_replaceAll h es]

end

/-! ## The cheap pass -/

/-- A pair has a value when its operator is one that the pass folds, both operands are literals
and the arithmetic has a value for them. -/
theorem Pair.inspect_eq_value_iff {op : BinaryOp} {left right : Expr} {k : Constant} :
    Pair.inspect op left right = .value k ↔
      op.isPlain = true ∧ ∃ a b, left = .constant a ∧ right = .constant b ∧
        Arithmetic.binary op a b = .ok k := by
  constructor
  · intro h
    unfold Pair.inspect at h
    split at h
    · next hop =>
      refine ⟨hop, ?_⟩
      split at h
      · next a b ha hb =>
        split at h
        · next k' hk =>
          cases h
          exact ⟨a, b, Expr.eq_constant_of_constant? ha, Expr.eq_constant_of_constant? hb, hk⟩
        · cases h
      · cases h
    · cases h
  · rintro ⟨hop, a, b, rfl, rfl, hk⟩
    simp [Pair.inspect, hop, Expr.constant?, hk]

/-- The cheap pass answers a node by one of the same meaning. -/
theorem Expr.eval_of_foldPair? {e d : Expr} (h : foldPair? e = some d) :
    d.eval table = e.eval table := by
  cases e with
  | constant | name | unary | call => cases h
  | binary op left right =>
    simp only [foldPair?] at h
    split at h
    · next k hk =>
      obtain ⟨-, a, b, rfl, rfl, hvalue⟩ := Pair.inspect_eq_value_iff.mp hk
      cases h
      exact (Expr.eval_binary_constant table hvalue).symm
    · cases h
      rfl

/-! ## The thorough pass -/

theorem Expr.eval_foldUnary (op : UnaryOp) (e : Expr) :
    (foldUnary op e).1.eval table = (Expr.unary op e).eval table := by
  unfold foldUnary
  split
  · next a ha =>
    split
    · next k hk =>
      rw [Expr.eq_constant_of_constant? ha]
      exact (Expr.eval_unary_constant table hk).symm
    · rfl
  · rfl

theorem Expr.eval_foldBinary (op : BinaryOp) (e₁ e₂ : Expr) :
    (foldBinary op e₁ e₂).1.eval table = (Expr.binary op e₁ e₂).eval table := by
  unfold foldBinary
  split
  · next a b ha hb =>
    split
    · next k hk =>
      rw [Expr.eq_constant_of_constant? ha, Expr.eq_constant_of_constant? hb]
      exact (Expr.eval_binary_constant table hk).symm
    · rfl
  · rfl

mutual

/-- The thorough pass keeps the meaning of an expression. -/
theorem Expr.eval_foldDeep : ∀ e : Expr, e.foldDeep.1.eval table = e.eval table
  | .constant _ => rfl
  | .name _ => rfl
  | .unary op e => by
      rw [Expr.foldDeep, Expr.eval_foldUnary, Expr.eval, Expr.eval, e.eval_foldDeep]
  | .binary op e₁ e₂ => by
      rw [Expr.foldDeep, Expr.eval_foldBinary, Expr.eval, Expr.eval, e₁.eval_foldDeep,
        e₂.eval_foldDeep]
  | .call e es => by
      rw [Expr.foldDeep, Expr.eval, Expr.eval, e.eval_foldDeep, Expr.evalAll_foldDeepAll es]

theorem Expr.evalAll_foldDeepAll :
    ∀ es : List Expr, Expr.evalAll table (Expr.foldDeepAll es).1 = Expr.evalAll table es
  | [] => rfl
  | e :: es => by
      rw [Expr.foldDeepAll, Expr.evalAll, Expr.evalAll, e.eval_foldDeep,
        Expr.evalAll_foldDeepAll es]

end

/-! ## Statements and scripts -/

theorem Stmt.eval_replace {answer : Expr → Option Expr}
    (h : ∀ e d, answer e = some d → d.eval table = e.eval table) (t : Stmt) :
    (t.replace answer).eval table = t.eval table := by
  cases t with
  | assign target value => rw [Stmt.replace, Stmt.eval, Stmt.eval, Expr.eval_replace table h]
  | expr value => rw [Stmt.replace, Stmt.eval, Stmt.eval, Expr.eval_replace table h]

theorem Stmt.eval_foldDeep (t : Stmt) : t.foldDeep.1.eval table = t.eval table := by
  cases t with
  | assign target value => rw [Stmt.foldDeep, Stmt.eval, Stmt.eval, Expr.eval_foldDeep]
  | expr value => rw [Stmt.foldDeep, Stmt.eval, Stmt.eval, Expr.eval_foldDeep]

/-- What the passes over the tree make of one statement. -/
def Stmt.optimize (options : OptimizeOptions) (t : Stmt) : Stmt :=
  let t := if options.constantFolding then t.replace foldPair? else t
  if options.deepFolding then t.foldDeep.1 else t

theorem Script.foldDeep_fst (s : Script) : s.foldDeep.1 = s.map fun t => t.foldDeep.1 := by
  induction s with
  | nil => rfl
  | cons t ts ih => rw [Script.foldDeep, List.map_cons, ← ih]

/-- The passes work on one statement at a time. -/
theorem Script.optimize_eq_map (options : OptimizeOptions) (s : Script) :
    s.optimize options = s.map fun t => t.optimize options := by
  obtain ⟨folding, peephole, deep⟩ := options
  cases folding <;> cases deep <;>
    simp [Script.optimize, Stmt.optimize, Script.foldDeep_fst, Script.foldPairs, Script.replace,
      Function.comp_def]

/-- No pass changes the meaning of a statement. -/
theorem Stmt.eval_optimize (options : OptimizeOptions) (t : Stmt) :
    (t.optimize options).eval table = t.eval table := by
  have hcheap : (t.replace foldPair?).eval table = t.eval table :=
    t.eval_replace table fun e d h => Expr.eval_of_foldPair? table h
  cases hfolding : options.constantFolding <;> cases hdeep : options.deepFolding <;>
    simp [Stmt.optimize, hfolding, hdeep, Stmt.eval_foldDeep, hcheap]

/-- No pass changes the meaning of a script. -/
theorem Script.eval_optimize (options : OptimizeOptions) (s : Script) :
    (s.optimize options).eval table = s.eval table := by
  rw [Script.optimize_eq_map]
  induction s with
  | nil => rfl
  | cons t ts ih => rw [List.map_cons, Script.eval, Script.eval, Stmt.eval_optimize, ih]

theorem Script.take_optimize (options : OptimizeOptions) (s : Script) (k : Nat) :
    (s.optimize options).take k = Script.optimize options (s.take k) := by
  rw [Script.optimize_eq_map, Script.optimize_eq_map, List.map_take]

/-! ## The passes on the machine -/

/-- What is compiled is the optimised script, lowered. -/
theorem Script.lower_optimize_of_compile {options : OptimizeOptions} {filename : String}
    {s : Script} {c : Code} (h : s.compile options filename = .ok c) :
    (s.optimize options).lower filename = .ok c := by
  simp only [Script.compile, Script.compileWith, Code.peephole, ite_self] at h
  split at h
  · cases h
  · next c' hc =>
    cases h
    exact hc

/-- Compiled code does what the script says, whatever the switches. -/
theorem Machine.execute_compile {options : OptimizeOptions} {filename : String} {s : Script}
    {c : Code} (h : s.compile options filename = .ok c) (state : State) :
    ((Machine.execute table c state).1, (Machine.execute table c state).2.scope) =
      s.perform table state.scope := by
  rw [Machine.execute_eq_perform table (Script.lower_optimize_of_compile h), Script.perform,
    Script.perform, Script.eval_optimize]

/-- **Optimisation keeps what a program does.**  Whatever is switched on, the code of the
optimised script and the code of the script itself give the same value or the same error,
the same output and the same bindings, for all bindings, builtins and sinks to begin with.
And they do so at every point: up to any statement the two scripts have the same effect,
so an error that a constant expression leads to comes at the same statement. -/
theorem execute_optimized {options : OptimizeOptions} {filename : String} {s : Script}
    {c c' : Code} (h : s.lower filename = .ok c) (h' : s.compile options filename = .ok c')
    (table : BuiltinTable) (state : State) :
    Machine.execute table c' state = Machine.execute table c state ∧
      ∀ k scope, (Script.eval table ((s.optimize options).take k)).start scope =
        (Script.eval table (s.take k)).start scope := by
  constructor
  · refine State.outcome_eq ?_
    rw [Machine.execute_compile table h', Machine.execute_eq_perform table h]
  · intro k scope
    rw [Script.take_optimize, Script.eval_optimize]

/-- A line of output, a product that folds, and a division by zero beside a sum that folds. -/
def Script.halfFolded : Script :=
  [.expr (.call (.name "print") [.binary .mul (.constant (.int 2)) (.constant (.int 3))]),
    .expr (.binary .sub (.binary .floorDiv (.constant (.int 1)) (.constant (.int 0)))
      (.binary .add (.constant (.int 4)) (.constant (.int 5))))]

theorem execute_optimized_halfFolded :
    ∃ c c', Script.halfFolded.lower "t" = .ok c ∧
      Script.halfFolded.compile ⟨true, true, true⟩ "t" = .ok c' ∧
      c.instructions.length = 16 ∧ c'.instructions.length = 12 ∧
      Machine.execute .standard c' ⟨.initial "__main__" "t", {}⟩ =
        Machine.execute .standard c ⟨.initial "__main__" "t", {}⟩ := by
  have h : ∃ c, Script.halfFolded.lower "t" = .ok c ∧ c.instructions.length = 16 := ⟨_, rfl, rfl⟩
  have h' : ∃ c', Script.halfFolded.compile ⟨true, true, true⟩ "t" = .ok c' ∧
      c'.instructions.length = 12 := ⟨_, rfl, rfl⟩
  obtain ⟨c, hc, hlength⟩ := h
  obtain ⟨c', hc', hlength'⟩ := h'
  have hrun := (execute_optimized hc hc' .standard ⟨.initial "__main__" "t", {}⟩).1
  exact ⟨c, c', hc, hc', hlength, hlength', hrun⟩

end StackScript
