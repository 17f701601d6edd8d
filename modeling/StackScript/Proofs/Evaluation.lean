import Mathlib.Data.List.Perm.Basic
import StackScript.Machine.Run
import StackScript.Script.Tree

/-!
# Evaluating a script on its tree

What a script means, said on the tree and without a stack: operands from left to right
before their operator, a callee before its arguments, the value of an assignment before
its binding.  A name is looked up among the bindings of the program and then among the
builtins.  Whether a value can be called is asked when everything the call needs is there.

## Names

What the names are bound to is a function here, and binding a name changes the function at
that name.  The machine keeps a list in order instead, searches it and puts new entries in.
`State.scope` says which function a list stands for, and it is all that evaluation knows of
the machine.  Nothing is lost: a list in order is known from its function
(`State.eq_of_scope_eq`).

## Errors keep what was done

An evaluation is a computation that may fail *over* a scope, and not a scope next to a
failure: the first error ends it, and the bindings and the output made until then remain.
That is the order of the two layers in `Evaluation`, and it is the only thing that the
order is there for.

`Script.perform` evaluates a whole script and flushes the output.  A sink that cannot be
flushed turns every outcome into an error about the output.

## Where errors about malformed code come from

A tree has no operands that point nowhere and no stack to run empty, so evaluation has no
error of its own about malformed code.  If it reports one nevertheless, a builtin returned
it (`Script.raises_of_perform`), and the standard ones never do.
-/

namespace StackScript

/-- What an evaluation works on. -/
structure Scope where
  /-- What the program has bound names to. -/
  bound? : String → Option Value
  /-- The output. -/
  sink : Sink

/-- Computations of a running program: they may fail, and they keep what they did. -/
abbrev Evaluation := ExceptT RuntimeError (StateM Scope)

namespace Evaluation

/-- The outcome of a computation that starts in a given scope. -/
def start {α : Type} (x : Evaluation α) (scope : Scope) : Except RuntimeError α × Scope :=
  x.run.run scope

/-- The value of a name: what the program has bound it to, or else a builtin. -/
def lookup (table : BuiltinTable) (word : String) : Evaluation Value := do
  match (← get).bound? word, table.get? word with
  | some v, _ => return v
  | none, some _ => return .builtin word
  | none, none => throw (.unbound word)

/-- Bind a name. -/
def assign (word : String) (v : Value) : Evaluation Unit :=
  modify fun scope =>
    { scope with bound? := fun other => if other = word then some v else scope.bound? other }

/-- The value of an operator on literal data. -/
def arithmetic : Except ArithmeticError Constant → Evaluation Value
  | .ok c => return .data c
  | .error e => throw (.arithmetic e)

/-- Apply a prefix operator; builtins are no operands. -/
def unary (op : UnaryOp) (operand : Value) : Evaluation Value :=
  match operand with
  | .data a => arithmetic (Arithmetic.unary op a)
  | .builtin _ => throw (.arithmetic (.unsupportedOperand op.symbol operand.typeName))

/-- Apply a binary operator; builtins are no operands. -/
def binary (op : BinaryOp) (left right : Value) : Evaluation Value :=
  match left, right with
  | .data a, .data b => arithmetic (Arithmetic.binary op a b)
  | _, _ => throw (.arithmetic (.unsupportedOperands op.symbol left.typeName right.typeName))

/-- Let a builtin work on the output. -/
def builtin (b : Builtin) (args : List Value) : Evaluation Value := do
  let scope ← get
  let (result, sink) := b scope.sink args
  set { scope with sink }
  MonadExcept.ofExcept result

/-- Call a value with its arguments, if it can be called. -/
def call (table : BuiltinTable) (callee : Value) (args : List Value) : Evaluation Value :=
  match callee with
  | .builtin name =>
      match table.get? name with
      | some b => builtin b args
      | none => builtin (table.elsewhere name) args
  | .data c => throw (.notCallable c.typeName)

end Evaluation

mutual

/-- The value of an expression. -/
def Expr.eval (table : BuiltinTable) : Expr → Evaluation Value
  | .constant c => return .data c
  | .name word => Evaluation.lookup table word
  | .unary op operand => do
      let v ← operand.eval table
      Evaluation.unary op v
  | .binary op left right => do
      let a ← left.eval table
      let b ← right.eval table
      Evaluation.binary op a b
  | .call callee arguments => do
      let f ← callee.eval table
      let args ← Expr.evalAll table arguments
      Evaluation.call table f args

/-- The values of a list of expressions, in order. -/
def Expr.evalAll (table : BuiltinTable) : List Expr → Evaluation (List Value)
  | [] => return []
  | e :: es => do
      let v ← e.eval table
      let vs ← Expr.evalAll table es
      return v :: vs

end

/-- The effect of a statement. -/
def Stmt.eval (table : BuiltinTable) : Stmt → Evaluation Unit
  | .assign target value => do
      let v ← value.eval table
      Evaluation.assign target v
  | .expr value => do
      let _ ← value.eval table

/-- The effect of a script: its statements in order. -/
def Script.eval (table : BuiltinTable) : Script → Evaluation Unit
  | [] => return ()
  | t :: ts => do
      t.eval table
      Script.eval table ts

/-- The end of an evaluation: the output is flushed, and a failure to flush hides the result. -/
def Scope.flushed (scope : Scope) (result : Except RuntimeError Value) :
    Except RuntimeError Value × Scope :=
  match scope.sink.flush with
  | (.ok (), sink) => (result, { scope with sink })
  | (.error reason, sink) => (.error (.output reason), { scope with sink })

/-- Evaluate a script, whose value is `None`, and flush the output. -/
def Script.perform (table : BuiltinTable) (s : Script) (scope : Scope) :
    Except RuntimeError Value × Scope :=
  let (result, scope) := (s.eval table).start scope
  scope.flushed (result.map fun _ => Value.none)

/-! ## The bindings of the machine -/

/-- What a state of the machine is to an evaluation. -/
def State.scope (state : State) : Scope := ⟨state.globals.get?, state.sink⟩

namespace Globals

variable {g h : Globals} {name : String} {v : Value}

/-- What is listed is found. -/
theorem mem_entries_iff : (name, v) ∈ g.entries ↔ g.get? name = some v := by
  constructor
  · intro hmem
    obtain ⟨before, behind, hentries⟩ := List.append_of_mem hmem
    refine List.lookup_eq_some_iff.mpr ⟨before, behind, hentries, fun e he => ?_⟩
    have hordered := g.ordered
    rw [hentries, List.pairwise_append] at hordered
    have hlt : e.1 < name := hordered.2.2 e he (name, v) List.mem_cons_self
    have hne : name ≠ e.1 := fun heq => String.lt_irrefl name (by rwa [← heq] at hlt)
    exact bne_iff_ne.mpr hne
  · intro hget
    obtain ⟨before, behind, hentries, -⟩ := List.lookup_eq_some_iff.mp hget
    rw [hentries]
    exact List.mem_append_right before List.mem_cons_self

/-- Bindings are known from the values that they give to names. -/
theorem eq_of_get?_eq (hget : g.get? = h.get?) : g = h := by
  have hnodup : ∀ k : Globals, k.entries.Nodup := fun k => by
    refine k.ordered.imp fun {a b} hlt heq => ?_
    rw [heq] at hlt
    exact String.lt_irrefl _ hlt
  have hperm : g.entries.Perm h.entries := by
    refine (List.perm_ext_iff_of_nodup (hnodup g) (hnodup h)).mpr fun e => ?_
    obtain ⟨name, v⟩ := e
    rw [mem_entries_iff, mem_entries_iff, hget]
  have hentries : g.entries = h.entries :=
    hperm.eq_of_pairwise (fun a b _ _ hlt hgt => absurd hgt (String.lt_asymm hlt)) g.ordered
      h.ordered
  obtain ⟨entries, _⟩ := g
  obtain ⟨_, _⟩ := h
  cases hentries
  rfl

end Globals

/-- A state of the machine is known from what it is to an evaluation. -/
theorem State.eq_of_scope_eq {s t : State} (h : s.scope = t.scope) : s = t := by
  obtain ⟨g, sink⟩ := s
  obtain ⟨g', sink'⟩ := t
  obtain ⟨hget, hsink⟩ := Scope.mk.inj h
  cases Globals.eq_of_get?_eq hget
  cases hsink
  rfl

/-- Two outcomes on the machine are the same if they are the same to an evaluation. -/
theorem State.outcome_eq {α : Type} {x y : α × State}
    (h : (x.1, x.2.scope) = (y.1, y.2.scope)) : x = y := by
  obtain ⟨hvalue, hscope⟩ := Prod.mk.inj h
  exact Prod.ext hvalue (State.eq_of_scope_eq hscope)

/-- Binding a name on the machine is binding it. -/
theorem State.scope_set (state : State) (word : String) (v : Value) :
    { state with globals := state.globals.set word v : State }.scope =
      { state.scope with
        bound? := fun other => if other = word then some v else state.scope.bound? other } := by
  have hget : (state.globals.set word v).get? =
      fun other => if other = word then some v else state.globals.get? other := by
    funext other
    split
    · next heq => rw [heq, Globals.get?_set_self]
    · next hne => exact state.globals.get?_set_of_ne hne v
  rw [scope, hget]
  rfl

/-- Flushing the output of the machine is flushing it. -/
theorem State.scope_flushed (state : State) (result : Except RuntimeError Value) :
    ((Machine.flushed result state).1, (Machine.flushed result state).2.scope) =
      state.scope.flushed result := by
  have hsink : state.scope.sink = state.sink := rfl
  rw [Scope.flushed, Machine.flushed, hsink]
  rcases state.sink.flush with ⟨_ | _, sink⟩ <;> rfl

/-- The scope that every program starts in: its module name and its origin are bound. -/
def Scope.initial (moduleName origin : String) (sink : Sink) : Scope where
  bound? word :=
    if word = "__file__" then some (.str origin)
    else if word = "__name__" then some (.str moduleName)
    else none
  sink := sink

theorem State.scope_initial (moduleName origin : String) (sink : Sink) :
    (⟨.initial moduleName origin, sink⟩ : State).scope = .initial moduleName origin sink := by
  have hname := State.scope_set ⟨.empty, sink⟩ "__name__" (.str moduleName)
  have hfile := State.scope_set ⟨Globals.empty.set "__name__" (.str moduleName), sink⟩ "__file__"
    (.str origin)
  rw [hname] at hfile
  exact hfile

/-! ## Outcomes of computations -/

namespace Evaluation

variable {α β : Type}

theorem ext {x y : Evaluation α} (h : ∀ scope, x.start scope = y.start scope) : x = y :=
  funext h

@[simp] theorem start_pure (a : α) (scope : Scope) :
    (pure a : Evaluation α).start scope = (.ok a, scope) := rfl

@[simp] theorem start_ofExcept (result : Except RuntimeError α) (scope : Scope) :
    (MonadExcept.ofExcept result : Evaluation α).start scope = (result, scope) := by
  cases result <;> rfl

/-- The second computation starts where the first one arrived, unless that was an error. -/
theorem start_bind (x : Evaluation α) (f : α → Evaluation β) (scope : Scope) :
    (x >>= f).start scope =
      match x.start scope with
      | (.ok a, scope) => (f a).start scope
      | (.error e, scope) => (.error e, scope) := by
  change ExceptT.bindCont f (x.start scope).1 (x.start scope).2 = _
  rcases x.start scope with ⟨_ | _, _⟩ <;> rfl

/-- A lookup changes nothing. -/
theorem start_lookup (table : BuiltinTable) (word : String) (scope : Scope) :
    (lookup table word).start scope =
      match scope.bound? word, table.get? word with
      | some v, _ => (.ok v, scope)
      | none, some _ => (.ok (.builtin word), scope)
      | none, none => (.error (.unbound word), scope) := by
  have hlookup : (lookup table word).start scope =
      (match scope.bound? word, table.get? word with
        | some v, _ => (pure v : Evaluation Value)
        | none, some _ => pure (.builtin word)
        | none, none => throw (RuntimeError.unbound word)).start scope := rfl
  rw [hlookup]
  cases scope.bound? word <;> cases table.get? word <;> rfl

/-- The machine finds what evaluation finds. -/
theorem start_lookup_scope (table : BuiltinTable) (word : String) (state : State) :
    (lookup table word).start state.scope =
      match state.globals.lookup? table word with
      | some v => (.ok v, state.scope)
      | none => (.error (.unbound word), state.scope) := by
  have hbound : state.scope.bound? word = state.globals.get? word := rfl
  rw [start_lookup, Globals.lookup?, hbound]
  cases state.globals.get? word <;> cases table.get? word <;> rfl

theorem start_assign (word : String) (v : Value) (scope : Scope) :
    (assign word v).start scope = (.ok (), { scope with
      bound? := fun other => if other = word then some v else scope.bound? other }) := rfl

/-- An operator changes nothing, and it has the value that it has on the machine. -/
theorem unary_eq (op : UnaryOp) (operand : Value) :
    unary op operand = MonadExcept.ofExcept (Machine.unary op operand) := by
  cases operand with
  | builtin name => rfl
  | data a =>
    rw [unary, Machine.unary]
    cases Arithmetic.unary op a <;> rfl

theorem binary_eq (op : BinaryOp) (left right : Value) :
    binary op left right = MonadExcept.ofExcept (Machine.binary op left right) := by
  cases left with
  | builtin name => rfl
  | data a =>
    cases right with
    | builtin name => rfl
    | data b =>
      rw [binary, Machine.binary]
      cases Arithmetic.binary op a b <;> rfl

/-- Only the output passes through a builtin. -/
theorem start_builtin (b : Builtin) (args : List Value) (scope : Scope) :
    (builtin b args).start scope =
      ((b scope.sink args).1, { scope with sink := (b scope.sink args).2 }) := by
  change (MonadExcept.ofExcept (b scope.sink args).1 : Evaluation Value).start
    { scope with sink := (b scope.sink args).2 } = _
  exact start_ofExcept _ _

/-- A call does what the value does on the machine, and only the output can change. -/
theorem start_call (table : BuiltinTable) (callee : Value) (args : List Value) (scope : Scope) :
    (call table callee args).start scope =
      ((Machine.apply table callee args scope.sink).1,
        { scope with sink := (Machine.apply table callee args scope.sink).2 }) := by
  cases callee with
  | data c => rfl
  | builtin name =>
    unfold call Machine.apply BuiltinTable.function
    cases hb : table.get? name with
    | none => simp only [hb, start_builtin, Option.getD_none]
    | some b => simp only [hb, start_builtin, Option.getD_some]

/-! ## Which errors a computation can end with -/

/-- Whatever scope it starts in, a computation fails with errors of one sort only. -/
def FailsOnly (P : RuntimeError → Prop) (x : Evaluation α) : Prop :=
  ∀ scope e, (x.start scope).1 = .error e → P e

variable {P : RuntimeError → Prop}

theorem failsOnly_pure (a : α) : FailsOnly P (pure a) := by
  intro scope e h
  simp at h

theorem failsOnly_ofExcept {result : Except RuntimeError α} (h : ∀ e, result = .error e → P e) :
    FailsOnly P (MonadExcept.ofExcept result : Evaluation α) := by
  intro scope e he
  rw [start_ofExcept] at he
  exact h e he

/-- One computation after the other fails as one of the two does. -/
theorem failsOnly_bind {x : Evaluation α} {f : α → Evaluation β} (hx : FailsOnly P x)
    (hf : ∀ a, FailsOnly P (f a)) : FailsOnly P (x >>= f) := by
  intro scope e h
  rw [start_bind] at h
  rcases hs : x.start scope with ⟨e' | a, scope'⟩
  · rw [hs] at h
    have he : e' = e := by injection h
    exact hx scope e (by rw [hs, he])
  · rw [hs] at h
    exact hf a scope' e h

end Evaluation

/-! ## Nothing but a builtin reports malformed code -/

theorem RuntimeError.kind_arithmetic_ne (e : ArithmeticError) :
    (RuntimeError.arithmetic e).kind ≠ .invalidCode := by
  cases e <;> exact nofun

theorem Machine.kind_ne_of_unary {op : UnaryOp} {v : Value} {e : RuntimeError}
    (h : Machine.unary op v = .error e) : e.kind ≠ .invalidCode := by
  unfold Machine.unary at h
  split at h
  · split at h
    · cases h
    · cases h
      exact RuntimeError.kind_arithmetic_ne _
  · cases h
    exact RuntimeError.kind_arithmetic_ne _

theorem Machine.kind_ne_of_binary {op : BinaryOp} {a b : Value} {e : RuntimeError}
    (h : Machine.binary op a b = .error e) : e.kind ≠ .invalidCode := by
  unfold Machine.binary at h
  split at h
  · split at h
    · cases h
    · cases h
      exact RuntimeError.kind_arithmetic_ne _
  · cases h
    exact RuntimeError.kind_arithmetic_ne _

/-- Some builtin returns an error, for some output and some arguments. -/
def BuiltinTable.Raises (table : BuiltinTable) (e : RuntimeError) : Prop :=
  ∃ name sink args, ((table.function name).call sink args).1 = .error e

/-- An error does not report malformed code, unless a builtin does. -/
def BuiltinTable.Excuses (table : BuiltinTable) (e : RuntimeError) : Prop :=
  e.kind = .invalidCode → table.Raises e

/-- Only a builtin returns an error about malformed code from a call. -/
theorem Machine.excuses_of_apply {table : BuiltinTable} {callee : Value} {args : List Value}
    {sink : Sink} {e : RuntimeError} (h : (apply table callee args sink).1 = .error e) :
    table.Excuses e := by
  cases callee with
  | data c =>
    cases h
    exact nofun
  | builtin name => exact fun _ => ⟨name, sink, args, h⟩

namespace Evaluation

variable (table : BuiltinTable)

theorem failsOnly_unary (op : UnaryOp) (operand : Value) :
    FailsOnly table.Excuses (unary op operand) := by
  rw [unary_eq]
  exact failsOnly_ofExcept fun e h hk => absurd hk (Machine.kind_ne_of_unary h)

theorem failsOnly_binary (op : BinaryOp) (left right : Value) :
    FailsOnly table.Excuses (binary op left right) := by
  rw [binary_eq]
  exact failsOnly_ofExcept fun e h hk => absurd hk (Machine.kind_ne_of_binary h)

theorem failsOnly_lookup (word : String) : FailsOnly table.Excuses (lookup table word) := by
  intro scope e h hk
  rw [start_lookup] at h
  split at h <;> cases h
  cases hk

theorem failsOnly_assign (word : String) (v : Value) :
    FailsOnly table.Excuses (assign word v) := by
  intro scope e h
  cases h

theorem failsOnly_call (callee : Value) (args : List Value) :
    FailsOnly table.Excuses (call table callee args) := by
  intro scope e h hk
  rw [start_call] at h
  exact Machine.excuses_of_apply h hk

end Evaluation

open Evaluation

mutual

theorem Expr.failsOnly_eval (table : BuiltinTable) :
    ∀ e : Expr, FailsOnly table.Excuses (e.eval table)
  | .constant c => by
      rw [Expr.eval]
      exact failsOnly_pure _
  | .name word => by
      rw [Expr.eval]
      exact failsOnly_lookup table word
  | .unary op operand => by
      rw [Expr.eval]
      exact failsOnly_bind (operand.failsOnly_eval table) fun v => failsOnly_unary table op v
  | .binary op left right => by
      rw [Expr.eval]
      refine failsOnly_bind (left.failsOnly_eval table) fun a => ?_
      exact failsOnly_bind (right.failsOnly_eval table) fun b => failsOnly_binary table op a b
  | .call callee arguments => by
      rw [Expr.eval]
      refine failsOnly_bind (callee.failsOnly_eval table) fun f => ?_
      refine failsOnly_bind (Expr.failsOnly_evalAll table arguments) fun args => ?_
      exact failsOnly_call table f args

theorem Expr.failsOnly_evalAll (table : BuiltinTable) :
    ∀ es : List Expr, FailsOnly table.Excuses (Expr.evalAll table es)
  | [] => by
      rw [Expr.evalAll]
      exact failsOnly_pure _
  | e :: es => by
      rw [Expr.evalAll]
      refine failsOnly_bind (e.failsOnly_eval table) fun v => ?_
      refine failsOnly_bind (Expr.failsOnly_evalAll table es) fun vs => ?_
      exact failsOnly_pure _

end

theorem Stmt.failsOnly_eval (table : BuiltinTable) (t : Stmt) :
    FailsOnly table.Excuses (t.eval table) := by
  cases t with
  | assign target value =>
    rw [Stmt.eval]
    exact failsOnly_bind (value.failsOnly_eval table) fun v => failsOnly_assign table target v
  | expr value =>
    rw [Stmt.eval]
    exact failsOnly_bind (value.failsOnly_eval table) fun _ => failsOnly_pure _

theorem Script.failsOnly_eval (table : BuiltinTable) (s : Script) :
    FailsOnly table.Excuses (Script.eval table s) := by
  induction s with
  | nil =>
    rw [Script.eval]
    exact failsOnly_pure _
  | cons t ts ih =>
    rw [Script.eval]
    exact failsOnly_bind (t.failsOnly_eval table) fun _ => ih

/-- **Evaluation never reports malformed code on its own account.**  If the report comes, a
builtin of the table has made it. -/
theorem Script.raises_of_perform {table : BuiltinTable} {s : Script} {scope : Scope}
    {e : RuntimeError} (h : (s.perform table scope).1 = .error e) (hk : e.kind = .invalidCode) :
    table.Raises e := by
  rcases hs : (Script.eval table s).start scope with ⟨result, scope'⟩
  simp only [Script.perform, Scope.flushed, hs] at h
  split at h
  · cases result with
    | error e' =>
      cases h
      exact s.failsOnly_eval table scope e (by rw [hs]) hk
    | ok _ => cases h
  · cases h
    cases hk

/-! ## The standard builtins -/

namespace Builtin

variable {args : List Value} {e : RuntimeError}

theorem kind_ne_of_len (h : len args = .error e) : e.kind ≠ .invalidCode := by
  unfold len at h
  split at h <;> cases h <;> exact nofun

theorem kind_ne_of_str (h : str args = .error e) : e.kind ≠ .invalidCode := by
  unfold str at h
  split at h <;> cases h
  exact nofun

theorem kind_ne_of_integerOfFloat {x : Double} (h : integerOfFloat x = .error e) :
    e.kind ≠ .invalidCode := by
  unfold integerOfFloat at h
  split at h
  · cases h
    exact nofun
  · cases h
    exact nofun
  · split at h <;> cases h
    exact nofun

theorem kind_ne_of_int (h : int args = .error e) : e.kind ≠ .invalidCode := by
  unfold int at h
  split at h
  · cases h
  · cases h
  · cases h
  · exact kind_ne_of_integerOfFloat h
  · split at h <;> cases h
    exact nofun
  · cases h
    exact nofun
  · cases h
    exact nofun

theorem kind_ne_of_float (h : float args = .error e) : e.kind ≠ .invalidCode := by
  unfold float at h
  split at h
  · cases h
  · cases h
  · cases h
  · cases h
  · split at h <;> cases h
    exact nofun
  · cases h
    exact nofun
  · cases h
    exact nofun

theorem kind_ne_of_abs (h : abs args = .error e) : e.kind ≠ .invalidCode := by
  unfold abs at h
  split at h
  · split at h <;> cases h
    exact nofun
  · cases h
  · cases h
  · cases h
    exact nofun
  · cases h
    exact nofun

theorem kind_ne_of_print {sink : Sink} (h : (print sink args).1 = .error e) :
    e.kind ≠ .invalidCode := by
  simp only [print] at h
  split at h <;> cases h
  exact nofun

end Builtin

/-- No standard builtin reports malformed code. -/
theorem BuiltinTable.kind_ne_of_raises_standard {e : RuntimeError} (h : standard.Raises e) :
    e.kind ≠ .invalidCode := by
  obtain ⟨name, sink, args, he⟩ := h
  rcases standard.function_cases name with ⟨b, hmem, hb⟩ | helsewhere
  · rw [hb] at he
    simp only [standard, List.mem_cons, Prod.mk.injEq, List.not_mem_nil, or_false] at hmem
    rcases hmem with ⟨-, rfl⟩ | ⟨-, rfl⟩ | ⟨-, rfl⟩ | ⟨-, rfl⟩ | ⟨-, rfl⟩ | ⟨-, rfl⟩
    · exact Builtin.kind_ne_of_abs he
    · exact Builtin.kind_ne_of_float he
    · exact Builtin.kind_ne_of_int he
    · exact Builtin.kind_ne_of_len he
    · exact Builtin.kind_ne_of_print he
    · exact Builtin.kind_ne_of_str he
  · rw [helsewhere] at he
    cases he
    exact nofun

end StackScript
