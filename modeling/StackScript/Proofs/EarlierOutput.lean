import StackScript.Machine.Run

/-!
# Programs do not see earlier output

The programs of a session print to one sink, each behind what the earlier ones printed.  A
program cannot read it: a run on a sink to which something was written is the run on the same
sink with nothing written to it, with the earlier output put in front afterwards.

Builtins have this property by definition (`Builtin.call_after`).  Of the instructions only a
call reaches the sink, and it does so through a builtin; so the property holds for a step
(`step_after`) and, by induction along the instructions, for a run (`run_after`).

What a sink will refuse may well change while a program runs, but not in any way.  If the builtins
do nothing to a sink but make requests of it (`BuiltinTable.OnlyWrites`), and the standard ones
are of this kind, then a run leaves the sink as some requests would leave it (`Sink.Becomes`).
A sink that does not mind what it was asked before (`Sink.Steady`) is then left as it was, up to
what it took.
-/

namespace StackScript

/-- The same state with something written to its sink before everything else. -/
def State.after (earlier : String) (state : State) : State :=
  { state with sink := state.sink.after earlier }

theorem State.globals_after (earlier : String) (state : State) :
    (state.after earlier).globals = state.globals := rfl

theorem State.sink_after (earlier : String) (state : State) :
    (state.after earlier).sink = state.sink.after earlier := rfl

namespace Machine

/-- What an instruction leads to, with something written before everything else. -/
def Step.after (earlier : String) : Step → Step
  | .next stack state => .next stack (state.after earlier)
  | .finish result state => .finish result (state.after earlier)

variable (table : BuiltinTable) (c : Code) (earlier : String)

theorem apply_after (callee : Value) (args : List Value) (sink : Sink) :
    apply table callee args (sink.after earlier) =
      ((apply table callee args sink).1, (apply table callee args sink).2.after earlier) := by
  cases callee with
  | data d => rfl
  | builtin name => exact (table.function name).call_after earlier sink args

theorem push_after (stack : List Value) (state : State) (result : Except RuntimeError Value) :
    push stack (state.after earlier) result = (push stack state result).after earlier := by
  cases result <;> rfl

/-- No instruction sees what was written earlier. -/
theorem step_after (i : Instr) (stack : List Value) (state : State) :
    step table c i stack (state.after earlier) = (step table c i stack state).after earlier := by
  cases i with
  | loadConst k =>
    simp only [step]
    cases c.constant? k <;> rfl
  | loadName k =>
    simp only [step, State.globals_after]
    cases c.name? k with
    | none => rfl
    | some name =>
      dsimp only
      cases state.globals.lookup? table name <;> rfl
  | storeName k =>
    cases stack with
    | nil => rfl
    | cons v stack =>
      simp only [step]
      cases c.name? k <;> rfl
  | binary op =>
    match stack with
    | [] | [_] => rfl
    | right :: left :: stack => exact push_after earlier stack state _
  | unary op =>
    cases stack with
    | nil => rfl
    | cons operand stack => exact push_after earlier stack state _
  | call n =>
    simp only [step, State.sink_after, apply_after]
    cases stack.drop n.toNat with
    | nil => rfl
    | cons callee rest =>
      let answer := apply table callee (stack.take n.toNat).reverse state.sink
      exact push_after earlier rest { state with sink := answer.2 } answer.1
  | pop => cases stack <;> rfl
  | ret => cases stack <;> rfl

/-- No run sees what was written earlier. -/
theorem run_after (is : List Instr) (stack : List Value) (state : State) :
    run table c is stack (state.after earlier) =
      ((run table c is stack state).1, (run table c is stack state).2.after earlier) := by
  induction is generalizing stack state with
  | nil => rfl
  | cons i is ih =>
    simp only [run, step_after]
    cases step table c i stack state with
    | next stack state => exact ih stack state
    | finish result state => rfl

theorem flushed_after (result : Except RuntimeError Value) (state : State) :
    flushed result (state.after earlier) =
      ((flushed result state).1, (flushed result state).2.after earlier) := by
  rw [flushed, State.sink_after, Sink.flush_after, flushed]
  rcases state.sink.flush with ⟨_ | _, sink⟩ <;> rfl

theorem execute_after (state : State) :
    execute table c (state.after earlier) =
      ((execute table c state).1, (execute table c state).2.after earlier) := by
  simp only [execute, run_after, flushed_after]

end Machine

/-! ## What becomes of a sink -/

namespace Sink

/-- One sink becomes another by requests that are made of it. -/
def Becomes (s t : Sink) : Prop := ∃ requests, t.cleared = s.cleared.askedAll requests

/-- A sink does not mind what it was asked before. -/
def Steady (s : Sink) : Prop := ∀ request, s.asked request = s

variable {s t u : Sink}

theorem Becomes.refl (s : Sink) : s.Becomes s := ⟨[], rfl⟩

theorem Becomes.trans (h : s.Becomes t) (h' : t.Becomes u) : s.Becomes u := by
  obtain ⟨requests, ht⟩ := h
  obtain ⟨requests', hu⟩ := h'
  refine ⟨requests ++ requests', ?_⟩
  rw [hu, ht, askedAll, askedAll, askedAll, List.foldl_append]

theorem becomes_asked (s : Sink) (request : Request) : s.Becomes (s.asked request) :=
  ⟨[request], rfl⟩

theorem becomes_write (s : Sink) (content : String) : s.Becomes (s.write content).2 := by
  unfold write
  split
  · exact .refl s
  · split <;> exact s.becomes_asked (.write content)

theorem becomes_writeLine (s : Sink) (content : String) : s.Becomes (s.writeLine content).2 := by
  have hfirst := s.becomes_write content
  unfold writeLine
  split
  · next s' heq =>
    rw [heq] at hfirst
    exact hfirst.trans (s'.becomes_write "\n")
  · exact hfirst

theorem becomes_flush (s : Sink) : s.Becomes s.flush.2 := by
  unfold flush
  split <;> exact s.becomes_asked .flush

/-- Whoever refuses always or never is steady. -/
theorem steady_always (written : String) (writeFault flushFault : Option String) :
    Steady ⟨written, .always writeFault, .always flushFault⟩ := fun _ => rfl

theorem Steady.cleared (h : s.Steady) : s.cleared.Steady := fun request =>
  congrArg Sink.cleared (h request)

theorem Steady.askedAll (h : s.Steady) (requests : List Request) : s.askedAll requests = s := by
  induction requests with
  | nil => rfl
  | cons request requests ih =>
    rw [Sink.askedAll, List.foldl_cons, h request]
    exact ih

/-- Requests leave a steady sink as it was, up to what it took. -/
theorem Becomes.cleared_eq (h : s.Becomes t) (hsteady : s.Steady) : t.cleared = s.cleared := by
  obtain ⟨requests, ht⟩ := h
  exact ht.trans (hsteady.cleared.askedAll requests)

end Sink

/-- Builtins do nothing to a sink but make requests of it. -/
def BuiltinTable.OnlyWrites (table : BuiltinTable) : Prop :=
  ∀ name (sink : Sink) args, sink.Becomes ((table.function name).call sink args).2

theorem Builtin.becomes_print (sink : Sink) (args : List Value) :
    sink.Becomes (Builtin.print sink args).2 := by
  have hline := sink.becomes_writeLine (" ".intercalate (args.map Value.display))
  simp only [Builtin.print]
  split <;> next heq => rw [heq] at hline; exact hline

/-- The standard builtins only write. -/
theorem BuiltinTable.onlyWrites_standard : standard.OnlyWrites := by
  intro name sink args
  rcases standard.function_cases name with ⟨b, hmem, hb⟩ | helsewhere
  · rw [hb]
    simp only [standard, List.mem_cons, Prod.mk.injEq, List.not_mem_nil, or_false] at hmem
    rcases hmem with ⟨-, rfl⟩ | ⟨-, rfl⟩ | ⟨-, rfl⟩ | ⟨-, rfl⟩ | ⟨-, rfl⟩ | ⟨-, rfl⟩
    · exact .refl sink
    · exact .refl sink
    · exact .refl sink
    · exact .refl sink
    · exact Builtin.becomes_print sink args
    · exact .refl sink
  · rw [helsewhere]
    exact .refl sink

namespace Machine

theorem becomes_flushed (result : Except RuntimeError Value) (state : State) :
    state.sink.Becomes (flushed result state).2.sink := by
  have hflush := state.sink.becomes_flush
  rw [flushed]
  split <;> next heq => rw [heq] at hflush; exact hflush

/-- The state that an instruction leads to. -/
def Step.state : Step → State
  | .next _ state => state
  | .finish _ state => state

variable {table : BuiltinTable} (htable : table.OnlyWrites) (c : Code)

include htable

theorem becomes_apply (callee : Value) (args : List Value) (sink : Sink) :
    sink.Becomes (apply table callee args sink).2 := by
  cases callee with
  | data d => exact .refl sink
  | builtin name => exact htable name sink args

/-- An instruction does nothing to the sink but make requests of it. -/
theorem becomes_step (i : Instr) (stack : List Value) (state : State) :
    state.sink.Becomes (step table c i stack state).state.sink := by
  have hpush : ∀ rest state' result, (push rest state' result).state = state' := by
    intro rest state' result
    cases result <;> rfl
  cases i with
  | loadConst k =>
    simp only [step]
    cases c.constant? k <;> exact .refl _
  | loadName k =>
    simp only [step]
    cases c.name? k with
    | none => exact .refl _
    | some name =>
      dsimp only
      cases state.globals.lookup? table name <;> exact .refl _
  | storeName k =>
    cases stack with
    | nil => exact .refl _
    | cons v rest =>
      simp only [step]
      cases c.name? k <;> exact .refl _
  | binary op =>
    match stack with
    | [] | [_] => exact .refl _
    | right :: left :: rest =>
      simp only [step, hpush]
      exact .refl _
  | unary op =>
    cases stack with
    | nil => exact .refl _
    | cons operand rest =>
      simp only [step, hpush]
      exact .refl _
  | call n =>
    simp only [step]
    cases stack.drop n.toNat with
    | nil => exact .refl _
    | cons callee rest =>
      simp only [hpush]
      exact becomes_apply htable callee _ state.sink
  | pop => cases stack <;> exact .refl _
  | ret => cases stack <;> exact .refl _

/-- Nor does a run. -/
theorem becomes_run (is : List Instr) (stack : List Value) (state : State) :
    state.sink.Becomes (run table c is stack state).2.sink := by
  induction is generalizing stack state with
  | nil => exact .refl _
  | cons i is ih =>
    have hstep := becomes_step htable c i stack state
    simp only [run]
    cases hnext : step table c i stack state with
    | next stack' state' =>
      rw [hnext] at hstep
      exact hstep.trans (ih stack' state')
    | finish result state' =>
      rw [hnext] at hstep
      exact hstep

theorem becomes_execute (state : State) :
    state.sink.Becomes (execute table c state).2.sink := by
  have hrun := becomes_run htable c c.instructions [] state
  exact hrun.trans (becomes_flushed _ _)

end Machine

end StackScript
