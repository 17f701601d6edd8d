import StackScript.Proofs.Evaluation

/-!
# Malformed code can be told from the code alone

The machine checks its code as it goes: an operand that points nowhere, too few values on the
stack, or a missing return is noticed at the instruction that needs it.  By then the program has
computed values, and other errors may have come first, so it looks as if the verdict depended on
the run.

It does not.  There are no jumps, and what an instruction does to the *number* of values on the
stack is fixed: it takes `Instr.needs` and leaves `Instr.leaves`.  So a scan that goes along the
code once, up to the first return, and counts (`Code.scan`) finds the only place where the
machine can complain, together with what it will say.

## The argument

One step (`Machine.step_of_fault`, `Machine.step_of_fits`): if the scan objects to an instruction
at the depth of the stack, the machine reports just that; if it does not, the instruction either
leaves a stack of the depth that the scan expects, or raises an error of another kind.  By
induction along the code the run stops at the place that the scan found, unless an earlier
instruction raised an error.

A builtin may return any error, also one about malformed code.  Such a report says nothing about
the code, and it is the only exception; the standard builtins never make it.
-/

namespace StackScript

namespace Instr

/-- How many values an instruction takes from the stack. -/
def needs : Instr → Nat
  | .loadConst _ | .loadName _ => 0
  | .storeName _ | .unary _ | .pop | .ret => 1
  | .binary _ => 2
  | .call count => count.toNat + 1

/-- How many values it puts there instead. -/
def leaves : Instr → Nat
  | .loadConst _ | .loadName _ | .binary _ | .unary _ | .call _ => 1
  | .storeName _ | .pop | .ret => 0

/-- What is wrong if there are fewer values than it needs. -/
def shortage : Instr → CodeFault
  | .call count => .callUnderflow count
  | _ => .underflow

/-- How many values there are afterwards. -/
def depthAfter (i : Instr) (depth : Nat) : Nat := depth - i.needs + i.leaves

end Instr

namespace Code

/-- What is wrong with the operand of an instruction. -/
def operandFault? (code : Code) : Instr → Option CodeFault
  | .loadConst index =>
      match code.constant? index with
      | some _ => none
      | none => some (.constantIndex index)
  | .loadName index | .storeName index =>
      match code.name? index with
      | some _ => none
      | none => some (.nameIndex index)
  | _ => none

/-- What is wrong with an instruction when there are that many values on the stack. -/
def fault? (code : Code) (i : Instr) (depth : Nat) : Option CodeFault :=
  if depth < i.needs then some i.shortage else code.operandFault? i

/-- The first place at which something is wrong, and what it is.  Nothing behind a return is
looked at, and the end without a return is wrong in itself. -/
def scanFrom (code : Code) : List Instr → Nat → Option (Nat × CodeFault)
  | [], _ => some (0, .noReturn)
  | i :: is, depth =>
      match code.fault? i depth with
      | some fault => some (0, fault)
      | none =>
          if i = .ret then none
          else (code.scanFrom is (i.depthAfter depth)).map fun found => (found.1 + 1, found.2)

/-- Scan the instructions of some code, from an empty stack. -/
def scan (code : Code) : Option (Nat × CodeFault) :=
  code.scanFrom code.instructions 0

variable {code : Code} {i : Instr} {is : List Instr} {depth : Nat}

theorem scanFrom_of_fault {fault : CodeFault} (h : code.fault? i depth = some fault) :
    code.scanFrom (i :: is) depth = some (0, fault) := by
  simp only [scanFrom, h]

theorem scanFrom_of_fits (h : code.fault? i depth = none) (hret : i ≠ .ret) :
    code.scanFrom (i :: is) depth =
      (code.scanFrom is (i.depthAfter depth)).map fun found => (found.1 + 1, found.2) := by
  simp only [scanFrom, h, if_neg hret]

/-- The scan objects to nothing but a shortage of values and a bad operand. -/
theorem fault?_eq_none_iff :
    code.fault? i depth = none ↔ i.needs ≤ depth ∧ code.operandFault? i = none := by
  unfold fault?
  split
  · next h => exact ⟨nofun, fun hfits => absurd hfits.1 (Nat.not_le.mpr h)⟩
  · next h => exact ⟨fun hnone => ⟨Nat.le_of_not_lt h, hnone⟩, And.right⟩

end Code

namespace Machine

variable {table : BuiltinTable} {code : Code} {i : Instr} {is : List Instr}
  {stack : List Value} {state : State} {e : RuntimeError} {k : Nat}

/-! ## One instruction -/

/-- Too few values are reported before anything is done. -/
theorem step_of_shortage (h : stack.length < i.needs) :
    step table code i stack state = malformed code i.shortage state := by
  cases i with
  | loadConst index | loadName index => exact absurd h (Nat.not_lt_zero _)
  | storeName index | unary op | pop | ret =>
    obtain rfl : stack = [] := List.length_eq_zero_iff.mp (Nat.lt_one_iff.mp h)
    rfl
  | binary op =>
    match stack, h with
    | [], _ => rfl
    | [_], _ => rfl
  | call count =>
    have hdrop : stack.drop count.toNat = [] := List.drop_eq_nil_of_le (Nat.le_of_lt_succ h)
    simp only [step, hdrop]
    rfl

/-- A bad operand is reported when the values are there. -/
theorem step_of_operandFault {fault : CodeFault} (hdepth : i.needs ≤ stack.length)
    (h : code.operandFault? i = some fault) :
    step table code i stack state = malformed code fault state := by
  cases i with
  | loadConst index =>
    cases hc : code.constant? index with
    | some c => simp [Code.operandFault?, hc] at h
    | none =>
      simp only [Code.operandFault?, hc, Option.some.injEq] at h
      simp only [step, hc, h]
  | loadName index =>
    cases hn : code.name? index with
    | some name => simp [Code.operandFault?, hn] at h
    | none =>
      simp only [Code.operandFault?, hn, Option.some.injEq] at h
      simp only [step, hn, h]
  | storeName index =>
    match stack, hdepth with
    | v :: rest, _ =>
      cases hn : code.name? index with
      | some name => simp [Code.operandFault?, hn] at h
      | none =>
        simp only [Code.operandFault?, hn, Option.some.injEq] at h
        simp only [step, hn, h]
  | _ => cases h

/-- What the scan objects to, the machine reports. -/
theorem step_of_fault {fault : CodeFault} (h : code.fault? i stack.length = some fault) :
    step table code i stack state = malformed code fault state := by
  unfold Code.fault? at h
  split at h
  · next hshort =>
    cases h
    exact step_of_shortage hshort
  · next hdepth => exact step_of_operandFault (Nat.le_of_not_lt hdepth) h

/-- What an instruction may lead to if the scan does not object to it: as many values as the
scan expects, or an error that is not about the code. -/
def Fits (table : BuiltinTable) (depth : Nat) (next : Step) : Prop :=
  (∃ stack state, next = .next stack state ∧ stack.length = depth) ∨
    ∃ e state, next = .finish (.error e) state ∧ table.Excuses e

theorem fits_push {result : Except RuntimeError Value}
    (h : ∀ e, result = .error e → table.Excuses e) :
    Fits table (stack.length + 1) (push stack state result) := by
  cases result with
  | ok v => exact .inl ⟨v :: stack, state, rfl, rfl⟩
  | error e => exact .inr ⟨e, state, rfl, h e rfl⟩

/-- An instruction that the scan does not object to leaves the expected number of values, or
it raises an error that is not about the code. -/
theorem step_of_fits (table : BuiltinTable) (state : State)
    (h : code.fault? i stack.length = none) (hret : i ≠ .ret) :
    Fits table (i.depthAfter stack.length) (step table code i stack state) := by
  obtain ⟨hdepth, hoperand⟩ := Code.fault?_eq_none_iff.mp h
  cases i with
  | loadConst index =>
    cases hc : code.constant? index with
    | none => simp [Code.operandFault?, hc] at hoperand
    | some c =>
      simp only [step, hc]
      exact .inl ⟨_, _, rfl, rfl⟩
  | loadName index =>
    cases hn : code.name? index with
    | none => simp [Code.operandFault?, hn] at hoperand
    | some name =>
      simp only [step, hn]
      cases state.globals.lookup? table name with
      | some v => exact .inl ⟨_, _, rfl, rfl⟩
      | none => exact .inr ⟨_, _, rfl, nofun⟩
  | storeName index =>
    match stack, hdepth with
    | v :: rest, _ =>
      cases hn : code.name? index with
      | none => simp [Code.operandFault?, hn] at hoperand
      | some name =>
        simp only [step, hn]
        exact .inl ⟨_, _, rfl, rfl⟩
  | binary op =>
    match stack, hdepth with
    | right :: left :: rest, _ =>
      exact fits_push fun e he hk => absurd hk (kind_ne_of_binary he)
  | unary op =>
    match stack, hdepth with
    | operand :: rest, _ => exact fits_push fun e he hk => absurd hk (kind_ne_of_unary he)
  | call count =>
    cases hdrop : stack.drop count.toNat with
    | nil => exact absurd (List.drop_eq_nil_iff.mp hdrop) (Nat.not_le.mpr hdepth)
    | cons callee rest =>
      have hlength : rest.length + 1 = stack.length - count.toNat := by
        rw [← List.length_drop, hdrop, List.length_cons]
      have hafter : (Instr.call count).depthAfter stack.length = rest.length + 1 := by
        simp only [Instr.depthAfter, Instr.needs, Instr.leaves]
        omega
      rw [hafter]
      simp only [step, hdrop]
      exact fits_push fun e he => excuses_of_apply he
  | pop =>
    match stack, hdepth with
    | v :: rest, _ => exact .inl ⟨_, _, rfl, rfl⟩
  | ret => exact absurd rfl hret

/-! ## A run -/

/-- The stack and the state in front of the instruction at some place, if the run gets there. -/
def reach (table : BuiltinTable) (code : Code) :
    Nat → List Instr → List Value → State → Option (List Value × State)
  | 0, _, stack, state => some (stack, state)
  | _ + 1, [], _, _ => none
  | k + 1, i :: is, stack, state =>
      match step table code i stack state with
      | .next stack state => reach table code k is stack state
      | .finish _ _ => none

/-- A run gets to the instruction at some place, and that raises an error. -/
def RaisesAt (table : BuiltinTable) (code : Code) (is : List Instr) (stack : List Value)
    (state : State) (k : Nat) (e : RuntimeError) : Prop :=
  ∃ i stack' state' state'', is[k]? = some i ∧
    reach table code k is stack state = some (stack', state') ∧
      step table code i stack' state' = .finish (.error e) state''

theorem raisesAt_zero {state' : State}
    (h : step table code i stack state = .finish (.error e) state') :
    RaisesAt table code (i :: is) stack state 0 e :=
  ⟨i, stack, state, state', rfl, rfl, h⟩

/-- An instruction after which the run goes on raises nothing. -/
theorem not_raisesAt_zero {stack' : List Value} {state' : State}
    (h : step table code i stack state = .next stack' state') :
    ¬ RaisesAt table code (i :: is) stack state 0 e := by
  rintro ⟨_, _, _, _, hi, hreach, herror⟩
  cases hi
  cases hreach
  rw [h] at herror
  cases herror

theorem raisesAt_succ {stack' : List Value} {state' : State}
    (h : step table code i stack state = .next stack' state') :
    RaisesAt table code (i :: is) stack state (k + 1) e ↔
      RaisesAt table code is stack' state' k e := by
  simp only [RaisesAt, reach, h, List.getElem?_cons_succ]

/-- A run ends with the first error that is raised. -/
theorem run_of_raisesAt (h : RaisesAt table code is stack state k e) :
    (run table code is stack state).1 = .error e := by
  induction is generalizing stack state k with
  | nil =>
    obtain ⟨i, _, _, _, hi, -⟩ := h
    cases hi
  | cons i is ih =>
    cases hstep : step table code i stack state with
    | next stack' state' =>
      simp only [run, hstep]
      cases k with
      | zero => exact absurd h (not_raisesAt_zero hstep)
      | succ k => exact ih ((raisesAt_succ hstep).mp h)
    | finish result state' =>
      simp only [run, hstep]
      obtain ⟨_, _, _, _, hi, hreach, herror⟩ := h
      cases k with
      | zero =>
        cases hi
        cases hreach
        rw [hstep] at herror
        cases herror
        rfl
      | succ k => simp [reach, hstep] at hreach

/-- The scan found a fault at some place, and nothing before it raises an error. -/
def MalformedAt (table : BuiltinTable) (code : Code) (is : List Instr) (stack : List Value)
    (state : State) (k : Nat) (fault : CodeFault) : Prop :=
  code.scanFrom is stack.length = some (k, fault) ∧
    ∀ j < k, ∀ e, ¬ RaisesAt table code is stack state j e

/-- What is malformed at the front is reported at once. -/
theorem malformedAt_zero {fault : CodeFault} (h : code.fault? i stack.length = some fault) :
    MalformedAt table code (i :: is) stack state 0 fault :=
  ⟨Code.scanFrom_of_fault h, fun _ hj => absurd hj (Nat.not_lt_zero _)⟩

/-- A step that goes on as the scan expects moves the fault one place towards the front. -/
theorem malformedAt_succ {stack' : List Value} {state' : State} {fault : CodeFault}
    (hfits : code.fault? i stack.length = none) (hret : i ≠ .ret)
    (hstep : step table code i stack state = .next stack' state')
    (hlength : stack'.length = i.depthAfter stack.length) :
    MalformedAt table code (i :: is) stack state (k + 1) fault ↔
      MalformedAt table code is stack' state' k fault := by
  have hscan : code.scanFrom (i :: is) stack.length = some (k + 1, fault) ↔
      code.scanFrom is stack'.length = some (k, fault) := by
    rw [Code.scanFrom_of_fits hfits hret, ← hlength]
    simp [Option.map_eq_some_iff, Prod.ext_iff]
  have hbefore : (∀ j < k + 1, ∀ e, ¬ RaisesAt table code (i :: is) stack state j e) ↔
      ∀ j < k, ∀ e, ¬ RaisesAt table code is stack' state' j e := by
    constructor
    · intro h j hj e he
      exact h (j + 1) (Nat.succ_lt_succ hj) e ((raisesAt_succ hstep).mpr he)
    · intro h j hj e he
      cases j with
      | zero => exact not_raisesAt_zero hstep he
      | succ j => exact h j (Nat.lt_of_succ_lt_succ hj) e ((raisesAt_succ hstep).mp he)
  exact and_congr hscan hbefore

/-- **A fault that the scan found is reported**, unless an error comes first. -/
theorem run_of_malformedAt {fault : CodeFault}
    (h : MalformedAt table code is stack state k fault) :
    (run table code is stack state).1 = .error (.invalidCode code.filename fault) := by
  induction is generalizing stack state k with
  | nil =>
    cases h.1
    rfl
  | cons i is ih =>
    cases hfault : code.fault? i stack.length with
    | some found =>
      have hscan := h.1
      rw [Code.scanFrom_of_fault hfault] at hscan
      cases hscan
      simp only [run, step_of_fault hfault]
      rfl
    | none =>
      by_cases hret : i = .ret
      · subst hret
        have hscan := h.1
        simp [Code.scanFrom, hfault] at hscan
      · have hk : ∃ j, k = j + 1 := by
          have hscan := h.1
          rw [Code.scanFrom_of_fits hfault hret, Option.map_eq_some_iff] at hscan
          obtain ⟨found, -, hfound⟩ := hscan
          exact ⟨found.1, (congrArg Prod.fst hfound).symm⟩
        obtain ⟨j, rfl⟩ := hk
        rcases step_of_fits table state hfault hret with ⟨stack', state', hstep, hlength⟩ |
          ⟨e, state', hstep, -⟩
        · simp only [run, hstep]
          exact ih ((malformedAt_succ hfault hret hstep hlength).mp h)
        · exact absurd (raisesAt_zero hstep) (h.2 0 (Nat.succ_pos j) e)

/-- **Nothing else is reported**: an error about malformed code comes from a fault that the scan
finds, or a builtin returned it. -/
theorem malformedAt_or_raises (h : (run table code is stack state).1 = .error e)
    (hkind : e.kind = .invalidCode) :
    (∃ k fault, MalformedAt table code is stack state k fault ∧
      e = .invalidCode code.filename fault) ∨
    ∃ k, RaisesAt table code is stack state k e ∧ table.Raises e := by
  induction is generalizing stack state with
  | nil =>
    cases h
    exact .inl ⟨0, .noReturn, ⟨rfl, fun _ hj => absurd hj (Nat.not_lt_zero _)⟩, rfl⟩
  | cons i is ih =>
    cases hfault : code.fault? i stack.length with
    | some fault =>
      simp only [run, step_of_fault hfault, malformed] at h
      cases h
      exact .inl ⟨0, fault, malformedAt_zero hfault, rfl⟩
    | none =>
      by_cases hret : i = .ret
      · subst hret
        have hdepth := (Code.fault?_eq_none_iff.mp hfault).1
        match stack, hdepth with
        | v :: rest, _ => cases h
      · rcases step_of_fits table state hfault hret with ⟨stack', state', hstep, hlength⟩ |
          ⟨e', state', hstep, hexcuse⟩
        · simp only [run, hstep] at h
          rcases ih h with ⟨k, fault, hmalformed, he⟩ | ⟨k, hraises, htable⟩
          · exact .inl ⟨k + 1, fault,
              (malformedAt_succ hfault hret hstep hlength).mpr hmalformed, he⟩
          · exact .inr ⟨k + 1, (raisesAt_succ hstep).mpr hraises, htable⟩
        · simp only [run, hstep] at h
          cases h
          exact .inr ⟨0, raisesAt_zero hstep, hexcuse hkind⟩

/-! ## Behind a return -/

/-- Of the code only the tables and the name matter for a step. -/
theorem step_instructions (others : List Instr) :
    step table { code with instructions := others } i stack state =
      step table code i stack state := by
  cases i <;> rfl

/-- Instructions behind a return make no difference. -/
theorem run_behind_ret (before behind behind' others others' : List Instr) :
    run table { code with instructions := others } (before ++ .ret :: behind) stack state =
      run table { code with instructions := others' } (before ++ .ret :: behind') stack state := by
  induction before generalizing stack state with
  | nil => cases stack <;> rfl
  | cons i before ih =>
    simp only [List.cons_append, run, step_instructions]
    cases step table code i stack state with
    | next stack' state' => exact ih
    | finish result state' => rfl

end Machine

/-! ## Malformed code -/

/-- **Malformed code is detected exactly, and by the code alone.**  Say that some code is
executed and the sink can be flushed at the end.

* An error about malformed code is returned exactly if the scan finds that fault at some place
  and no instruction before that place raises an error --- or if a builtin returns the error.
* If no builtin of the table does so, such an error is returned exactly if the scan finds a
  fault and no instruction before it raises an error.
* If the scan finds nothing, no such error is returned, whatever the values are, unless a
  builtin returns it.
* What stands behind a return has no influence on result, output or bindings. -/
theorem execute_malformed_iff_scan {table : BuiltinTable} {code : Code} {state : State}
    (hflush : (Machine.run table code code.instructions [] state).2.sink.flush.1 = .ok ()) :
    (∀ e, e.kind = .invalidCode →
      ((Machine.execute table code state).1 = .error e ↔
        (∃ k fault, code.scan = some (k, fault) ∧ e = .invalidCode code.filename fault ∧
          ∀ j < k, ∀ e', ¬ Machine.RaisesAt table code code.instructions [] state j e') ∨
        ∃ k, Machine.RaisesAt table code code.instructions [] state k e ∧ table.Raises e)) ∧
    ((∀ e, table.Raises e → e.kind ≠ .invalidCode) →
      ((∃ e, (Machine.execute table code state).1 = .error e ∧ e.kind = .invalidCode) ↔
        ∃ k fault, code.scan = some (k, fault) ∧
          ∀ j < k, ∀ e, ¬ Machine.RaisesAt table code code.instructions [] state j e)) ∧
    (code.scan = none →
      ∀ e, (Machine.execute table code state).1 = .error e → e.kind = .invalidCode →
        table.Raises e) ∧
    (∀ before behind behind',
      Machine.execute table { code with instructions := before ++ .ret :: behind } state =
        Machine.execute table { code with instructions := before ++ .ret :: behind' } state) := by
  have hexecute : (Machine.execute table code state).1 =
      (Machine.run table code code.instructions [] state).1 := by
    simp only [Machine.execute, Machine.flushed]
    split
    · rfl
    · next reason sink heq =>
      rw [heq] at hflush
      cases hflush
  have hexact : ∀ e, e.kind = .invalidCode →
      ((Machine.execute table code state).1 = .error e ↔
        (∃ k fault, code.scan = some (k, fault) ∧ e = .invalidCode code.filename fault ∧
          ∀ j < k, ∀ e', ¬ Machine.RaisesAt table code code.instructions [] state j e') ∨
        ∃ k, Machine.RaisesAt table code code.instructions [] state k e ∧ table.Raises e) := by
    intro e hkind
    rw [hexecute]
    constructor
    · intro herror
      rcases Machine.malformedAt_or_raises herror hkind with
        ⟨k, fault, ⟨hscan, hbefore⟩, he⟩ | hraises
      · exact .inl ⟨k, fault, hscan, he, hbefore⟩
      · exact .inr hraises
    · rintro (⟨k, fault, hscan, rfl, hbefore⟩ | ⟨k, hraises, -⟩)
      · exact Machine.run_of_malformedAt ⟨hscan, hbefore⟩
      · exact Machine.run_of_raisesAt hraises
  refine ⟨hexact, fun hhonest => ⟨?_, ?_⟩, ?_, ?_⟩
  · rintro ⟨e, herror, hkind⟩
    rcases (hexact e hkind).mp herror with ⟨k, fault, hscan, -, hbefore⟩ | ⟨k, -, hraises⟩
    · exact ⟨k, fault, hscan, hbefore⟩
    · exact absurd hkind (hhonest e hraises)
  · rintro ⟨k, fault, hscan, hbefore⟩
    exact ⟨_, (hexact _ rfl).mpr (.inl ⟨k, fault, hscan, rfl, hbefore⟩), rfl⟩
  · intro hscan e herror hkind
    rcases (hexact e hkind).mp herror with ⟨k, fault, hfound, -⟩ | ⟨k, -, hraises⟩
    · rw [hscan] at hfound
      cases hfound
    · exact hraises
  · intro before behind behind'
    simp only [Machine.execute]
    rw [Machine.run_behind_ret before behind behind']

/-- Code that prints, and then calls with more arguments than there can be values; behind its
return an operand points nowhere. -/
def Code.overdrawn : Code where
  filename := "t"
  constants := [.int 1]
  names := ["print"]
  instructions := [.loadName 0, .loadConst 0, .call 1, .call 0xffffffff, .ret, .loadConst 7]

theorem execute_malformed_iff_scan_overdrawn :
    Code.overdrawn.scan = some (3, .callUnderflow 0xffffffff) ∧
      (Machine.execute .standard .overdrawn ⟨.initial "__main__" "t", {}⟩).1 =
        .error (.invalidCode "t" (.callUnderflow 0xffffffff)) ∧
      ∀ j < 3, ∀ e, ¬ Machine.RaisesAt .standard .overdrawn Code.overdrawn.instructions []
        ⟨.initial "__main__" "t", {}⟩ j e := by
  have hscan : Code.overdrawn.scan = some (3, .callUnderflow 0xffffffff) := rfl
  have herror : (Machine.execute .standard .overdrawn ⟨.initial "__main__" "t", {}⟩).1 =
      .error (.invalidCode "t" (.callUnderflow 0xffffffff)) := rfl
  obtain ⟨-, hiff, -, -⟩ := @execute_malformed_iff_scan .standard .overdrawn
    ⟨.initial "__main__" "t", {}⟩ rfl
  obtain ⟨k, fault, hfound, hbefore⟩ :=
    (hiff fun e he => BuiltinTable.kind_ne_of_raises_standard he).mp ⟨_, herror, rfl⟩
  rw [hscan] at hfound
  cases hfound
  exact ⟨hscan, herror, hbefore⟩

end StackScript
