import StackScript.Code.Basic
import StackScript.Machine.Environment

/-!
# The stack machine

Code has no jumps, so a run is a walk along its instructions: `step` says what one
instruction does to the stack and to the state, and `run` goes from one to the next until
one of them finishes the run or there are none left.  The stack is a list with its top in
front.

What a program can change is its bindings and the sink; they are the state, and they keep
everything that happened before an error.

The machine checks its code as it goes.  An operand that points outside its table, an
empty stack, or a missing return is reported as malformed code at the instruction where
it is met, and not before.
-/

namespace StackScript

/-- What a running program can change. -/
structure State where
  /-- The bindings. -/
  globals : Globals
  /-- The output. -/
  sink : Sink

namespace Machine

/-- What one instruction leads to. -/
inductive Step where
  /-- Go on with this stack and this state. -/
  | next (stack : List Value) (state : State)
  /-- The run is over. -/
  | finish (result : Except RuntimeError Value) (state : State)

/-- The value of a binary operator; builtins are no operands. -/
def binary (op : BinaryOp) : Value → Value → Except RuntimeError Value
  | .data a, .data b =>
      match Arithmetic.binary op a b with
      | .ok c => .ok (.data c)
      | .error e => .error (.arithmetic e)
  | left, right =>
      .error (.arithmetic (.unsupportedOperands op.symbol left.typeName right.typeName))

/-- The value of a prefix operator; builtins are no operands. -/
def unary (op : UnaryOp) : Value → Except RuntimeError Value
  | .data a =>
      match Arithmetic.unary op a with
      | .ok c => .ok (.data c)
      | .error e => .error (.arithmetic e)
  | operand => .error (.arithmetic (.unsupportedOperand op.symbol operand.typeName))

/-- Call a value. -/
def apply (table : BuiltinTable) (callee : Value) (args : List Value) (sink : Sink) :
    Except RuntimeError Value × Sink :=
  match callee with
  | .builtin name => table.function name sink args
  | .data c => (.error (.notCallable c.typeName), sink)

/-- Push a value, or stop with an error. -/
def push (stack : List Value) (state : State) : Except RuntimeError Value → Step
  | .ok v => .next (v :: stack) state
  | .error e => .finish (.error e) state

/-- Stop because the code is malformed. -/
def malformed (code : Code) (fault : CodeFault) (state : State) : Step :=
  .finish (.error (.invalidCode code.filename fault)) state

/-- What one instruction does. -/
def step (table : BuiltinTable) (code : Code) (i : Instr) (stack : List Value) (state : State) :
    Step :=
  match i with
  | .loadConst index =>
      match code.constant? index with
      | some c => .next (.data c :: stack) state
      | none => malformed code (.constantIndex index) state
  | .loadName index =>
      match code.name? index with
      | some name =>
          match state.globals.lookup? table name with
          | some v => .next (v :: stack) state
          | none => .finish (.error (.unbound name)) state
      | none => malformed code (.nameIndex index) state
  | .storeName index =>
      match stack with
      | v :: stack =>
          match code.name? index with
          | some name => .next stack { state with globals := state.globals.set name v }
          | none => malformed code (.nameIndex index) state
      | [] => malformed code .underflow state
  | .binary op =>
      match stack with
      | right :: left :: stack => push stack state (binary op left right)
      | _ => malformed code .underflow state
  | .unary op =>
      match stack with
      | operand :: stack => push stack state (unary op operand)
      | [] => malformed code .underflow state
  | .call count =>
      match stack.drop count.toNat with
      | callee :: rest =>
          let (result, sink) := apply table callee (stack.take count.toNat).reverse state.sink
          push rest { state with sink } result
      | [] => malformed code (.callUnderflow count) state
  | .pop =>
      match stack with
      | _ :: stack => .next stack state
      | [] => malformed code .underflow state
  | .ret =>
      match stack with
      | v :: _ => .finish (.ok v) state
      | [] => malformed code .underflow state

/-- Run instructions one after the other. -/
def run (table : BuiltinTable) (code : Code) :
    List Instr → List Value → State → Except RuntimeError Value × State
  | [], _, state => (.error (.invalidCode code.filename .noReturn), state)
  | i :: is, stack, state =>
      match step table code i stack state with
      | .next stack state => run table code is stack state
      | .finish result state => (result, state)

/-- The end of a run: the output is flushed, and a failure to flush hides the result. -/
def flushed (result : Except RuntimeError Value) (state : State) :
    Except RuntimeError Value × State :=
  match state.sink.flush with
  | (.ok (), sink) => (result, { state with sink })
  | (.error reason, sink) => (.error (.output reason), { state with sink })

/-- Execute code from an empty stack, and flush the output. -/
def execute (table : BuiltinTable) (code : Code) (state : State) :
    Except RuntimeError Value × State :=
  let (result, state) := run table code code.instructions [] state
  flushed result state

end Machine

end StackScript
