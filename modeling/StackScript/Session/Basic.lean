import StackScript.Code.Compile
import StackScript.Config
import StackScript.Machine.Run
import StackScript.Script.Parser
import StackScript.SourceUnit

/-!
# Sessions

A session compiles and runs scripts under one configuration.  It keeps what it compiled,
so that the same text under the same name is compiled once; it counts how often it ran
each stage of the compiler; and it collects what the programs print.

A text is parsed, optimised, lowered and, if the switch is on, passed to the pass over
compiled code.  A failure on the way leaves nothing in the cache.  Every program runs with
bindings of its own, so nothing of one run is seen by the next.

How a script is lowered is part of the session, which makes it possible to see what a
failure to lower leads to.
-/

namespace StackScript

/-- How often each stage of the compiler was run. -/
structure StageCount where
  /-- Texts parsed. -/
  parses : Nat := 0
  /-- Scripts lowered. -/
  lowerings : Nat := 0
  /-- Pieces of code given to the last pass. -/
  peepholes : Nat := 0
  deriving DecidableEq, Repr

/-- Two counts together. -/
def StageCount.add (a b : StageCount) : StageCount :=
  ⟨a.parses + b.parses, a.lowerings + b.lowerings, a.peepholes + b.peepholes⟩

instance : Add StageCount := ⟨StageCount.add⟩

/-- Why a text was not compiled. -/
inductive CompileError where
  /-- It is no script. -/
  | invalid (identifier : String) (e : SyntaxError)
  /-- The script cannot be lowered. -/
  | notLowered (e : LowerError)
  deriving DecidableEq

namespace CompileError

/-- The wording of the cause. -/
def cause : CompileError → String
  | .invalid identifier e => e.message identifier
  | .notLowered e => e.message

/-- The wording of a compile error. -/
def message : CompileError → String
  | .invalid identifier e => s!"syntax error: {e.message identifier}"
  | .notLowered e => s!"cannot lower: {e.message}"

end CompileError

/-- A session. -/
structure Session where
  /-- The configuration. -/
  config : Config := {}
  /-- How a script under a name is lowered. -/
  lower : String → Script → Except LowerError Code := fun filename s => s.lower filename
  /-- The builtins of its programs. -/
  builtins : BuiltinTable := .standard
  /-- What was compiled. -/
  cache : Cache Code := {}
  /-- How often each stage was run. -/
  stages : StageCount := {}
  /-- What programs printed. -/
  sink : Sink := {}

namespace Session

/-- Compile a script, and count the stages that were run. -/
def build (s : Session) (u : SourceUnit) : Except CompileError Code × StageCount :=
  match Script.ofText u.text with
  | .error e => (.error (.invalid u.identifier e), ⟨1, 0, 0⟩)
  | .ok script =>
      match script.compileWith s.lower s.config.optimize u.identifier with
      | .error e => (.error (.notLowered e), ⟨1, 1, 0⟩)
      | .ok code => (.ok code, ⟨1, 1, if s.config.optimize.peephole then 1 else 0⟩)

/-- Compile a script unless it has been compiled before. -/
def compile (s : Session) (u : SourceUnit) : Except CompileError Code × Session :=
  match s.cache.lookup u.key with
  | (some code, cache) => (.ok code, { s with cache })
  | (none, cache) =>
      match s.build u with
      | (.error e, used) => (.error e, { s with cache, stages := s.stages + used })
      | (.ok code, used) =>
          let (code, cache) := cache.store u.key code
          (.ok code, { s with cache, stages := s.stages + used })

/-- The name that every program runs under. -/
def mainModule : String := "__main__"

/-- Run code with fresh bindings. -/
def execute (s : Session) (code : Code) (origin : String) :
    Except RuntimeError Value × Session :=
  let (result, state) := Machine.execute s.builtins code
    { globals := .initial mainModule origin, sink := s.sink }
  (result, { s with sink := state.sink })

end Session

end StackScript
