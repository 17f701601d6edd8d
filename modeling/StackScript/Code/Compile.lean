import StackScript.Code.Lower
import StackScript.Optimize.Options

/-!
# From a script to code

A script is optimised, lowered and, if the switch is on, given to the pass over compiled
code.  How it is lowered can be chosen; `Script.compile` takes the usual way.
-/

namespace StackScript.Script

/-- The code of a script, lowered in a given way. -/
def compileWith (lower : String → Script → Except LowerError Code) (options : OptimizeOptions)
    (filename : String) (s : Script) : Except LowerError Code :=
  match lower filename (s.optimize options) with
  | .error e => .error e
  | .ok code => .ok (if options.peephole then code.peephole else code)

/-- The code of a script. -/
def compile (options : OptimizeOptions) (filename : String) (s : Script) :
    Except LowerError Code :=
  s.compileWith (fun filename s => s.lower filename) options filename

end StackScript.Script
