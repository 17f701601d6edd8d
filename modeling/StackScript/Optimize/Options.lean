import StackScript.Optimize.Deep
import StackScript.Optimize.Shallow

/-!
# Which passes run

The two passes over the tree can be switched on and off separately; when both run, the
cheap one goes first.  The third switch belongs to the pass over compiled code, which
leaves the code as it is.
-/

namespace StackScript

/-- The switches of the optimiser. -/
structure OptimizeOptions where
  /-- Fold outermost literal pairs. -/
  constantFolding : Bool := true
  /-- Run the pass over compiled code. -/
  peephole : Bool := true
  /-- Fold from the inside out. -/
  deepFolding : Bool := false
  deriving DecidableEq, Repr

/-- Everything switched off. -/
def OptimizeOptions.off : OptimizeOptions := ⟨false, false, false⟩

/-- A script after the passes over the tree. -/
def Script.optimize (options : OptimizeOptions) (s : Script) : Script :=
  let s := if options.constantFolding then s.foldPairs else s
  if options.deepFolding then s.foldDeep.1 else s

end StackScript
