import StackScript.Naming
import StackScript.Session.Basic
import StackScript.Wire.Container

/-!
# What can be done in a session

Scripts and containers are run, and compiled scripts are written to containers.  An
operation changes the session and uses files, and it stops at the first error; what it did
until then stays done.

A container is run as it is: nothing is parsed, and the cache plays no part.  Its program
is told where the container came from, and not where its source was.
-/

namespace StackScript

/-- Why an operation failed. -/
inductive SessionError where
  /-- A script was not compiled. -/
  | compile (e : CompileError)
  /-- A container cannot be written or read. -/
  | container (path : Path) (e : ContainerError)
  /-- A file operation failed. -/
  | file (path : Path) (e : FileError)
  /-- A program failed. -/
  | runtime (e : RuntimeError)
  deriving DecidableEq

namespace SessionError

/-- The wording of an error. -/
def message : SessionError → String
  | .compile e => e.message
  | .container path e => s!"{path.text}: {e.message}"
  | .file path e => s!"cannot access {path.text}: {e.message}"
  | .runtime e => e.message

/-- The path that an error is about. -/
def path? : SessionError → Option Path
  | .compile _ => none
  | .container path _ => some path
  | .file path _ => some path
  | .runtime _ => none

end SessionError

/-- A container that was written. -/
structure WrittenContainer where
  /-- Where it was written. -/
  path : Path
  /-- Its header. -/
  header : Header
  deriving DecidableEq, Repr

/-- Operations of a session. -/
abbrev SessionM := ExceptT SessionError (StateT Session FileM)

namespace SessionM

/-- A step that uses no files. -/
def ofStep {ε α : Type} (wrap : ε → SessionError) (step : Session → Except ε α × Session) :
    SessionM α :=
  ExceptT.mk fun s =>
    let (result, s) := step s
    pure (result.mapError wrap, s)

/-- A program that leaves the session alone. -/
def ofFiles {ε α : Type} (wrap : ε → SessionError) (m : FileM (Except ε α)) : SessionM α :=
  ExceptT.mk fun s => do
    let result ← m
    pure (result.mapError wrap, s)

/-- The container options of the session. -/
def containerOptions : SessionM ContainerOptions := do
  return (← get).config.container

/-- Compile a script. -/
def compile (u : SourceUnit) : SessionM Code :=
  ofStep .compile fun s => s.compile u

/-- Run code. -/
def execute (code : Code) (origin : String) : SessionM Value :=
  ofStep .runtime fun s => s.execute code origin

/-- Load a script. -/
def load (p : Path) : SessionM SourceUnit :=
  ofFiles (fun e => .file e.path e.cause) (SourceUnit.load p)

/-! ## Running -/

/-- Compile and run a script. -/
def runSource (u : SourceUnit) : SessionM Value := do
  let code ← compile u
  execute code u.identifier

/-- Load and run a script. -/
def runFile (p : Path) : SessionM Value := do
  let u ← load p
  runSource u

/-- Run a container. -/
def runContainer (bytes : List UInt8) (origin : Path) : SessionM Value :=
  match Container.decode Code.format bytes with
  | .error e => throw (.container origin e)
  | .ok c => execute c.artifact origin.text

/-- Read and run a container. -/
def runContainerFile (p : Path) : SessionM Value := do
  let bytes ← ofFiles (.file p) (FileM.request (.read p))
  runContainer bytes p

/-! ## Writing containers -/

/-- The directory of a file. -/
def directoryOf (p : Path) : Path :=
  match p.parent? with
  | none => ⟨"."⟩
  | some dir => if dir.text = "" then ⟨"."⟩ else dir

/-- Write a container. -/
def write (p : Path) (code : Code) (stat : SourceStat) : SessionM WrittenContainer :=
  match Container.encode Code.format code stat.mtime stat.size with
  | .error e => throw (.container p e)
  | .ok bytes => do
      ofFiles (fun e => .file e.1 e.2) (FileM.replace (directoryOf p) p bytes)
      return ⟨p, .ofStat stat.mtime stat.size⟩

/-- Write the container of a script beside it. -/
def persist (u : SourceUnit) (code : Code) (stat : SourceStat) : SessionM WrittenContainer := do
  let options ← containerOptions
  write (options.containerPath ⟨u.identifier⟩) code stat

/-- Write the container of a script into a directory. -/
def persistIn (dir : Path) (u : SourceUnit) (code : Code) (stat : SourceStat) :
    SessionM WrittenContainer := do
  let options ← containerOptions
  write (dir.join ⟨options.containerName ⟨u.identifier⟩⟩) code stat

/-- Load and compile a script, and write its container beside it. -/
def compileFile (p : Path) : SessionM WrittenContainer := do
  let u ← load p
  let code ← compile u
  persist u code u.recorded

/-- Load and compile a script, and write its container into a directory. -/
def compileFileIn (p dir : Path) : SessionM WrittenContainer := do
  let u ← load p
  let code ← compile u
  persistIn dir u code u.recorded

end SessionM

end StackScript
