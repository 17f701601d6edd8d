import StackScript.Code.Listing
import StackScript.CommandLine.Report

/-!
# Carrying out commands

A command works in a session of its own, under the configuration that is asked for or that
is found from the directory of its target upwards.  Programs print to the standard output;
an error is reported on the standard error output, and what was printed before it stays
printed.

The exit status is `0`, or `1` after an error, or `2` if the arguments make no sense.
-/

namespace StackScript

/-- Why a command failed. -/
inductive CommandError where
  /-- There is no configuration. -/
  | config (e : ConfigError)
  /-- The script cannot be loaded. -/
  | load (e : LoadError)
  /-- The session reports an error. -/
  | session (e : SessionError)
  deriving DecidableEq

/-- The wording of an error. -/
def CommandError.message : CommandError → String
  | .config e => e.message
  | .load e => e.message
  | .session e => e.message

/-- What a command leaves behind, apart from files. -/
structure Outcome where
  /-- The exit status. -/
  exit : UInt32
  /-- What goes to the standard output. -/
  out : String
  /-- What goes to the standard error output. -/
  err : String
  deriving DecidableEq, Repr

/-- Work on a command. -/
abbrev CommandM := ExceptT CommandError (StateT Session FileM)

namespace Command

/-- The file that a command is about. -/
def target? : Command → Option Path
  | .run script => some script
  | .compile script _ _ => some script
  | .exec container => some container
  | .dis script => some script
  | .version => none

/-- The version of the program. -/
def programVersion : String := "pyrite 0.1.0"

/-- Load a script. -/
def load (p : Path) : CommandM SourceUnit :=
  ExceptT.mk fun s => do
    let result ← SourceUnit.load p
    pure (result.mapError .load, s)

/-- Let the session do something. -/
def inSession {α : Type} (m : SessionM α) : CommandM α :=
  m.adapt .session

/-- Carry out a command in a session; the result is what is printed at the end. -/
def work : Command → CommandM String
  | .run script => do
      let u ← load script
      let _ ← inSession (SessionM.runSource u)
      return ""
  | .compile script none format => do
      let written ← inSession (SessionM.compileFile script)
      return Report.render script written format ++ "\n"
  | .compile script (some dir) format => do
      let written ← inSession (SessionM.compileFileIn script dir)
      return Report.render script written format ++ "\n"
  | .exec container => do
      let _ ← inSession (SessionM.runContainerFile container)
      return ""
  | .dis script => do
      let u ← load script
      let code ← inSession (SessionM.compile u)
      return code.listing
  | .version => return s!"{programVersion} ({implementationTag})\n"

/-- Where the search for the configuration starts: in the directory of the target, as it is
spelled, or in the current directory. -/
def searchStart (current target : Path) : Path :=
  match target.parent? with
  | none => current
  | some dir => if dir.text = "" then current else dir

/-- The configuration of a command. -/
def configuration (current : Path) (options : CommonOptions) (c : Command) :
    FileM (Except ConfigError Config) :=
  match c.target? with
  | none => return .ok {}
  | some target => Config.resolve options.config (searchStart current target)

/-- The report of an error. -/
def failed (out : String) (e : CommandError) : Outcome :=
  ⟨1, out, s!"error: {e.message}\n"⟩

/-- Carry out a command. -/
def perform (current : Path) (i : Invocation) : FileM Outcome := do
  match ← configuration current i.options i.command with
  | .error e => return failed "" (.config e)
  | .ok config =>
      let (result, session) ← StateT.run (ExceptT.run i.command.work) ({ config } : Session)
      match result with
      | .error e => return failed session.sink.written e
      | .ok out => return ⟨0, session.sink.written ++ out, ""⟩

end Command

namespace CommandLine

/-- How the program is used. -/
def usage : String :=
  "\n".intercalate
    ["Usage: pyrite [OPTIONS] <COMMAND>",
      "",
      "Commands:",
      "  run <SCRIPT>      Compile and execute a script",
      "  compile <SCRIPT>  Compile a script and write its bytecode container",
      "  exec <CONTAINER>  Execute a bytecode container without its source",
      "  dis <SCRIPT>      Print the compiled bytecode of a script",
      "  version           Print version information",
      "  help              Print this message",
      "",
      "Options:",
      "  -q, --quiet            Suppress all diagnostics except errors",
      "  -v, --verbose          Enable verbose diagnostics",
      "      --config <CONFIG>  Path to a configuration file",
      "  -h, --help             Print help",
      "  -V, --version          Print version",
      ""]

/-- Answer a command line. -/
def respond (current : Path) (arguments : List String) : FileM Outcome :=
  match parse arguments with
  | .ok i => Command.perform current i
  | .error .help => return ⟨0, usage, ""⟩
  | .error .version => return ⟨0, Command.programVersion ++ "\n", ""⟩
  | .error .misuse => return ⟨2, "", "error: invalid arguments\n\n" ++ usage⟩

end CommandLine

end StackScript
