import StackScript.Path

/-!
# Arguments of the command line

Arguments are read from left to right.  The first level has options that concern every
command; then comes the name of a command, and what follows is its own level, with the
options of the command, the common ones once more, and at most one operand.

* `--name` is an option, and `--name=value` an option with its value attached.
* `-abc` is three options; the first of them that takes a value takes all that follows,
  less an equals sign in front.
* An option whose value is not attached takes the next argument, unless that looks like an
  option itself.
* After `--` everything is an operand.

On one level an option may be given once.  What is given on the inner level counts, where
both have it.

An option whose value is the next argument is settled only when the next option or operand
of its level comes, or at the end of the level; that is when a repetition or a bad value is
noticed.  Help and version are asked for on the spot, unless something is noticed before.
-/

namespace StackScript

/-- How a written container is reported. -/
inductive ReportFormat where
  /-- The path alone. -/
  | text
  /-- An object with the path and the fields of the header. -/
  | json
  deriving DecidableEq, Repr

/-- What can be asked for. -/
inductive Command where
  /-- Run a script. -/
  | run (script : Path)
  /-- Write the container of a script. -/
  | compile (script : Path) (outputDir : Option Path) (format : ReportFormat)
  /-- Run a container. -/
  | exec (container : Path)
  /-- Print the code of a script. -/
  | dis (script : Path)
  /-- Print the version. -/
  | version
  deriving DecidableEq, Repr

/-- Options that concern every command. -/
structure CommonOptions where
  /-- Report errors only. -/
  quiet : Bool
  /-- Report more than usual. -/
  verbose : Bool
  /-- The configuration to use. -/
  config : Option Path
  deriving DecidableEq, Repr

/-- What a command line asks for. -/
structure Invocation where
  /-- The common options. -/
  options : CommonOptions
  /-- The command. -/
  command : Command
  deriving DecidableEq, Repr

namespace CommandLine

/-- Why arguments describe no command. -/
inductive Stop where
  /-- Help is asked for. -/
  | help
  /-- The version of the program is asked for. -/
  | version
  /-- They make no sense. -/
  | misuse
  deriving DecidableEq, Repr

/-! ## Names -/

/-- The names of commands. -/
inductive Verb where
  | run
  | compile
  | exec
  | dis
  | version
  deriving DecidableEq, Repr

/-- The words that a command line can have in the place of a command. -/
inductive Topic where
  /-- A command. -/
  | verb (v : Verb)
  /-- Help about a command. -/
  | help
  deriving DecidableEq, Repr

/-- The word that an argument is. -/
def Topic.ofText? : String → Option Topic
  | "run" => some (.verb .run)
  | "compile" => some (.verb .compile)
  | "exec" => some (.verb .exec)
  | "dis" => some (.verb .dis)
  | "version" => some (.verb .version)
  | "help" => some .help
  | _ => none

/-- The options. -/
inductive Opt where
  | quiet
  | verbose
  | config
  | outputDir
  | format
  | help
  | version
  deriving DecidableEq, Repr

/-- The option of a name. -/
def Opt.ofLong? : String → Option Opt
  | "quiet" => some .quiet
  | "verbose" => some .verbose
  | "config" => some .config
  | "output-dir" => some .outputDir
  | "format" => some .format
  | "help" => some .help
  | "version" => some .version
  | _ => none

/-- The option of a letter. -/
def Opt.ofShort? : Char → Option Opt
  | 'q' => some .quiet
  | 'v' => some .verbose
  | 'o' => some .outputDir
  | 'f' => some .format
  | 'h' => some .help
  | 'V' => some .version
  | _ => none

/-- Whether an option takes a value. -/
def Opt.takesValue : Opt → Bool
  | .config | .outputDir | .format => true
  | _ => false

/-- The format of a name. -/
def formatOfText? : String → Option ReportFormat
  | "text" => some .text
  | "json" => some .json
  | _ => none

/-- Whether an option takes this value. -/
def Opt.accepts : Opt → String → Bool
  | .format, value => (formatOfText? value).isSome
  | _, _ => true

/-- A level of the command line: the outer one, or that of a command. -/
abbrev Level := Option Verb

/-- Whether a level has an option. -/
def Level.has (level : Level) : Opt → Bool
  | .quiet | .verbose | .config | .help => true
  | .version => level = none
  | .outputDir | .format => level = some .compile

/-- How many operands a level takes. -/
def Level.operands (level : Level) : Nat :=
  match level with
  | none | some .version => 0
  | some _ => 1

/-! ## What has been read -/

/-- What has been read on one level. -/
structure Seen where
  /-- The options without value. -/
  flags : List Opt := []
  /-- The options with their values. -/
  values : List (Opt × String) := []
  /-- The operands. -/
  operands : List String := []
  /-- An option that is not settled yet; its value may still be to come. -/
  pending : Option (Opt × Option String) := none

namespace Seen

/-- Whether the next argument is to be a value. -/
def isWaiting (s : Seen) : Bool :=
  match s.pending with
  | some (_, none) => true
  | _ => false

/-- Enter an option with its value. -/
def enter (o : Opt) (value : String) (s : Seen) : Except Stop Seen :=
  if (s.values.lookup o).isSome || !o.accepts value then .error .misuse
  else .ok { s with values := (o, value) :: s.values }

/-- Settle what is pending. -/
def settle (s : Seen) : Except Stop Seen :=
  match s.pending with
  | none => .ok s
  | some (_, none) => .error .misuse
  | some (o, some value) => enter o value { s with pending := none }

/-- An option without value. -/
def raise (o : Opt) (s : Seen) : Except Stop Seen := do
  let s ← s.settle
  match o with
  | .help => .error .help
  | .version => .error .version
  | o => if s.flags.contains o then .error .misuse else .ok { s with flags := o :: s.flags }

/-- An option with its value attached. -/
def attach (o : Opt) (value : String) (s : Seen) : Except Stop Seen := do
  let s ← s.settle
  s.enter o value

/-- An option whose value is to come. -/
def await (o : Opt) (s : Seen) : Except Stop Seen := do
  let s ← s.settle
  .ok { s with pending := some (o, none) }

/-- The value of the option that waits for one. -/
def receive (value : String) (s : Seen) : Seen :=
  { s with pending := s.pending.map fun p => (p.1, some value) }

/-- An operand. -/
def operand (level : Level) (value : String) (s : Seen) : Except Stop Seen := do
  let s ← s.settle
  if s.operands.length < level.operands then
    .ok { s with operands := s.operands ++ [value] }
  else
    .error .misuse

/-- An option by its name. -/
def long (level : Level) (name : String) (value : Option String) (s : Seen) : Except Stop Seen :=
  match (Opt.ofLong? name).filter level.has with
  | none => .error .misuse
  | some o =>
      match o.takesValue, value with
      | true, some value => s.attach o value
      | true, none => s.await o
      | false, some _ => .error .misuse
      | false, none => s.raise o

/-- Options by their letters. -/
def short (level : Level) : List Char → Seen → Except Stop Seen
  | [], s => .ok s
  | c :: cs, s =>
      match (Opt.ofShort? c).filter level.has with
      | none => .error .misuse
      | some o =>
          if o.takesValue then
            match cs with
            | [] => s.await o
            | '=' :: value => s.attach o (String.ofList value)
            | value => s.attach o (String.ofList value)
          else do
            let s ← s.raise o
            short level cs s

end Seen

/-! ## Reading -/

/-- What an argument looks like. -/
inductive Shape where
  /-- The mark behind which everything is an operand. -/
  | mark
  /-- An option by its name. -/
  | long (name : String) (value : Option String)
  /-- Options by their letters. -/
  | short (letters : List Char)
  /-- Anything else. -/
  | plain

/-- Tell the shapes of arguments apart. -/
def Shape.of (argument : String) : Shape :=
  match argument.toList with
  | ['-', '-'] => .mark
  | '-' :: '-' :: cs =>
      let name := String.ofList (cs.takeWhile (· != '='))
      match cs.dropWhile (· != '=') with
      | [] => .long name none
      | _ :: value => .long name (some (String.ofList value))
  | '-' :: c :: cs => .short (c :: cs)
  | _ => .plain

/-- Read one level.  The outer level ends at the word for a command, and the arguments behind
it are returned with the word.  The flag says whether only operands can follow. -/
def read (level : Level) :
    Bool → Seen → List String → Except Stop (Seen × Option (Topic × List String))
  | _, s, [] => .ok (s, none)
  | true, s, a :: as => do
      let s ← s.operand level a
      read level true s as
  | false, s, a :: as =>
      match if level = none ∧ !s.isWaiting then Topic.ofText? a else none with
      | some topic => .ok (s, some (topic, as))
      | none =>
          match Shape.of a with
          | .mark => read level true s as
          | .long name value => do
              let s ← s.long level name value
              read level false s as
          | .short letters => do
              let s ← s.short level letters
              read level false s as
          | .plain =>
              if s.isWaiting then
                read level false (s.receive a) as
              else do
                let s ← s.operand level a
                read level false s as

/-- Help is given on the program and on each word for a command. -/
def help : List String → Stop
  | [] => .help
  | [word] => if (Topic.ofText? word).isSome then .help else .misuse
  | _ => .misuse

/-- The command of a level. -/
def command? (v : Verb) (s : Seen) : Option Command :=
  match v, s.operands with
  | .run, [script] => some (.run ⟨script⟩)
  | .compile, [script] =>
      some (.compile ⟨script⟩ ((s.values.lookup .outputDir).map Path.mk)
        (((s.values.lookup .format).bind formatOfText?).getD .text))
  | .exec, [container] => some (.exec ⟨container⟩)
  | .dis, [script] => some (.dis ⟨script⟩)
  | .version, [] => some .version
  | _, _ => none

/-- The common options of both levels. -/
def options (outer inner : Seen) : CommonOptions where
  quiet := outer.flags.contains .quiet || inner.flags.contains .quiet
  verbose := outer.flags.contains .verbose || inner.flags.contains .verbose
  config := ((inner.values.lookup .config).orElse fun _ => outer.values.lookup .config).map Path.mk

/-- What the arguments ask for. -/
def parse (arguments : List String) : Except Stop Invocation := do
  let (outer, next) ← read none false {} arguments
  match next with
  | none => .error .misuse
  | some (.help, words) => .error (help words)
  | some (.verb v, rest) =>
      let (inner, _) ← read (some v) false {} rest
      let inner ← inner.settle
      match command? v inner with
      | none => .error .misuse
      | some command =>
          let outer ← outer.settle
          .ok ⟨options outer inner, command⟩

end CommandLine

end StackScript
