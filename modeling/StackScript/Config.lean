import StackScript.Files.Program
import StackScript.Optimize.Options
import StackScript.Toml.Reader

/-!
# Configuration

A configuration says which passes run and how containers are named.  It is read from a
document with two tables, `optimize` and `container`; each may be missing, and so may each
of their keys, but there may be no others.  Instead of a table there may be an array with
the settings in a fixed order, in which case the last ones may be missing.

The texts that containers are named with have to pass a check of their own: none may be
empty or hold a slash or a backslash, and the extension may not start with a dot.  The
check goes through the fields in order, and the dot comes last.

The configuration of a script is in the nearest document above it.  The search goes up
along the path as it is spelled.
-/

namespace StackScript

/-- How containers are named. -/
structure ContainerOptions where
  /-- The directory for containers, beside the script. -/
  cacheDir : String := "__pycache__"
  /-- The extension of containers. -/
  extension : String := "pyc"
  /-- The tag in their names, if it is not the usual one. -/
  tag : Option String := none
  deriving DecidableEq, Repr

/-- A configuration. -/
structure Config where
  /-- Which passes run. -/
  optimize : OptimizeOptions := {}
  /-- How containers are named. -/
  container : ContainerOptions := {}
  deriving DecidableEq, Repr

/-- What is wrong with a text that containers are named with. -/
inductive FieldFault where
  /-- It is empty. -/
  | empty
  /-- It holds a character that divides paths. -/
  | separator (value : String)
  /-- It starts with a dot. -/
  | leadingDot (value : String)
  deriving DecidableEq, Repr

/-- Why there is no configuration. -/
inductive ConfigError where
  /-- The document cannot be read. -/
  | unreadable (path : Path) (e : FileError)
  /-- The document is malformed, or has a key or a type of value that it should not have. -/
  | malformed
  /-- A text cannot be used in the names of containers. -/
  | invalidField (field : String) (fault : FieldFault)
  deriving DecidableEq, Repr

/-- The wording of a fault. -/
def FieldFault.message : FieldFault → String
  | .empty => "is empty"
  | .separator value => s!"must not contain path separators: '{value}'"
  | .leadingDot value => s!"must not start with '.': '{value}'"

/-- The wording of a configuration error. -/
def ConfigError.message : ConfigError → String
  | .unreadable path e => s!"cannot read configuration {path.text}: {e.message}"
  | .malformed => "invalid configuration: <toml>"
  | .invalidField field fault => s!"container.{field} {fault.message}"

/-! ## Reading a document -/

namespace Toml.Value

/-- The settings of a table by key, if it has no other keys than the given ones.  An array
gives them in the order of the keys. -/
def settings? (keys : List String) : Value → Option (String → Option Value)
  | .table _ entries =>
      if entries.all fun e => keys.contains e.1 then some (Entries.get? entries) else Option.none
  | .array items => some fun key => items[keys.idxOf key]?
  | _ => Option.none

/-- A truth value, or what holds when there is none. -/
def flag? (default : Bool) : Option Value → Option Bool
  | none => some default
  | some (.bool b) => some b
  | some _ => none

/-- A text, or what holds when there is none. -/
def text? (default : String) : Option Value → Option String
  | none => some default
  | some (.str s) => some s
  | some _ => none

end Toml.Value

/-- The switches of a document. -/
def OptimizeOptions.ofValue? (v : Toml.Value) : Option OptimizeOptions := do
  let get ← v.settings? ["constant_folding", "peephole", "deep_folding"]
  let constantFolding ← Toml.Value.flag? true (get "constant_folding")
  let peephole ← Toml.Value.flag? true (get "peephole")
  let deepFolding ← Toml.Value.flag? false (get "deep_folding")
  some { constantFolding, peephole, deepFolding }

/-- The names of a document. -/
def ContainerOptions.ofValue? (v : Toml.Value) : Option ContainerOptions := do
  let get ← v.settings? ["cache_dir", "extension", "tag"]
  let cacheDir ← Toml.Value.text? "__pycache__" (get "cache_dir")
  let extension ← Toml.Value.text? "pyc" (get "extension")
  match get "tag" with
  | none => some { cacheDir, extension }
  | some (.str tag) => some { cacheDir, extension, tag := some tag }
  | some _ => none

namespace ContainerOptions

/-- Check one of the texts. -/
def checkField (field value : String) : Except ConfigError Unit :=
  if value = "" then
    .error (.invalidField field .empty)
  else if value.toList.any fun c => c == '/' || c == '\\' then
    .error (.invalidField field (.separator value))
  else
    .ok ()

/-- Check all that containers are named with. -/
def check (o : ContainerOptions) : Except ConfigError Unit := do
  checkField "cache_dir" o.cacheDir
  checkField "extension" o.extension
  match o.tag with
  | some tag => checkField "tag" tag
  | none => .ok ()
  if o.extension.toList.head? = some '.' then
    .error (.invalidField "extension" (.leadingDot o.extension))
  else
    .ok ()

end ContainerOptions

namespace Config

/-- The configuration in the entries of a document, not yet checked. -/
def ofEntries? (entries : Toml.Entries) : Option Config := do
  let get ← (Toml.Value.table .header entries).settings? ["optimize", "container"]
  let optimize ← match get "optimize" with
    | none => some {}
    | some v => OptimizeOptions.ofValue? v
  let container ← match get "container" with
    | none => some {}
    | some v => ContainerOptions.ofValue? v
  some { optimize, container }

/-- The configuration that a document describes. -/
def ofText (document : String) : Except ConfigError Config :=
  match (Toml.read? document).bind ofEntries? with
  | none => .error .malformed
  | some config => do
      config.container.check
      .ok config

/-! ## Finding the document -/

/-- The name of the document. -/
def fileName : Path := ⟨"pyrite.toml"⟩

/-- Read a configuration. -/
def load (p : Path) : FileM (Except ConfigError Config) := do
  match ← FileM.readText p with
  | .error e => return .error (.unreadable p e)
  | .ok document => return ofText document

/-- The first directory with a document in it. -/
def findAmong : List Path → FileM (Option Path)
  | [] => return none
  | dir :: above => do
      let candidate := dir.join fileName
      if ← FileM.request (.isFile candidate) then
        return some candidate
      else
        findAmong above

/-- The nearest document, from a directory upwards. -/
def find (start : Path) : FileM (Option Path) :=
  findAmong start.ancestors

/-- The configuration for work in a directory: the document that is asked for, or else the
nearest one, or else the defaults. -/
def resolve (explicit : Option Path) (start : Path) : FileM (Except ConfigError Config) := do
  match explicit with
  | some p => load p
  | none =>
      match ← find start with
      | some p => load p
      | none => return .ok {}

end Config

end StackScript
