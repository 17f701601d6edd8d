import StackScript.Cache
import StackScript.Files.Program
import StackScript.Text.Whitespace

/-!
# Scripts to be compiled

A source unit is the text of a script under a name.  A unit that was loaded from a file
also has the time and the size of the file; the name is then the path as it was given.
-/

namespace StackScript

/-- Time and size of the file of a script, as containers record them. -/
structure SourceStat where
  /-- The modification time in seconds since 1970; earlier times count as zero. -/
  mtime : UInt64
  /-- The number of bytes. -/
  size : UInt64
  deriving DecidableEq, Repr

/-- A script under a name. -/
structure SourceUnit where
  /-- The path, or a name that stands for no file. -/
  identifier : String
  /-- The script. -/
  text : String
  /-- What is known about the file, if there is one. -/
  stat : Option SourceStat := none
  deriving DecidableEq, Repr

/-- A script could not be loaded. -/
structure LoadError where
  /-- The path of the script. -/
  path : Path
  /-- What went wrong. -/
  cause : FileError
  deriving DecidableEq, Repr

/-- The wording of a load error. -/
def LoadError.message (e : LoadError) : String :=
  s!"cannot read script {e.path.text}: {e.cause.message}"

/-- What containers record of a file. -/
def FileStat.recorded (s : FileStat) : SourceStat :=
  ⟨UInt64.ofNat s.mtime.toNat, UInt64.ofNat s.size⟩

namespace SourceUnit

/-- The fingerprint of the text. -/
def fingerprint (u : SourceUnit) : Fingerprint := .ofText u.text

/-- What the compiled unit is filed under. -/
def key (u : SourceUnit) : CacheKey := ⟨u.identifier, u.fingerprint⟩

/-- The unit in readable form. -/
def display (u : SourceUnit) : String := s!"{u.identifier} ({u.fingerprint.text})"

/-- Whether there is nothing but white space. -/
def isEmpty (u : SourceUnit) : Bool := Text.isBlank u.text

/-- Time and size for the container; without a file, the size of the text. -/
def recorded (u : SourceUnit) : SourceStat :=
  u.stat.getD ⟨0, UInt64.ofNat u.text.utf8ByteSize⟩

/-- Load a script. -/
def load (p : Path) : FileM (Except LoadError SourceUnit) := do
  match ← FileM.readText p with
  | .error e => return .error ⟨p, e⟩
  | .ok text =>
      match ← FileM.request (.stat p) with
      | .error e => return .error ⟨p, e⟩
      | .ok stat => return .ok ⟨p.text, text, some stat.recorded⟩

end SourceUnit

end StackScript
