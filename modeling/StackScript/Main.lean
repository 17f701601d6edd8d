import StackScript.CommandLine.Commands
import StackScript.Files.Tree

/-!
# The program

The outer layer: file operations are carried out on real files, and what a command leaves
behind is printed.  Nothing is decided here.
-/

namespace StackScript.Program

/-- The number of an error, which some operations give with a minus sign. -/
def errorNumber (code : UInt32) : UInt32 :=
  if code < 0x80000000 then code else 0 - code

/-- What the operating system says is wrong. -/
def fileError (e : IO.Error) : FileError :=
  let known (code : UInt32) : FileError :=
    match errorNumber code with
    | 2 => .notFound
    | 13 => .denied
    | 16 => .busy
    | 17 => .alreadyExists
    | 20 => .notDirectory
    | 21 => .isDirectory
    | 22 => .invalidArgument
    | 36 => .nameTooLong
    | _ => .other (toString e)
  match e with
  | .noFileOrDirectory _ code _ => known code
  | .alreadyExists _ code _ => known code
  | .resourceBusy code _ => known code
  | .inappropriateType _ code _ => known code
  | .invalidArgument _ code _ => known code
  | .permissionDenied _ code _ => known code
  | e => .other (toString e)

/-- The error of a file operation as its result. -/
def attempt {α : Type} (act : IO α) : IO (Except FileError α) := do
  try
    return .ok (← act)
  catch e =>
    return .error (fileError e)

/-- A path must be one that can be handed to the operating system. -/
def guarded {α : Type} (fault : FileError) (p : Path) (act : IO (Except FileError α)) :
    IO (Except FileError α) :=
  if p.text.toList.contains '\x00' then return .error fault else act

/-- Whether there is a node of a kind under a path. -/
def isOfKind (kind : IO.FS.FileType → Bool) (p : Path) : IO Bool := do
  let place := (← IO.currentDir) / p.text
  let result ← guarded .nulInPath p (attempt place.metadata)
  match result with
  | .ok m => return kind m.type
  | .error _ => return false

/-- Make a directory; one that is there already will do. -/
def ensureDir (p : Path) : IO (Except FileError Unit) := do
  match ← guarded .nulInPath p (attempt (IO.FS.createDir p.text)) with
  | .ok () => return .ok ()
  | .error e =>
      if ← isOfKind (fun k => k matches .dir) p then
        return .ok ()
      else
        return .error e

/-- Make the first of some directories.  The others are the ones above it. -/
def createDirsAlong : List Path → IO (Except FileError Unit)
  | [] => return .ok ()
  | p :: above => do
      if p.text = "" then
        return .ok ()
      else
        match ← ensureDir p with
        | .error .notFound =>
            match ← createDirsAlong above with
            | .error e => return .error e
            | .ok () => ensureDir p
        | result => return result

/-- Try the names of temporary files, at most `n` of them, until one is free. -/
def createTemp (dir : Path) : Nat → IO (Except FileError TempFile)
  | 0 => return .error .alreadyExists
  | n + 1 => do
      let p := dir.join ⟨String.ofList (FileTree.tempName n)⟩
      match ← attempt (IO.FS.Handle.mk p.text .writeNew) with
      | .ok _ => return .ok ⟨p⟩
      | .error .alreadyExists => createTemp dir n
      | .error e => return .error e

/-- Carry out a request. -/
def answer : (op : FileOp) → IO op.Reply
  | .read p => guarded .nulInPath p (attempt do
      return (← IO.FS.readBinFile p.text).toList)
  | .stat p => guarded .nulInPath p (attempt do
      let place := (← IO.currentDir) / p.text
      let m ← place.metadata
      return ⟨m.modified.sec, m.byteSize.toNat⟩)
  | .isFile p => isOfKind (fun k => k matches .file) p
  | .createDirs p => createDirsAlong p.ancestors
  | .createTemp dir => createTemp dir 1000000
  | .writeTemp f content => attempt do
      IO.FS.writeBinFile f.path.text (ByteArray.mk content.toArray)
  | .syncTemp f => attempt do
      let handle ← IO.FS.Handle.mk f.path.text .append
      handle.flush
  | .moveTemp f target => guarded .invalidArgument target (attempt do
      IO.FS.rename f.path.text target.text)
  | .dropTemp f => do
      let _ ← attempt (IO.FS.removeFile f.path.text)
      return ()

/-- Run a program on real files. -/
def run {α : Type} : FileM α → IO α
  | .done a => return a
  | .ask op next => do
      let reply ← answer op
      run (next reply)

end StackScript.Program

/-- Answer the command line. -/
def main (arguments : List String) : IO UInt32 := do
  let current := (← IO.currentDir).toString
  let outcome ← StackScript.Program.run (StackScript.CommandLine.respond ⟨current⟩ arguments)
  IO.print outcome.out
  IO.eprint outcome.err
  return outcome.exit
