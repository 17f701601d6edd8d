import StackScript.Files.FileError
import StackScript.Path

/-!
# Programs that use files

A program that uses files is a tree of requests: it either is done with a result, or it
asks for one file operation and goes on with the answer.  The tree says in which order a
program asks for what; who answers is left open, so the same program runs on a file tree
in memory (`FileTree.answer`) and on real files, and every state between two requests can
be looked at.

A file is replaced in five steps.  A temporary file with a name of its own is made in the
directory, written, flushed to the disk, and moved over the target; when something fails
after it was made, it is removed again.  Only the move touches the target, and a move is
indivisible.
-/

namespace StackScript

/-- What is known about a file without opening it. -/
structure FileStat where
  /-- The modification time in whole seconds since 1970. -/
  mtime : Int
  /-- The number of bytes. -/
  size : Nat
  deriving DecidableEq, Repr

/-- A temporary file. -/
structure TempFile where
  /-- Where it is. -/
  path : Path
  deriving DecidableEq, Repr

/-- A file operation. -/
inductive FileOp where
  /-- Read a whole file. -/
  | read (p : Path)
  /-- Ask for time and size of a file. -/
  | stat (p : Path)
  /-- Ask whether a path leads to a file. -/
  | isFile (p : Path)
  /-- Make a directory and all that are missing above it. -/
  | createDirs (p : Path)
  /-- Make an empty file with a name of its own in a directory. -/
  | createTemp (dir : Path)
  /-- Write a temporary file. -/
  | writeTemp (t : TempFile) (content : List UInt8)
  /-- Flush a temporary file to the disk. -/
  | syncTemp (t : TempFile)
  /-- Move a temporary file, replacing what is at the target. -/
  | moveTemp (t : TempFile) (target : Path)
  /-- Remove a temporary file. -/
  | dropTemp (t : TempFile)

/-- What the answer to a file operation is. -/
abbrev FileOp.Reply : FileOp → Type
  | .read _ => Except FileError (List UInt8)
  | .stat _ => Except FileError FileStat
  | .isFile _ => Bool
  | .createDirs _ => Except FileError Unit
  | .createTemp _ => Except FileError TempFile
  | .writeTemp _ _ => Except FileError Unit
  | .syncTemp _ => Except FileError Unit
  | .moveTemp _ _ => Except FileError Unit
  | .dropTemp _ => Unit

/-- A program that uses files. -/
inductive FileM (α : Type) where
  /-- The program is done. -/
  | done (a : α)
  /-- The program asks for an operation and goes on with the answer. -/
  | ask (op : FileOp) (next : op.Reply → FileM α)

namespace FileM

variable {α β : Type}

/-- One program after the other. -/
def andThen : FileM α → (α → FileM β) → FileM β
  | .done a, f => f a
  | .ask op next, f => .ask op fun reply => (next reply).andThen f

instance : Monad FileM where
  pure := .done
  bind := andThen

@[simp] theorem pure_eq (a : α) : (pure a : FileM α) = .done a := rfl

@[simp] theorem done_bind (a : α) (f : α → FileM β) : (FileM.done a >>= f) = f a := rfl

@[simp] theorem ask_bind (op : FileOp) (next : op.Reply → FileM α) (f : α → FileM β) :
    (FileM.ask op next >>= f) = .ask op fun reply => next reply >>= f := rfl

/-- Ask for one operation. -/
def request (op : FileOp) : FileM op.Reply :=
  .ask op .done

/-- Run a program, with every request answered in turn. -/
def run {σ : Type} (answer : (op : FileOp) → σ → op.Reply × σ) : FileM α → σ → α × σ
  | .done a, s => (a, s)
  | .ask op next, s =>
      let (reply, s) := answer op s
      (next reply).run answer s

theorem run_bind {σ : Type} (answer : (op : FileOp) → σ → op.Reply × σ) (m : FileM α)
    (f : α → FileM β) (s : σ) :
    (m >>= f).run answer s = (f (m.run answer s).1).run answer (m.run answer s).2 := by
  induction m generalizing s with
  | done a => rfl
  | ask op next ih => exact ih _ _

/-- Bytes as a text. -/
def textOfBytes (bs : List UInt8) : Except FileError String :=
  match String.fromUTF8? (ByteArray.mk bs.toArray) with
  | some s => .ok s
  | none => .error .notText

/-- Read a file as a text. -/
def readText (p : Path) : FileM (Except FileError String) := do
  match ← request (.read p) with
  | .error e => return .error e
  | .ok bs => return textOfBytes bs

/-- Go on with a temporary file; remove it if that fails. -/
def orDrop {ε : Type} (t : TempFile) (m : FileM (Except ε Unit)) : FileM (Except ε Unit) := do
  match ← m with
  | .ok () => return .ok ()
  | .error e =>
      request (.dropTemp t)
      return .error e

/-- Fill a temporary file and move it to its target.  An error comes with the path it is
about. -/
def fill (t : TempFile) (target : Path) (content : List UInt8) :
    FileM (Except (Path × FileError) Unit) := do
  match ← request (.writeTemp t content) with
  | .error e => return .error (t.path, e)
  | .ok () =>
      match ← request (.syncTemp t) with
      | .error e => return .error (t.path, e)
      | .ok () =>
          match ← request (.moveTemp t target) with
          | .error e => return .error (target, e)
          | .ok () => return .ok ()

/-- Replace the content of a file in a directory, which is made if it is missing.  An error
comes with the path it is about. -/
def replace (dir target : Path) (content : List UInt8) :
    FileM (Except (Path × FileError) Unit) := do
  match ← request (.createDirs dir) with
  | .error e => return .error (dir, e)
  | .ok () =>
      match ← request (.createTemp dir) with
      | .error e => return .error (dir, e)
      | .ok t => orDrop t (fill t target content)

end FileM

end StackScript
