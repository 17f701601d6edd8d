/-!
# Where output goes

A sink is asked to take texts, one after the other, and to pass on what it took.  It may refuse,
with a reason, and of a text that it refuses it may have taken the beginning.  What it refuses
can depend on all that it was asked before, so that a sink may fill up, refuse once and then
recover, or refuse to pass on and nothing else.

`written` is what a sink has taken so far.  What it will refuse is said apart from that, for the
requests that are still to come, and it moves on with every request (`Sink.asked`).  So a sink
that has taken something is the same sink as one that has not, with a text in front
(`Sink.after`).
-/

namespace StackScript

/-- What a sink is asked to do. -/
inductive Sink.Request where
  /-- Take a text. -/
  | write (content : String)
  /-- Pass on what was taken. -/
  | flush

/-- The answer to a request that is refused. -/
structure Sink.Refusal where
  /-- The reason. -/
  reason : String
  /-- How many characters of the text were taken before. -/
  taken : Nat := 0

/-- Which of the requests to come will be refused. -/
structure Sink.Refusals where
  /-- The answer to the last of some requests that are made one after the other, if that one is
  refused. -/
  refusal? : List Sink.Request → Option Sink.Refusal

namespace Sink.Refusals

/-- Everything is refused for one reason, or nothing is. -/
def always (reason? : Option String) : Refusals :=
  ⟨fun _ => reason?.map fun reason => { reason }⟩

/-- A reason, or none, says what a sink does that never changes its mind. -/
instance : Coe (Option String) Refusals := ⟨always⟩

/-- What will be refused when one request has been made. -/
def behind (f : Refusals) (request : Request) : Refusals :=
  ⟨fun requests => f.refusal? (request :: requests)⟩

end Sink.Refusals

/-- A place for the output of programs. -/
structure Sink where
  /-- What has been written. -/
  written : String := ""
  /-- Which writes will fail. -/
  writeFault : Sink.Refusals := .always none
  /-- Which flushes will fail. -/
  flushFault : Sink.Refusals := .always none

namespace Sink

/-- The same sink when a request has been made of it. -/
def asked (s : Sink) (request : Request) : Sink :=
  { s with writeFault := s.writeFault.behind request, flushFault := s.flushFault.behind request }

/-- The same sink when some requests have been made of it. -/
def askedAll (s : Sink) (requests : List Request) : Sink :=
  requests.foldl asked s

/-- The same sink with more written to it. -/
def append (s : Sink) (content : String) : Sink := { s with written := s.written ++ content }

/-- Write a text, or learn why it cannot be written.  Nothing is asked for the empty text. -/
def write (s : Sink) (content : String) : Except String Unit × Sink :=
  if content.isEmpty then
    (.ok (), s)
  else
    match s.writeFault.refusal? [.write content] with
    | none => (.ok (), (s.asked (.write content)).append content)
    | some refusal =>
        (.error refusal.reason, (s.asked (.write content)).append
          (String.ofList (content.toList.take refusal.taken)))

/-- Write a text and an end of line, unless the text is refused. -/
def writeLine (s : Sink) (content : String) : Except String Unit × Sink :=
  match s.write content with
  | (.ok (), s) => s.write "\n"
  | refused => refused

/-- Pass on what was written, or learn why that cannot be done. -/
def flush (s : Sink) : Except String Unit × Sink :=
  match s.flushFault.refusal? [.flush] with
  | none => (.ok (), s.asked .flush)
  | some refusal => (.error refusal.reason, s.asked .flush)

/-- The same sink with nothing written to it. -/
def cleared (s : Sink) : Sink := { s with written := "" }

/-- The same sink with something written to it before everything else. -/
def after (earlier : String) (s : Sink) : Sink := { s with written := earlier ++ s.written }

variable (s : Sink) (earlier content : String)

/-- A sink is what was written to it, in front of the same sink with nothing written to it. -/
theorem after_cleared : s.cleared.after s.written = s := by
  simp [after, cleared]

theorem append_after : (s.after earlier).append content = (s.append content).after earlier := by
  simp only [append, after, String.append_assoc]

/-- What was written earlier has no influence on a write. -/
theorem write_after :
    (s.after earlier).write content =
      ((s.write content).1, (s.write content).2.after earlier) := by
  have hasked : (s.after earlier).asked (.write content) =
      (s.asked (.write content)).after earlier := rfl
  have hfault : (s.after earlier).writeFault = s.writeFault := rfl
  unfold write
  rw [hasked, hfault]
  split
  · rfl
  · cases s.writeFault.refusal? [.write content] <;> simp only [append_after]

theorem writeLine_after :
    (s.after earlier).writeLine content =
      ((s.writeLine content).1, (s.writeLine content).2.after earlier) := by
  unfold writeLine
  rw [write_after]
  rcases s.write content with ⟨_ | _, s'⟩
  · rfl
  · exact write_after s' earlier "\n"

theorem flush_after :
    (s.after earlier).flush = (s.flush.1, s.flush.2.after earlier) := by
  have hfault : (s.after earlier).flushFault = s.flushFault := rfl
  unfold flush
  rw [hfault]
  cases s.flushFault.refusal? [.flush] <;> rfl

end Sink

end StackScript
