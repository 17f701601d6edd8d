import StackScript.Proofs.EarlierOutput
import StackScript.Proofs.Session.Compiling
import StackScript.Session.Operations

/-!
# Sessions that are asked for one thing after another

`Operation` lists what can be asked of a session, and `Operation.perform` carries it out on some
files.  What the files are is left open: they are anything that can answer requests, so they may
refuse, and they may change between two requests.

A history is a list of operations, with changes to the files in between that the session knows
nothing about.  `Session.follow` is where it leads.

## What an operation leaves behind

An operation asks for at most one compilation, and which one depends on the operation and the
files alone (`Operation.request?`).  Apart from what its program printed, it leaves the session
as that compilation alone would (`Operation.cameFrom_perform`).  So a history leaves the session
as the compilations it asked for would, one after the other (`Session.cameFrom_follow`), and
questions about caches and counters are questions about lists of units.
-/

namespace StackScript

variable {σ α β : Type}

/-- What can be asked of a session. -/
inductive Operation where
  /-- Compile a unit. -/
  | compileSource (u : SourceUnit)
  /-- Compile and run a unit. -/
  | runSource (u : SourceUnit)
  /-- Load and run a script. -/
  | runFile (p : Path)
  /-- Load and compile a script, and write its container beside it. -/
  | compileFile (p : Path)
  /-- Load and compile a script, and write its container into a directory. -/
  | compileFileIn (p dir : Path)
  /-- Write the container of some code beside its script. -/
  | persist (u : SourceUnit) (code : Code) (stat : SourceStat)
  /-- Write the container of some code into a directory. -/
  | persistIn (dir : Path) (u : SourceUnit) (code : Code) (stat : SourceStat)
  /-- Run a container. -/
  | runContainer (bytes : List UInt8) (origin : Path)
  /-- Read and run a container. -/
  | runContainerFile (p : Path)

/-- What an operation gives when it succeeds. -/
inductive OperationValue where
  /-- The code of a unit. -/
  | compiled (code : Code)
  /-- The value that a program returned. -/
  | returned (v : Value)
  /-- A container that was written. -/
  | wrote (container : WrittenContainer)
  deriving DecidableEq

/-- What a session does when it is asked. -/
def Operation.program : Operation → SessionM OperationValue
  | .compileSource u => do return .compiled (← SessionM.compile u)
  | .runSource u => do return .returned (← SessionM.runSource u)
  | .runFile p => do return .returned (← SessionM.runFile p)
  | .compileFile p => do return .wrote (← SessionM.compileFile p)
  | .compileFileIn p dir => do return .wrote (← SessionM.compileFileIn p dir)
  | .persist u code stat => do return .wrote (← SessionM.persist u code stat)
  | .persistIn dir u code stat => do return .wrote (← SessionM.persistIn dir u code stat)
  | .runContainer bytes origin => do return .returned (← SessionM.runContainer bytes origin)
  | .runContainerFile p => do return .returned (← SessionM.runContainerFile p)

/-- Where an operation leads: its result, the session and the files. -/
structure Performed (σ α : Type) where
  /-- The result. -/
  result : Except SessionError α
  /-- The session afterwards. -/
  session : Session
  /-- The files afterwards. -/
  files : σ

/-- Carry out a program of a session on some files. -/
def SessionM.perform (answer : (op : FileOp) → σ → op.Reply × σ) (m : SessionM α) (s : Session)
    (files : σ) : Performed σ α :=
  let r := (m.run.run s).run answer files
  ⟨r.1.1, r.1.2, r.2⟩

/-- Carry out an operation on some files. -/
def Operation.perform (answer : (op : FileOp) → σ → op.Reply × σ) (op : Operation) (s : Session)
    (files : σ) : Performed σ OperationValue :=
  op.program.perform answer s files

/-- The unit that an operation asks to be compiled, if there is one. -/
def Operation.request? (answer : (op : FileOp) → σ → op.Reply × σ) (op : Operation) (files : σ) :
    Option SourceUnit :=
  match op with
  | .compileSource u | .runSource u => some u
  | .runFile p | .compileFile p | .compileFileIn p _ =>
      ((SourceUnit.load p).run answer files).1.toOption
  | .persist .. | .persistIn .. | .runContainer .. | .runContainerFile _ => none

/-- Something that happens to a session and its files. -/
inductive SessionEvent (σ : Type) where
  /-- The session is asked for something. -/
  | operate (op : Operation)
  /-- Someone else changes the files. -/
  | edit (change : σ → σ)

namespace Session

/-- The session and the files after some events. -/
def follow (answer : (op : FileOp) → σ → op.Reply × σ) :
    List (SessionEvent σ) → Session → σ → Session × σ
  | [], s, files => (s, files)
  | .operate op :: events, s, files =>
      let done := op.perform answer s files
      follow answer events done.session done.files
  | .edit change :: events, s, files => follow answer events s (change files)

/-- The units that some events ask to be compiled, in order. -/
def requests (answer : (op : FileOp) → σ → op.Reply × σ) :
    List (SessionEvent σ) → Session → σ → List SourceUnit
  | [], _, _ => []
  | .operate op :: events, s, files =>
      let done := op.perform answer s files
      (op.request? answer files).toList ++ requests answer events done.session done.files
  | .edit change :: events, s, files => requests answer events s (change files)

/-- The session after some units have been compiled. -/
def compileAll (s : Session) (us : List SourceUnit) : Session :=
  us.foldl (fun s u => (s.compile u).2) s

@[simp] theorem compileAll_nil (s : Session) : s.compileAll [] = s := rfl

@[simp] theorem compileAll_cons (s : Session) (u : SourceUnit) (us : List SourceUnit) :
    s.compileAll (u :: us) = (s.compile u).2.compileAll us := rfl

theorem compileAll_append (s : Session) (us vs : List SourceUnit) :
    s.compileAll (us ++ vs) = (s.compileAll us).compileAll vs :=
  List.foldl_append

end Session

/-! ## Programs of a session, stage by stage -/

namespace SessionM

variable {ε : Type} (answer : (op : FileOp) → σ → op.Reply × σ) (s : Session) (files : σ)

/-- The second program starts where the first one arrived, unless that was an error. -/
theorem perform_bind (m : SessionM α) (f : α → SessionM β) :
    (m >>= f).perform answer s files =
      match m.perform answer s files with
      | ⟨.ok a, s, files⟩ => (f a).perform answer s files
      | ⟨.error e, s, files⟩ => ⟨.error e, s, files⟩ := by
  have hbind : ((m >>= f).run.run s).run answer files =
      ((m.run.run s >>= fun x => ExceptT.bindCont f x.1 x.2)).run answer files := rfl
  simp only [perform, hbind, FileM.run_bind]
  rcases (m.run.run s).run answer files with ⟨⟨_ | a, s'⟩, files'⟩ <;> rfl

theorem perform_ofStep (wrap : ε → SessionError) (step : Session → Except ε α × Session) :
    (ofStep wrap step).perform answer s files =
      ⟨(step s).1.mapError wrap, (step s).2, files⟩ := rfl

theorem perform_ofFiles (wrap : ε → SessionError) (m : FileM (Except ε α)) :
    (ofFiles wrap m).perform answer s files =
      ⟨(m.run answer files).1.mapError wrap, s, (m.run answer files).2⟩ := by
  have hrun : ((ofFiles wrap m).run.run s).run answer files =
      (m >>= fun result => pure (result.mapError wrap, s)).run answer files := rfl
  simp only [perform, hrun, FileM.run_bind]
  rfl

theorem perform_containerOptions :
    containerOptions.perform answer s files = ⟨.ok s.config.container, s, files⟩ := rfl

/-! ## Programs that only print -/

/-- A program does nothing to a session but print, and the sink becomes what requests make of it
if the builtins only write to it. -/
def Prints (m : SessionM α) : Prop :=
  ∀ s files, ∃ sink, (m.perform answer s files).session = { s with sink } ∧
    (s.builtins.OnlyWrites → s.sink.Becomes sink)

variable {answer}

theorem prints_pure (a : α) : Prints answer (pure a : SessionM α) :=
  fun s _ => ⟨s.sink, rfl, fun _ => .refl s.sink⟩

theorem prints_throw (e : SessionError) : Prints answer (throw e : SessionM α) :=
  fun s _ => ⟨s.sink, rfl, fun _ => .refl s.sink⟩

theorem prints_ofFiles (wrap : ε → SessionError) (m : FileM (Except ε α)) :
    Prints answer (ofFiles wrap m) := by
  intro s files
  rw [perform_ofFiles]
  exact ⟨s.sink, rfl, fun _ => .refl s.sink⟩

theorem prints_containerOptions : Prints answer containerOptions :=
  fun s _ => ⟨s.sink, rfl, fun _ => .refl s.sink⟩

theorem prints_execute (code : Code) (origin : String) : Prints answer (execute code origin) := by
  intro s files
  rw [execute, perform_ofStep]
  exact ⟨_, rfl, fun hwrites => Machine.becomes_execute hwrites code _⟩

theorem prints_bind {m : SessionM α} {f : α → SessionM β} (hm : Prints answer m)
    (hf : ∀ a, Prints answer (f a)) : Prints answer (m >>= f) := by
  intro s files
  obtain ⟨sink, hsession, hbecomes⟩ := hm s files
  rw [perform_bind]
  rcases hperform : m.perform answer s files with ⟨e | a, s', files'⟩
  · rw [hperform] at hsession
    exact ⟨sink, hsession, hbecomes⟩
  · rw [hperform] at hsession
    obtain ⟨sink', hsession', hbecomes'⟩ := hf a s' files'
    obtain rfl : s' = { s with sink } := hsession
    exact ⟨sink', hsession', fun hwrites => (hbecomes hwrites).trans (hbecomes' hwrites)⟩

theorem prints_write (p : Path) (code : Code) (stat : SourceStat) :
    Prints answer (write p code stat) := by
  unfold write
  cases Container.encode Code.format code stat.mtime stat.size with
  | error e => exact prints_throw _
  | ok bytes => exact prints_bind (prints_ofFiles _ _) fun _ => prints_pure _

theorem prints_persist (u : SourceUnit) (code : Code) (stat : SourceStat) :
    Prints answer (persist u code stat) :=
  prints_bind prints_containerOptions fun _ => prints_write _ code stat

theorem prints_persistIn (dir : Path) (u : SourceUnit) (code : Code) (stat : SourceStat) :
    Prints answer (persistIn dir u code stat) :=
  prints_bind prints_containerOptions fun _ => prints_write _ code stat

theorem prints_runContainer (bytes : List UInt8) (origin : Path) :
    Prints answer (runContainer bytes origin) := by
  unfold runContainer
  cases Container.decode Code.format bytes with
  | error e => exact prints_throw _
  | ok c => exact prints_execute _ _

theorem prints_runContainerFile (p : Path) : Prints answer (runContainerFile p) :=
  prints_bind (prints_ofFiles _ _) fun bytes => prints_runContainer bytes p

end SessionM

/-! ## What an operation leaves behind -/

/-- Compiling has nothing to do with the output. -/
theorem Session.compile_sink (s : Session) (sink : Sink) (u : SourceUnit) :
    ({ s with sink } : Session).compile u = ((s.compile u).1, { (s.compile u).2 with sink }) := by
  cases hget : s.cache.get? u.key with
  | some code =>
    rw [compile_of_filed hget]
    exact compile_of_filed hget
  | none =>
    rw [compile_of_not_filed hget]
    exact compile_of_not_filed hget

theorem Session.compileAll_sink (s : Session) (sink : Sink) (us : List SourceUnit) :
    ({ s with sink } : Session).compileAll us = { s.compileAll us with sink } := by
  induction us generalizing s with
  | nil => rfl
  | cons u us ih => rw [compileAll_cons, compile_sink, ih, compileAll_cons]

/-- Compiling changes nothing but the cache and the counts. -/
theorem Session.compileAll_unchanged (s : Session) (us : List SourceUnit) :
    (s.compileAll us).config = s.config ∧ (s.compileAll us).lower = s.lower ∧
      (s.compileAll us).builtins = s.builtins ∧ (s.compileAll us).sink = s.sink := by
  induction us generalizing s with
  | nil => exact ⟨rfl, rfl, rfl, rfl⟩
  | cons u us ih =>
    obtain ⟨hconfig, hlower, hbuiltins, hsink⟩ := s.compile_unchanged u
    obtain ⟨hconfig', hlower', hbuiltins', hsink'⟩ := ih (s.compile u).2
    exact ⟨hconfig'.trans hconfig, hlower'.trans hlower, hbuiltins'.trans hbuiltins,
      hsink'.trans hsink⟩

/-- A session has become what it is by compiling some units, and by printing. -/
def Session.CameFrom (s : Session) (us : List SourceUnit) (s' : Session) : Prop :=
  ∃ sink, s' = { s.compileAll us with sink } ∧
    (s.builtins.OnlyWrites → s.sink.Becomes sink)

theorem Session.CameFrom.trans {s₁ s₂ s₃ : Session} {us vs : List SourceUnit}
    (h₁ : s₁.CameFrom us s₂) (h₂ : s₂.CameFrom vs s₃) : s₁.CameFrom (us ++ vs) s₃ := by
  obtain ⟨sink, rfl, hbecomes⟩ := h₁
  obtain ⟨sink', rfl, hbecomes'⟩ := h₂
  obtain ⟨-, -, hbuiltins, -⟩ := s₁.compileAll_unchanged us
  refine ⟨sink', ?_, fun hwrites => ?_⟩
  · rw [compileAll_sink, compileAll_append]
  · exact (hbecomes hwrites).trans (hbecomes' (hbuiltins.symm ▸ hwrites))

namespace SessionM

variable {answer : (op : FileOp) → σ → op.Reply × σ} {s : Session} {files : σ}

theorem Prints.cameFrom {m : SessionM α} (h : Prints answer m) (s : Session) (files : σ) :
    s.CameFrom [] (m.perform answer s files).session :=
  h s files

/-- A program that compiles a unit and then only prints. -/
theorem cameFrom_compile_bind {f : Code → SessionM α} (hf : ∀ code, Prints answer (f code))
    (u : SourceUnit) (s : Session) (files : σ) :
    s.CameFrom [u] ((compile u >>= f).perform answer s files).session := by
  have hcompiled : s.CameFrom [u] (s.compile u).2 :=
    ⟨s.sink, by rw [← (s.compile_unchanged u).2.2.2]; rfl, fun _ => .refl s.sink⟩
  rw [perform_bind, compile, perform_ofStep]
  cases (s.compile u).1 with
  | error e => exact hcompiled
  | ok code => exact hcompiled.trans ((hf code).cameFrom _ _)

/-- A program that loads a unit and goes on with it. -/
theorem cameFrom_load_bind {f : SourceUnit → SessionM α}
    (hf : ∀ u files, s.CameFrom [u] ((f u).perform answer s files).session) (p : Path) :
    s.CameFrom ((SourceUnit.load p).run answer files).1.toOption.toList
      ((load p >>= f).perform answer s files).session := by
  rw [perform_bind, load, perform_ofFiles]
  cases ((SourceUnit.load p).run answer files).1 with
  | error e => exact ⟨s.sink, rfl, fun _ => .refl s.sink⟩
  | ok u => exact hf u _

/-- What is done with the value of a program makes no difference. -/
theorem cameFrom_bind_pure {m : SessionM α} {us : List SourceUnit}
    (h : s.CameFrom us (m.perform answer s files).session) (g : α → β) :
    s.CameFrom us ((m >>= fun a => pure (g a)).perform answer s files).session := by
  rw [perform_bind]
  rcases hperform : m.perform answer s files with ⟨e | a, s', files'⟩
  · rw [hperform] at h
    exact h
  · rw [hperform] at h
    exact h

theorem cameFrom_runSource (u : SourceUnit) (s : Session) (files : σ) :
    s.CameFrom [u] ((runSource u).perform answer s files).session :=
  cameFrom_compile_bind (fun code => prints_execute code u.identifier) u s files

end SessionM

/-- **An operation leaves the session as the compilation that it asks for would**, apart from
what its program printed. -/
theorem Operation.cameFrom_perform (answer : (op : FileOp) → σ → op.Reply × σ) (op : Operation)
    (s : Session) (files : σ) :
    s.CameFrom (op.request? answer files).toList (op.perform answer s files).session := by
  cases op with
  | compileSource u =>
    exact SessionM.cameFrom_compile_bind (fun code => SessionM.prints_pure _) u s files
  | runSource u => exact SessionM.cameFrom_bind_pure (SessionM.cameFrom_runSource u s files) _
  | runFile p =>
    refine SessionM.cameFrom_bind_pure (SessionM.cameFrom_load_bind (fun u files => ?_) p) _
    exact SessionM.cameFrom_runSource u s files
  | compileFile p =>
    refine SessionM.cameFrom_bind_pure (SessionM.cameFrom_load_bind (fun u files => ?_) p) _
    exact SessionM.cameFrom_compile_bind
      (fun code => SessionM.prints_persist u code u.recorded) u s files
  | compileFileIn p dir =>
    refine SessionM.cameFrom_bind_pure (SessionM.cameFrom_load_bind (fun u files => ?_) p) _
    exact SessionM.cameFrom_compile_bind
      (fun code => SessionM.prints_persistIn dir u code u.recorded) u s files
  | persist u code stat =>
    exact SessionM.cameFrom_bind_pure ((SessionM.prints_persist u code stat).cameFrom s files) _
  | persistIn dir u code stat =>
    exact SessionM.cameFrom_bind_pure
      ((SessionM.prints_persistIn dir u code stat).cameFrom s files) _
  | runContainer bytes origin =>
    exact SessionM.cameFrom_bind_pure
      ((SessionM.prints_runContainer bytes origin).cameFrom s files) _
  | runContainerFile p =>
    exact SessionM.cameFrom_bind_pure ((SessionM.prints_runContainerFile p).cameFrom s files) _

/-- **A history leaves the session as the compilations that it asks for would**, one after the
other. -/
theorem Session.cameFrom_follow (answer : (op : FileOp) → σ → op.Reply × σ)
    (events : List (SessionEvent σ)) (s : Session) (files : σ) :
    s.CameFrom (requests answer events s files) (follow answer events s files).1 := by
  induction events generalizing s files with
  | nil => exact ⟨s.sink, rfl, fun _ => .refl s.sink⟩
  | cons event events ih =>
    cases event with
    | operate op => exact (op.cameFrom_perform answer s files).trans (ih _ _)
    | edit change => exact ih s (change files)

end StackScript
