import StackScript.Proofs.EarlierOutput
import StackScript.Proofs.Folding
import StackScript.Proofs.Session.Compiling
import StackScript.Proofs.Wire.RoundTrip
import StackScript.Session.Operations

/-!
# A container runs like its source

There are two ways to run a script in a session: from its text, or from a container that some
session made of it earlier, perhaps under another configuration and another name.  Both run
what the script says.

* Compiled code does what the script says under every configuration
  (`Machine.execute_compile`), so neither the configuration nor the name under which a script
  was compiled can be seen by it.
* A container holds exactly the compiled code (`Container.decode_encoded`), so running one is
  running the code; the header plays no part.
* Every run starts from bindings of its own and does not see earlier output
  (`Machine.execute_after`), so it does not matter what a session did before.

What remains is `Session.behaviour`, which depends on the script, on the origin, and on the
machine: its builtins and the faults of its sink.

A session that compiled another text with the same name and the same fingerprint would run that
one; `Session.Coherent` excludes it.
-/

namespace StackScript

/-! ## Compiled code -/

/-- Compiled code ends with a return. -/
theorem Script.endsWithReturn_of_compile {options : OptimizeOptions} {filename : String}
    {s : Script} {c : Code} (h : s.compile options filename = .ok c) : c.endsWithReturn = true := by
  obtain ⟨code, t, i, -, -, -, hcode⟩ := Lower.lower_iff.mp (Script.lower_optimize_of_compile h)
  rw [Code.endsWithReturn, hcode]
  simp

namespace Session

/-! ## What a script does in a session -/

/-- What a script does when it is run in a session: its result, and the sink with nothing in it
but what the script printed. -/
def behaviour (s : Session) (origin : String) (script : Script) :
    Except RuntimeError Value × Sink :=
  let run := script.perform s.builtins (.initial mainModule origin s.sink.cleared)
  (run.1, run.2.sink)

/-- Of the session only the machine matters. -/
theorem behaviour_congr {s t : Session} (hbuiltins : t.builtins = s.builtins)
    (hsink : t.sink.cleared = s.sink.cleared) (origin : String) (script : Script) :
    t.behaviour origin script = s.behaviour origin script := by
  rw [behaviour, behaviour, hbuiltins, hsink]

/-- Running compiled code does what the script says, behind what was printed before. -/
theorem execute_compile {options : OptimizeOptions} {filename : String} {script : Script}
    {code : Code} (h : script.compile options filename = .ok code) (s : Session)
    (origin : String) :
    s.execute code origin = ((s.behaviour origin script).1,
      { s with sink := (s.behaviour origin script).2.after s.sink.written }) := by
  have hstate : (⟨.initial mainModule origin, s.sink⟩ : State) =
      State.after s.sink.written ⟨.initial mainModule origin, s.sink.cleared⟩ := by
    rw [State.after, Sink.after_cleared]
  have hrun := Machine.execute_compile s.builtins h ⟨.initial mainModule origin, s.sink.cleared⟩
  rw [State.scope_initial] at hrun
  rw [execute, hstate, Machine.execute_after, behaviour, ← hrun]
  rfl

end Session

namespace SessionM

theorem run_ofStep {ε α : Type} (wrap : ε → SessionError)
    (step : Session → Except ε α × Session) (s : Session) :
    (ofStep wrap step).run.run s = .done ((step s).1.mapError wrap, (step s).2) := rfl

theorem run_bind_of_ok {α β : Type} {m : SessionM α} {s s' : Session} {a : α}
    (h : m.run.run s = .done (.ok a, s')) (f : α → SessionM β) :
    (m >>= f).run.run s = (f a).run.run s' := by
  show (m.run.run s >>= fun x => ExceptT.bindCont f x.1 x.2) = _
  rw [h]
  rfl

theorem run_runSource {s : Session} {u : SourceUnit} {code : Code}
    (h : (s.compile u).1 = .ok code) :
    (runSource u).run.run s =
      .done (((s.compile u).2.execute code u.identifier).1.mapError .runtime,
        ((s.compile u).2.execute code u.identifier).2) := by
  have hcompile : (compile u).run.run s = .done (.ok code, (s.compile u).2) := by
    rw [compile, run_ofStep, h]
    rfl
  rw [runSource, run_bind_of_ok hcompile]
  rfl

theorem run_runContainer {bytes : List UInt8} {header : Header} {code : Code}
    (h : Container.decode Code.format bytes = .ok ⟨header, code⟩) (s : Session) (origin : Path) :
    (runContainer bytes origin).run.run s =
      .done ((s.execute code origin.text).1.mapError .runtime,
        (s.execute code origin.text).2) := by
  rw [runContainer, h]
  rfl

end SessionM

/-! ## The two ways to run a script -/

/-- **A container runs like its source.**  Say that a text compiles in a session under the name
of some origin, and is run there.  Then every container that any session, under any
configuration and any name, makes of the same text, with any time and size, runs from that
origin in any session with the same builtins and the same kind of sink to the same value or
error, and prints the same.  What they have in common is what the script says, started from
bindings in which nothing but the origin is particular to the run. -/
theorem runContainer_like_runSource {text : String} {origin : Path} {s : Session} {code : Code}
    (hlower : s.LowersAsUsual) (hcoherent : s.Coherent ⟨origin.text, text, none⟩)
    (hcompile : (s.compile ⟨origin.text, text, none⟩).1 = .ok code) :
    ∃ script result printed, Script.ofText text = .ok script ∧
      s.behaviour origin.text script = (result, printed) ∧
      (SessionM.runSource ⟨origin.text, text, none⟩).run.run s =
        .done (result.mapError .runtime, { (s.compile ⟨origin.text, text, none⟩).2 with
          sink := printed.after s.sink.written }) ∧
      ∀ (u : SourceUnit) (mtime size : UInt64) (writer reader : Session) (artifact : Code),
        u.text = text → writer.LowersAsUsual → writer.Coherent u →
        (writer.compile u).1 = .ok artifact → artifact.WithinLimit →
        reader.builtins = s.builtins → reader.sink.cleared = s.sink.cleared →
        ∃ bytes, Container.encode Code.format artifact mtime size = .ok bytes ∧
          (SessionM.runContainer bytes origin).run.run reader =
            .done (result.mapError .runtime,
              { reader with sink := printed.after reader.sink.written }) := by
  obtain ⟨script, hscript, hcode⟩ := Session.script_of_compile hlower hcoherent hcompile
  refine ⟨script, (s.behaviour origin.text script).1, (s.behaviour origin.text script).2,
    hscript, rfl, ?_, ?_⟩
  · obtain ⟨-, -, hbuiltins, hsink⟩ := s.compile_unchanged ⟨origin.text, text, none⟩
    rw [SessionM.run_runSource hcompile, Session.execute_compile hcode,
      Session.behaviour_congr hbuiltins (congrArg Sink.cleared hsink), hsink]
  · rintro u mtime size writer reader artifact rfl hlower' hcoherent' hcompile' hlimit hbuiltins
      hsink
    obtain ⟨script', hscript', hartifact⟩ :=
      Session.script_of_compile hlower' hcoherent' hcompile'
    have hsame : script' = script := by
      rw [hscript] at hscript'
      exact (Except.ok.inj hscript').symm
    rw [hsame] at hartifact
    obtain ⟨bytes, hencode, hdecode⟩ := Container.decode_encoded hlimit mtime size
    rw [Script.endsWithReturn_of_compile hartifact, if_pos rfl] at hdecode
    refine ⟨bytes, hencode, ?_⟩
    rw [SessionM.run_runContainer hdecode, Session.execute_compile hartifact,
      Session.behaviour_congr hbuiltins hsink]

/-- The code of a script that prints where it came from. -/
def Code.printsOrigin (filename : String) : Code where
  filename := filename
  constants := [.none]
  names := ["print", "__file__"]
  instructions := [.loadName 0, .loadName 1, .call 1, .pop, .loadConst 0, .ret]

theorem runContainer_like_runSource_printsOrigin :
    ∃ bytes, Container.encode Code.format (.printsOrigin "i") 1 2 = .ok bytes ∧
      (SessionM.runContainer bytes ⟨"o"⟩).run.run { sink := { written := "before\n" } } =
        .done (.ok .none, { sink := { written := "before\no\n" } }) := by
  let writer : Session := { config := { optimize := { deepFolding := true } } }
  have hcoherent := @Session.coherent_of_entries_eq_nil {} rfl ⟨"o", "print(__file__)", none⟩
  have hcoherent' := @Session.coherent_of_entries_eq_nil writer rfl ⟨"i", "print(__file__)", none⟩
  have hparsed : Script.ofText "print(__file__)" =
      .ok [.expr (.call (.name "print") [.name "__file__"])] := by cbv
  have hcompile : (({} : Session).compile ⟨"o", "print(__file__)", none⟩).1 =
      .ok (.printsOrigin "o") := by
    rw [Session.fst_compile hcoherent, Session.build, hparsed]
    rfl
  have hcompile' : (writer.compile ⟨"i", "print(__file__)", none⟩).1 =
      .ok (.printsOrigin "i") := by
    rw [Session.fst_compile hcoherent', Session.build, hparsed]
    rfl
  obtain ⟨script, result, printed, hscript, hbehaviour, -, hcontainer⟩ :=
    @runContainer_like_runSource "print(__file__)" ⟨"o"⟩ {} (.printsOrigin "o") rfl hcoherent
      hcompile
  obtain ⟨bytes, hencode, hrun⟩ := hcontainer ⟨"i", "print(__file__)", none⟩ 1 2 writer
    { sink := { written := "before\n" } } (.printsOrigin "i") rfl rfl hcoherent' hcompile'
    (by decide) rfl rfl
  rw [hparsed] at hscript
  cases hscript
  cases hbehaviour
  exact ⟨bytes, hencode, hrun⟩

end StackScript
