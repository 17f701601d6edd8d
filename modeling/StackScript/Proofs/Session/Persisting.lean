import StackScript.Proofs.Files.Replacing
import StackScript.Proofs.Naming
import StackScript.Proofs.Session.Operation
import StackScript.Proofs.Wire.RoundTrip

/-!
# Writing a container is all or nothing

Four operations write a container.  They differ in where its code comes from and where it goes
(`Operation.plan?`), and then all do the same: the code is encoded and a file is replaced
(`SessionM.holds_write`).  Everything before that only reads, and so do the other operations
(`SessionM.OnlyReads`).

So what is true of replacing a file is true of all operations: the tree goes through the three
states of `FileTree.Replacing`, however an operation ends (`Operation.holds_program`).  It
follows that at the path of a container there is what was there before, or all of what was to be
written.  The temporary file does not disturb this: its name has one dot in it, and that of a
container at least two.
-/

namespace StackScript

/-! ## What is to be written -/

/-- A container that is to be written. -/
structure PlannedContainer where
  /-- Where it is to be written. -/
  path : Path
  /-- The code that it is to hold. -/
  code : Code
  /-- Time and size that it is to record. -/
  stat : SourceStat

/-- The bytes of a container that is to be written. -/
def PlannedContainer.encode (plan : PlannedContainer) : Except ContainerError (List UInt8) :=
  Container.encode Code.format plan.code plan.stat.mtime plan.stat.size

/-- What is reported when a container has been written. -/
def PlannedContainer.written (plan : PlannedContainer) : WrittenContainer :=
  ⟨plan.path, .ofStat plan.stat.mtime plan.stat.size⟩

/-- The container of a unit with some code, beside the unit or in a directory. -/
def Session.plan (s : Session) (dir : Option Path) (u : SourceUnit) (code : Code)
    (stat : SourceStat) : PlannedContainer :=
  match dir with
  | none => ⟨s.config.container.containerPath ⟨u.identifier⟩, code, stat⟩
  | some dir => ⟨dir.join ⟨s.config.container.containerName ⟨u.identifier⟩⟩, code, stat⟩

/-- Of the session only the configuration matters. -/
theorem Session.plan_congr {s s' : Session} (h : s'.config = s.config) (dir : Option Path)
    (u : SourceUnit) (code : Code) (stat : SourceStat) :
    s'.plan dir u code stat = s.plan dir u code stat := by
  unfold plan
  rw [h]

/-- The container of a script in a tree, if the script can be loaded and compiled. -/
def Session.planFile? (s : Session) (t : FileTree) (dir : Option Path) (p : Path) :
    Option PlannedContainer := do
  let u ← ((SourceUnit.load p).run FileTree.answer t).1.toOption
  let code ← (s.compile u).1.toOption
  return s.plan dir u code u.recorded

/-- The container that an operation is to write, if there is one. -/
def Operation.plan? (s : Session) (t : FileTree) : Operation → Option PlannedContainer
  | .compileFile p => s.planFile? t none p
  | .compileFileIn p dir => s.planFile? t (some dir) p
  | .persist u code stat => some (s.plan none u code stat)
  | .persistIn dir u code stat => some (s.plan (some dir) u code stat)
  | .compileSource _ | .runSource _ | .runFile _ | .runContainer .. | .runContainerFile _ => none

/-- What the header of a container says can be read back from its bytes. -/
theorem PlannedContainer.parse_of_encode {plan : PlannedContainer} {bytes : List UInt8}
    (h : plan.encode = .ok bytes) : Header.parse bytes = .ok plan.written.header := by
  obtain rfl : (Header.ofStat plan.stat.mtime plan.stat.size).bytes ++ Payload.code plan.code =
      bytes := Except.ok.inj h
  exact Header.parse_bytes_append rfl _

/-- A container is written under the name that the options give it. -/
theorem Session.path_plan (s : Session) (dir : Option Path) (u : SourceUnit) (code : Code)
    (stat : SourceStat) : ∃ above script : Path,
      (s.plan dir u code stat).path = above.join ⟨s.config.container.containerName script⟩ := by
  cases dir with
  | none =>
    let beside : Path := (Path.parent? ⟨u.identifier⟩).getD ⟨""⟩
    refine ⟨beside.join ⟨s.config.container.cacheDir⟩, ⟨u.identifier⟩, ?_⟩
    simp only [plan, ContainerOptions.containerPath, beside]
  | some dir =>
    refine ⟨dir, ⟨u.identifier⟩, ?_⟩
    simp only [plan]

theorem Session.planFile?_eq_some_iff {s : Session} {t : FileTree} {dir : Option Path} {p : Path}
    {plan : PlannedContainer} :
    s.planFile? t dir p = some plan ↔
      ∃ u code, ((SourceUnit.load p).run FileTree.answer t).1 = .ok u ∧
        (s.compile u).1 = .ok code ∧ s.plan dir u code u.recorded = plan := by
  rw [planFile?]
  cases ((SourceUnit.load p).run FileTree.answer t).1 with
  | error e => simp [Except.toOption]
  | ok u =>
    cases hcompile : (s.compile u).1 with
    | error e => simp [Except.toOption, hcompile]
    | ok code => simp [Except.toOption, hcompile]

theorem Operation.path_of_plan? {s : Session} {t : FileTree} {op : Operation}
    {plan : PlannedContainer} (h : op.plan? s t = some plan) : ∃ above script : Path,
      plan.path = above.join ⟨s.config.container.containerName script⟩ := by
  have hfile : ∀ {dir p}, s.planFile? t dir p = some plan → ∃ above script : Path,
      plan.path = above.join ⟨s.config.container.containerName script⟩ := by
    intro dir p hplan
    obtain ⟨u, code, -, -, rfl⟩ := Session.planFile?_eq_some_iff.mp hplan
    exact s.path_plan ..
  cases op with
  | compileFile p => exact hfile h
  | compileFileIn p dir => exact hfile h
  | persist u code stat =>
    rw [← Option.some.inj h]
    exact s.path_plan none u code stat
  | persistIn dir u code stat =>
    rw [← Option.some.inj h]
    exact s.path_plan (some dir) u code stat
  | _ => cases h

/-! ## Programs of a session on a file system -/

namespace SessionM

open FileTree

variable {α β ε : Type} {seen seen' : FileTree → Prop} {s : Session} {t : FileTree}

/-- Something is true of every tree that can be seen while a program of a session runs, and
something of everything that it can end with. -/
def Holds (seen : FileTree → Prop) (ends : Except SessionError α → Session → FileTree → Prop)
    (m : SessionM α) (s : Session) (t : FileTree) : Prop :=
  (m.run.run s).Holds seen (fun x t' => ends x.1 x.2 t') t

theorem holds_pure {ends : Except SessionError α → Session → FileTree → Prop} {a : α}
    (hseen : seen t) (hends : ends (.ok a) s t) : (pure a : SessionM α).Holds seen ends s t :=
  ⟨hseen, hends⟩

theorem holds_throw {ends : Except SessionError α → Session → FileTree → Prop} {e : SessionError}
    (hseen : seen t) (hends : ends (.error e) s t) : (throw e : SessionM α).Holds seen ends s t :=
  ⟨hseen, hends⟩

theorem holds_ofStep {ends : Except SessionError α → Session → FileTree → Prop}
    {wrap : ε → SessionError} {step : Session → Except ε α × Session} (hseen : seen t)
    (hends : ends ((step s).1.mapError wrap) (step s).2 t) :
    (ofStep wrap step).Holds seen ends s t :=
  ⟨hseen, hends⟩

theorem holds_ofFiles {ends : Except SessionError α → Session → FileTree → Prop}
    {wrap : ε → SessionError} {m : FileM (Except ε α)}
    (h : m.Holds seen (fun result t' => ends (result.mapError wrap) s t') t) :
    (ofFiles wrap m).Holds seen ends s t :=
  FileM.Holds.bind h fun _ _ hseen hends => ⟨hseen, hends⟩

/-- One program after the other, unless the first fails. -/
theorem Holds.bind {between : Except SessionError α → Session → FileTree → Prop}
    {ends : Except SessionError β → Session → FileTree → Prop} {m : SessionM α}
    {f : α → SessionM β} (hm : m.Holds seen between s t)
    (hok : ∀ a s' t', seen t' → between (.ok a) s' t' → (f a).Holds seen ends s' t')
    (herror : ∀ e s' t', seen t' → between (.error e) s' t' → ends (.error e) s' t') :
    (m >>= f).Holds seen ends s t := by
  refine FileM.Holds.bind hm fun x t' hseen hbetween => ?_
  obtain ⟨result, s'⟩ := x
  cases result with
  | error e => exact ⟨hseen, herror e s' t' hseen hbetween⟩
  | ok a => exact hok a s' t' hseen hbetween

theorem Holds.mono {ends ends' : Except SessionError α → Session → FileTree → Prop}
    {m : SessionM α} (h : m.Holds seen ends s t) (hseen : ∀ t', seen t' → seen' t')
    (hends : ∀ result s' t', ends result s' t' → ends' result s' t') :
    m.Holds seen' ends' s t :=
  FileM.Holds.mono h hseen fun x t' => hends x.1 x.2 t'

theorem Holds.observed {ends : Except SessionError α → Session → FileTree → Prop}
    {m : SessionM α} (h : m.Holds seen ends s t) {t' : FileTree}
    (hobserves : (m.run.run s).Observes t t') : seen t' :=
  FileM.Holds.observed h hobserves

theorem Holds.ended {ends : Except SessionError α → Session → FileTree → Prop} {m : SessionM α}
    (h : m.Holds seen ends s t) {result : Except SessionError α} {s' : Session} {t' : FileTree}
    (hends : (m.run.run s).Ends t (result, s') t') : ends result s' t' := by
  have hended := FileM.Holds.ended h hends
  exact hended

/-! ## Programs that only read -/

/-- A program leaves the files alone. -/
def OnlyReads (m : SessionM α) : Prop :=
  ∀ s t, m.Holds (· = t) (fun _ _ _ => True) s t

theorem OnlyReads.bind {m : SessionM α} {f : α → SessionM β} (hm : OnlyReads m)
    (hf : ∀ a, OnlyReads (f a)) : OnlyReads (m >>= f) := by
  intro s t
  refine (hm s t).bind (fun a s' t' hseen _ => ?_) fun _ _ _ _ _ => trivial
  obtain rfl : t' = t := hseen
  exact hf a s' t'

theorem onlyReads_throw (e : SessionError) : OnlyReads (throw e : SessionM α) :=
  fun _ _ => holds_throw rfl trivial

theorem onlyReads_ofStep (wrap : ε → SessionError) (step : Session → Except ε α × Session) :
    OnlyReads (ofStep wrap step) :=
  fun _ _ => holds_ofStep rfl trivial

theorem run_sourceUnit_load {p : Path} {t : FileTree} {bs : List UInt8} {text : String}
    {stat : FileStat} (hread : t.read p = .ok bs) (htext : FileM.textOfBytes bs = .ok text)
    (hstat : t.stat p = .ok stat) :
    ((SourceUnit.load p).run FileTree.answer t).1 = .ok ⟨p.text, text, some stat.recorded⟩ := by
  simp only [SourceUnit.load, FileM.readText, FileM.request, FileM.ask_bind, FileM.done_bind,
    FileM.run, FileTree.answer, hread, FileM.pure_eq, htext, hstat]

/-- Loading a script gives what is in the tree, if it gives anything. -/
theorem holds_sourceUnit_load (p : Path) (t : FileTree) :
    (SourceUnit.load p).Holds (· = t)
      (fun result t' => t' = t ∧ ∀ u, result = .ok u →
        ((SourceUnit.load p).run FileTree.answer t).1 = .ok u) t := by
  refine ⟨rfl, fun reply t₁ hread => ?_⟩
  obtain ⟨hread, rfl⟩ := hread
  cases reply with
  | error e => exact ⟨rfl, rfl, fun u hu => by cases hu⟩
  | ok bs =>
    replace hread : t₁.read p = .ok bs := by
      obtain hreal | ⟨e, herror⟩ := hread
      · exact hreal.symm
      · cases herror
    show (FileM.done (FileM.textOfBytes bs) >>= _).Holds _ _ t₁
    rw [FileM.done_bind]
    cases htext : FileM.textOfBytes bs with
    | error e => exact ⟨rfl, rfl, fun u hu => by cases hu⟩
    | ok text =>
      refine ⟨rfl, fun reply t₂ hstat => ?_⟩
      obtain ⟨hstat, rfl⟩ := hstat
      cases reply with
      | error e => exact ⟨rfl, rfl, fun u hu => by cases hu⟩
      | ok stat =>
        obtain hreal | ⟨e, herror⟩ := hstat
        · refine ⟨rfl, rfl, fun u hu => ?_⟩
          cases hu
          exact run_sourceUnit_load hread htext hreal.symm
        · cases herror

theorem onlyReads_load (p : Path) : OnlyReads (load p) :=
  fun _ t => holds_ofFiles ((holds_sourceUnit_load p t).mono (fun _ h => h) fun _ _ _ => trivial)

theorem onlyReads_compile (u : SourceUnit) : OnlyReads (compile u) := onlyReads_ofStep _ _

theorem onlyReads_runSource (u : SourceUnit) : OnlyReads (runSource u) :=
  (onlyReads_compile u).bind fun _ => onlyReads_ofStep _ _

theorem onlyReads_runFile (p : Path) : OnlyReads (runFile p) :=
  (onlyReads_load p).bind onlyReads_runSource

theorem onlyReads_runContainer (bytes : List UInt8) (origin : Path) :
    OnlyReads (runContainer bytes origin) := by
  unfold runContainer
  cases Container.decode Code.format bytes with
  | error e => exact onlyReads_throw _
  | ok c => exact onlyReads_ofStep _ _

theorem onlyReads_runContainerFile (p : Path) : OnlyReads (runContainerFile p) := by
  refine OnlyReads.bind (fun s t => holds_ofFiles ?_) fun bytes => onlyReads_runContainer bytes p
  exact ⟨rfl, fun reply t' hserves => ⟨hserves.2, trivial⟩⟩

/-! ## Programs that write a container -/

/-- What can be seen while a container is written, if one is to be written. -/
def Writing (plan? : Option PlannedContainer) (t t' : FileTree) : Prop :=
  t' = t ∨ ∃ plan bytes, plan? = some plan ∧ plan.encode = .ok bytes ∧
    t.Replacing plan.path bytes t'

theorem Writing.of_some {plan : PlannedContainer} {t t' : FileTree} (h : Writing (some plan) t t') :
    t' = t ∨ ∃ bytes, plan.encode = .ok bytes ∧ t.Replacing plan.path bytes t' := by
  obtain hsame | ⟨_, bytes, hplan, hencode, hreplacing⟩ := h
  · exact .inl hsame
  · rw [← Option.some.inj hplan] at hencode hreplacing
    exact .inr ⟨bytes, hencode, hreplacing⟩

/-- How writing a container ends: it has been written, or there are only new directories. -/
def Wrote (plan? : Option PlannedContainer) (t : FileTree) :
    Except SessionError WrittenContainer → FileTree → Prop
  | .ok container, t' => ∃ plan bytes, plan? = some plan ∧ plan.encode = .ok bytes ∧
      container = plan.written ∧ t.Replaced t' plan.path bytes
  | .error _, t' => t.GainsDirs t'

theorem holds_write (plan : PlannedContainer) (s : Session) (t : FileTree) :
    (write plan.path plan.code plan.stat).Holds (Writing (some plan) t)
      (fun result _ t' => Wrote (some plan) t result t') s t := by
  unfold write
  cases hencode : Container.encode Code.format plan.code plan.stat.mtime plan.stat.size with
  | error e => exact holds_throw (.inl rfl) (.refl [] t)
  | ok bytes =>
    have hreplace : (ofFiles (fun e => .file e.1 e.2)
        (FileM.replace (directoryOf plan.path) plan.path bytes)).Holds (Writing (some plan) t)
          (fun result _ t' => t.EndsReplacing plan.path bytes result t') s t := by
      refine holds_ofFiles ((FileM.holds_replace plan.path bytes _ t).mono (fun t' hseen => ?_) ?_)
      · exact .inr ⟨plan, bytes, rfl, hencode, hseen⟩
      · rintro (e | u) t' hends <;> exact hends
    refine hreplace.bind (fun _ s' t' hseen hreplaced => ?_) fun e s' t' _ hdirs => hdirs
    exact holds_pure hseen ⟨plan, bytes, rfl, hencode, rfl, hreplaced⟩

theorem holds_containerOptions_bind {ends : Except SessionError α → Session → FileTree → Prop}
    {f : ContainerOptions → SessionM α} (h : (f s.config.container).Holds seen ends s t) :
    (containerOptions >>= f).Holds seen ends s t := h

/-- Write a container beside its script, or into a directory. -/
def persistTo (dir : Option Path) (u : SourceUnit) (code : Code) (stat : SourceStat) :
    SessionM WrittenContainer :=
  match dir with
  | none => persist u code stat
  | some dir => persistIn dir u code stat

theorem holds_persistTo (dir : Option Path) (u : SourceUnit) (code : Code) (stat : SourceStat)
    (s : Session) (t : FileTree) :
    (persistTo dir u code stat).Holds (Writing (some (s.plan dir u code stat)) t)
      (fun result _ t' => Wrote (some (s.plan dir u code stat)) t result t') s t := by
  have hwrite := holds_write (s.plan dir u code stat) s t
  cases dir with
  | none =>
    simp only [Session.plan] at hwrite ⊢
    exact holds_containerOptions_bind hwrite
  | some dir =>
    simp only [Session.plan] at hwrite ⊢
    exact holds_containerOptions_bind hwrite

theorem holds_load_bind {ends : Except SessionError α → Session → FileTree → Prop} {p : Path}
    {f : SourceUnit → SessionM α} (hseen : seen t)
    (hok : ∀ u, ((SourceUnit.load p).run FileTree.answer t).1 = .ok u →
      (f u).Holds seen ends s t)
    (herror : ∀ e, ends (.error e) s t) : (load p >>= f).Holds seen ends s t := by
  have hload : (load p).Holds seen (fun result s' t' => s' = s ∧ t' = t ∧ ∀ u, result = .ok u →
      ((SourceUnit.load p).run FileTree.answer t).1 = .ok u) s t := by
    refine holds_ofFiles ((holds_sourceUnit_load p t).mono ?_ ?_)
    · rintro t' rfl
      exact hseen
    · rintro (e | u) t' ⟨hsame, hu⟩
      · exact ⟨rfl, hsame, fun u hu => by cases hu⟩
      · exact ⟨rfl, hsame, fun v hv => hu v (congrArg Except.ok (Except.ok.inj hv))⟩
  refine hload.bind (fun u s' t' _ hloaded => ?_) fun e s' t' _ hloaded => ?_
  · obtain ⟨rfl, rfl, hu⟩ := hloaded
    exact hok u (hu u rfl)
  · obtain ⟨rfl, rfl, -⟩ := hloaded
    exact herror e

theorem holds_compile_bind {ends : Except SessionError α → Session → FileTree → Prop}
    {u : SourceUnit} {f : Code → SessionM α} (hseen : seen t)
    (hok : ∀ code, (s.compile u).1 = .ok code → (f code).Holds seen ends (s.compile u).2 t)
    (herror : ∀ e, ends (.error e) (s.compile u).2 t) : (compile u >>= f).Holds seen ends s t := by
  have hcompile : (compile u).Holds seen (fun result s' t' =>
      result = (s.compile u).1.mapError .compile ∧ s' = (s.compile u).2 ∧ t' = t) s t :=
    holds_ofStep hseen ⟨rfl, rfl, rfl⟩
  refine hcompile.bind (fun code s' t' _ hcompiled => ?_) fun e s' t' _ hcompiled => ?_
  · obtain ⟨hresult, rfl, rfl⟩ := hcompiled
    refine hok code ?_
    cases hfst : (s.compile u).1 with
    | error e =>
      rw [hfst] at hresult
      cases hresult
    | ok c =>
      rw [hfst] at hresult
      exact congrArg Except.ok (Except.ok.inj hresult).symm
  · obtain ⟨-, rfl, rfl⟩ := hcompiled
    exact herror e

/-- Loading and compiling a script, and writing its container. -/
theorem holds_compileFile (dir : Option Path) (p : Path) (s : Session) (t : FileTree) :
    (load p >>= fun u => compile u >>= fun code => persistTo dir u code u.recorded).Holds
      (Writing (s.planFile? t dir p) t)
      (fun result _ t' => Wrote (s.planFile? t dir p) t result t') s t := by
  refine holds_load_bind (.inl rfl) (fun u hu => ?_) fun e => .refl [] t
  refine holds_compile_bind (.inl rfl) (fun code hcode => ?_) fun e => .refl [] t
  have hplan : s.planFile? t dir p = some ((s.compile u).2.plan dir u code u.recorded) := by
    rw [Session.plan_congr (s.compile_unchanged u).1]
    exact Session.planFile?_eq_some_iff.mpr ⟨u, code, hu, hcode, rfl⟩
  rw [hplan]
  exact holds_persistTo dir u code u.recorded (s.compile u).2 t

end SessionM

/-! ## Operations -/

namespace Operation

open SessionM

variable {α : Type} {s : Session} {t : FileTree}

/-- How an operation ends: a container has been written, or nothing has changed, or there are
only new directories. -/
def Leaves (plan? : Option PlannedContainer) (t : FileTree) :
    Except SessionError OperationValue → FileTree → Prop
  | .ok (.wrote container), t' => Wrote plan? t (.ok container) t'
  | .ok _, t' => t' = t
  | .error _, t' => t.GainsDirs t'

theorem holds_of_onlyReads {m : SessionM α} (hm : OnlyReads m) {value : α → OperationValue}
    {plan? : Option PlannedContainer} (hvalue : ∀ a, Leaves plan? t (.ok (value a)) t) :
    (m >>= fun a => pure (value a)).Holds (Writing plan? t)
      (fun result _ t' => Leaves plan? t result t') s t := by
  have hunseen : (m >>= fun a => pure (value a)).Holds (· = t)
      (fun result _ t' => Leaves plan? t result t') s t := by
    refine (hm s t).bind (fun a s' t' hseen _ => ?_) fun e s' t' hseen _ => ?_
    · obtain rfl : t' = t := hseen
      exact holds_pure rfl (hvalue a)
    · obtain rfl : t' = t := hseen
      exact .refl [] t'
  exact hunseen.mono (fun t' hseen => .inl hseen) fun _ _ _ hleaves => hleaves

theorem holds_of_wrote {m : SessionM WrittenContainer} {plan? : Option PlannedContainer}
    (hm : m.Holds (Writing plan? t) (fun result _ t' => Wrote plan? t result t') s t) :
    (m >>= fun container => pure (.wrote container)).Holds (Writing plan? t)
      (fun result _ t' => Leaves plan? t result t') s t :=
  hm.bind (fun _ _ _ hseen hwrote => holds_pure hseen hwrote) fun _ _ _ _ hdirs => hdirs

/-- **What is true of every operation**, while it runs and when it ends. -/
theorem holds_program (op : Operation) (s : Session) (t : FileTree) :
    op.program.Holds (Writing (op.plan? s t) t)
      (fun result _ t' => Leaves (op.plan? s t) t result t') s t := by
  cases op with
  | compileSource u => exact holds_of_onlyReads (onlyReads_compile u) fun _ => rfl
  | runSource u => exact holds_of_onlyReads (onlyReads_runSource u) fun _ => rfl
  | runFile p => exact holds_of_onlyReads (onlyReads_runFile p) fun _ => rfl
  | compileFile p => exact holds_of_wrote (holds_compileFile none p s t)
  | compileFileIn p dir => exact holds_of_wrote (holds_compileFile (some dir) p s t)
  | persist u code stat => exact holds_of_wrote (holds_persistTo none u code stat s t)
  | persistIn dir u code stat => exact holds_of_wrote (holds_persistTo (some dir) u code stat s t)
  | runContainer bytes origin =>
    exact holds_of_onlyReads (onlyReads_runContainer bytes origin) fun _ => rfl
  | runContainerFile p => exact holds_of_onlyReads (onlyReads_runContainerFile p) fun _ => rfl

/-- What can be seen at the path of a container while it is written. -/
theorem content?_of_writing {op : Operation} {plan : PlannedContainer} {t' : FileTree}
    {place : Place} (hcheck : s.config.container.check = .ok ()) (hplan : op.plan? s t = some plan)
    (hseen : Writing (some plan) t t') (hresolve : t'.resolve plan.path = .ok place) :
    t'.content? place = t.content? place ∨
      ∃ bytes, plan.encode = .ok bytes ∧ t'.content? place = some bytes := by
  rcases hseen.of_some with rfl | ⟨bytes, hencode, hreplacing⟩
  · exact .inl rfl
  · obtain ⟨above, script, hpath⟩ := path_of_plan? hplan
    have hname := ContainerOptions.isName_containerName hcheck script
    have hdots := s.config.container.two_le_count_containerName script
    have htext : (⟨s.config.container.containerName script⟩ : Path) =
        ⟨String.ofList (s.config.container.containerName script).toList⟩ := by
      rw [String.ofList_toList]
    rw [hpath, htext] at hreplacing hresolve
    have htemp : ¬FileTree.IsTempName (s.config.container.containerName script).toList := by
      intro htemp
      rw [FileTree.count_of_isTempName htemp] at hdots
      omega
    rcases hreplacing.content?_eq hname.1 hname.2 htemp hresolve with hbefore | hafter
    · exact .inl hbefore
    · exact .inr ⟨bytes, hencode, hafter⟩

/-- **Writing a container is all or nothing.**  Take any operation, on any files, whatever the
file system makes of its requests.

* Whenever the files are looked at, nothing has changed if no container is to be written.  If one
  is to be written, its path leads where it led before, and in the file there is what was there
  before, or all the bytes of the container.  (The options of the session have to be such as pass
  their check; otherwise they could spell the name of a temporary file.)
* When the operation reports a container, the file at its path holds the bytes of the container,
  the header that is reported can be read back from them, and apart from that file there are at
  most new directories; so no temporary file is left.
* When the operation fails, there are at most new directories. -/
theorem container_all_or_nothing (op : Operation) (s : Session) (t : FileTree) :
    let program := op.program.run.run s
    (∀ t', program.Observes t t' →
      match op.plan? s t with
      | none => t' = t
      | some plan =>
          (∀ place, t.resolve plan.path = .ok place → t'.resolve plan.path = .ok place) ∧
          (s.config.container.check = .ok () → ∀ place, t'.resolve plan.path = .ok place →
            t'.content? place = t.content? place ∨
              ∃ bytes, plan.encode = .ok bytes ∧ t'.content? place = some bytes)) ∧
    (∀ container s' t', program.Ends t (.ok (.wrote container), s') t' →
      ∃ plan bytes place, op.plan? s t = some plan ∧ plan.encode = .ok bytes ∧
        container.path = plan.path ∧ t'.resolve container.path = .ok place ∧
        t'.content? place = some bytes ∧ Header.parse bytes = .ok container.header ∧
        t.ChangedAt [place] t') ∧
    ∀ e s' t', program.Ends t (.error e, s') t' → t.GainsDirs t' := by
  intro program
  have hholds := op.holds_program s t
  refine ⟨fun t' hobserves => ?_, fun container s' t' hends => ?_, fun e s' t' hends => ?_⟩
  · have hseen := hholds.observed hobserves
    cases hplan : op.plan? s t with
    | none =>
      rw [hplan] at hseen
      obtain rfl | ⟨plan, bytes, hnone, -, -⟩ := hseen
      · rfl
      · cases hnone
    | some plan =>
      rw [hplan] at hseen
      refine ⟨fun place hresolve => ?_, fun hcheck place => content?_of_writing hcheck hplan hseen⟩
      obtain rfl | ⟨bytes, -, hreplacing⟩ := hseen.of_some
      · exact hresolve
      · exact hreplacing.keepsDirs.resolve hresolve
  · obtain ⟨plan, bytes, hplan, hencode, rfl, place, mtime, hresolve, hnode, -, hchanged⟩ :=
      hholds.ended hends
    exact ⟨plan, bytes, place, hplan, hencode, rfl, hresolve, FileTree.content?_of_node? hnode,
      PlannedContainer.parse_of_encode hencode, hchanged⟩
  · exact hholds.ended hends

/-- What an operation does on a tree in memory is something that it can do. -/
theorem ends_perform (op : Operation) (s : Session) (t : FileTree) :
    (op.program.run.run s).Ends t ((op.perform FileTree.answer s t).result,
      (op.perform FileTree.answer s t).session) (op.perform FileTree.answer s t).files :=
  FileM.ends_run _ t

/-- The place of a container that is out of date. -/
def outdatedPlace : Place := ["__pycache__".toList, "a.pyrite-01.pyc".toList]

/-- A tree with something else in the place of a container. -/
def outdatedTree : FileTree :=
  ⟨[(["__pycache__".toList], .dir), (outdatedPlace, .file [1] 0)], []⟩

/-- The operation that writes the container. -/
def renewal : Operation :=
  .persist ⟨"a.py", "", none⟩ ⟨"a.py", [.none], [], [.loadConst 0, .ret]⟩ ⟨5, 0⟩

/-- A container is written over a file that is there. -/
theorem container_all_or_nothing_renewal :
    let done := renewal.perform FileTree.answer {} outdatedTree
    let path : Path := ⟨"__pycache__/a.pyrite-01.pyc"⟩
    ContainerOptions.check {} = .ok () ∧
      (renewal.program.run.run {}).Ends outdatedTree (done.result, done.session) done.files ∧
      done.result = .ok (.wrote ⟨path, .ofStat 5 0⟩) ∧
      outdatedTree.content? outdatedPlace = some [1] ∧
      (∃ plan, renewal.plan? {} outdatedTree = some plan ∧
        (done.files.content? outdatedPlace = outdatedTree.content? outdatedPlace ∨
          ∃ bytes, plan.encode = .ok bytes ∧ done.files.content? outdatedPlace = some bytes)) ∧
      ∃ bytes, done.files.content? outdatedPlace = some bytes ∧
        Header.parse bytes = .ok (.ofStat 5 0) ∧
          outdatedTree.ChangedAt [outdatedPlace] done.files := by
  have hcheck : ContainerOptions.check {} = .ok () := by decide +kernel
  have hends := renewal.ends_perform {} outdatedTree
  have hresult : (renewal.perform FileTree.answer {} outdatedTree).result =
      .ok (.wrote ⟨⟨"__pycache__/a.pyrite-01.pyc"⟩, .ofStat 5 0⟩) := by
    decide +kernel
  have hresolve : (renewal.perform FileTree.answer {} outdatedTree).files.resolve
      ⟨"__pycache__/a.pyrite-01.pyc"⟩ = .ok outdatedPlace := by
    decide +kernel
  obtain ⟨hseen, hwrote, -⟩ := container_all_or_nothing renewal {} outdatedTree
  obtain ⟨plan, bytes, found, hplan, -, hpath, hfound, hcontent, hparse, hchanged⟩ :=
    hwrote _ _ _ (hresult ▸ hends)
  obtain rfl : found = outdatedPlace := Except.ok.inj (hfound.symm.trans hresolve)
  have hobserved := hseen _ hends.observes
  rw [hplan] at hobserved
  exact ⟨hcheck, hends, hresult, by decide,
    ⟨plan, hplan, hobserved.2 hcheck outdatedPlace (hpath ▸ hresolve)⟩,
    bytes, hcontent, hparse, hchanged⟩

end Operation

end StackScript
