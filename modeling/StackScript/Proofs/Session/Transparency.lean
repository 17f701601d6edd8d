import StackScript.Proofs.Session.Operation

/-!
# What a session did before cannot be seen

A session carries three things from one operation to the next: the cache, the counts and the
output.  The counts are never read.  The output is only added to, and no program sees it
(`Machine.execute_after`).  That leaves the cache, which is read by compiling and by nothing
else.

So programs are compared in two sessions that are alike apart from cache, counts and earlier
output (`Session.Like`).  Loading, writing and running do the same in both, and say the same
(`SessionM.Blind`); compiling does so when what is filed for the unit is what would be built for
it, which is coherence (`Session.Coherent`).  Coherence of a whole history follows if no two
texts that were submitted under one name have the same fingerprint (`coherent_compileAll`).
-/

namespace StackScript

variable {σ α β ε : Type}

/-- Two sessions are alike, but for what was compiled and counted, and for something that the
first printed before. -/
structure Session.Like (earlier : String) (s t : Session) : Prop where
  /-- They have one configuration. -/
  config : s.config = t.config
  /-- They lower scripts in the same way. -/
  lower : s.lower = t.lower
  /-- They have the same builtins. -/
  builtins : s.builtins = t.builtins
  /-- Their sinks differ in what was printed before. -/
  sink : s.sink = t.sink.after earlier

namespace SessionM

variable (answer : (op : FileOp) → σ → op.Reply × σ)

/-- A program gives the same result in two sessions, leaves the same files, and leaves the
sessions alike; so it prints the same. -/
def Agrees (earlier : String) (m : SessionM α) (s t : Session) (files : σ) : Prop :=
  (m.perform answer s files).result = (m.perform answer t files).result ∧
    (m.perform answer s files).session.Like earlier (m.perform answer t files).session ∧
      (m.perform answer s files).files = (m.perform answer t files).files

/-- A program does not look at the cache. -/
def Blind (m : SessionM α) : Prop :=
  ∀ earlier s t files, s.Like earlier t → Agrees answer earlier m s t files

variable {answer} {earlier : String} {s t : Session} {files : σ}

/-- One program after the other agrees if the second does wherever the first arrives. -/
theorem Agrees.bind {m : SessionM α} {f : α → SessionM β} (hm : Agrees answer earlier m s t files)
    (hf : ∀ a s' t' files', m.perform answer s files = ⟨.ok a, s', files'⟩ →
      m.perform answer t files = ⟨.ok a, t', files'⟩ → s'.Like earlier t' →
        Agrees answer earlier (f a) s' t' files') :
    Agrees answer earlier (m >>= f) s t files := by
  obtain ⟨hresult, hlike, hfiles⟩ := hm
  unfold Agrees
  rw [perform_bind, perform_bind]
  rcases hs : m.perform answer s files with ⟨result, s', files'⟩
  rcases ht : m.perform answer t files with ⟨result', t', files''⟩
  rw [hs, ht] at hresult hlike hfiles
  obtain rfl : result = result' := hresult
  obtain rfl : files' = files'' := hfiles
  cases result with
  | error e => exact ⟨rfl, hlike, rfl⟩
  | ok a => exact hf a s' t' files' hs ht hlike

theorem blind_pure (a : α) : Blind answer (pure a : SessionM α) :=
  fun _ _ _ _ hlike => ⟨rfl, hlike, rfl⟩

theorem blind_throw (e : SessionError) : Blind answer (throw e : SessionM α) :=
  fun _ _ _ _ hlike => ⟨rfl, hlike, rfl⟩

theorem blind_ofFiles (wrap : ε → SessionError) (m : FileM (Except ε α)) :
    Blind answer (ofFiles wrap m) := by
  intro earlier s t files hlike
  unfold Agrees
  rw [perform_ofFiles, perform_ofFiles]
  exact ⟨rfl, hlike, rfl⟩

theorem blind_containerOptions : Blind answer containerOptions := by
  intro earlier s t files hlike
  refine ⟨?_, hlike, rfl⟩
  rw [perform_containerOptions, perform_containerOptions, hlike.config]

/-- Running code does not see what was printed before. -/
theorem blind_execute (code : Code) (origin : String) : Blind answer (execute code origin) := by
  intro earlier s t files hlike
  have hrun : Machine.execute s.builtins code ⟨.initial Session.mainModule origin, s.sink⟩ =
      ((Machine.execute t.builtins code ⟨.initial Session.mainModule origin, t.sink⟩).1,
        (Machine.execute t.builtins code
          ⟨.initial Session.mainModule origin, t.sink⟩).2.after earlier) := by
    rw [hlike.builtins, hlike.sink, ← Machine.execute_after]
    rfl
  unfold Agrees
  rw [execute, perform_ofStep, perform_ofStep]
  dsimp only [Session.execute]
  rw [hrun]
  exact ⟨rfl, ⟨hlike.config, hlike.lower, hlike.builtins, rfl⟩, rfl⟩

theorem Blind.bind {m : SessionM α} {f : α → SessionM β} (hm : Blind answer m)
    (hf : ∀ a, Blind answer (f a)) : Blind answer (m >>= f) :=
  fun earlier s t files hlike => (hm earlier s t files hlike).bind
    fun a s' t' files' _ _ hlike' => hf a earlier s' t' files' hlike'

theorem blind_write (p : Path) (code : Code) (stat : SourceStat) :
    Blind answer (write p code stat) := by
  unfold write
  cases Container.encode Code.format code stat.mtime stat.size with
  | error e => exact blind_throw _
  | ok bytes => exact (blind_ofFiles _ _).bind fun _ => blind_pure _

theorem blind_persist (u : SourceUnit) (code : Code) (stat : SourceStat) :
    Blind answer (persist u code stat) :=
  blind_containerOptions.bind fun _ => blind_write _ code stat

theorem blind_persistIn (dir : Path) (u : SourceUnit) (code : Code) (stat : SourceStat) :
    Blind answer (persistIn dir u code stat) :=
  blind_containerOptions.bind fun _ => blind_write _ code stat

theorem blind_runContainer (bytes : List UInt8) (origin : Path) :
    Blind answer (runContainer bytes origin) := by
  unfold runContainer
  cases Container.decode Code.format bytes with
  | error e => exact blind_throw _
  | ok c => exact blind_execute _ _

theorem blind_runContainerFile (p : Path) : Blind answer (runContainerFile p) :=
  (blind_ofFiles _ _).bind fun bytes => blind_runContainer bytes p

/-- Compiling agrees where what is filed is what would be built. -/
theorem agrees_compile {u : SourceUnit} (hlike : s.Like earlier t) (hs : s.Coherent u)
    (ht : t.Coherent u) : Agrees answer earlier (compile u) s t files := by
  obtain ⟨hconfig, hlower, hbuiltins, hsink⟩ := s.compile_unchanged u
  obtain ⟨hconfig', hlower', hbuiltins', hsink'⟩ := t.compile_unchanged u
  have hresult : (s.compile u).1 = (t.compile u).1 := by
    rw [Session.fst_compile hs, Session.fst_compile ht,
      Session.build_congr hlike.config hlike.lower rfl rfl]
  unfold Agrees
  rw [compile, perform_ofStep, perform_ofStep]
  refine ⟨by rw [hresult], ⟨?_, ?_, ?_, ?_⟩, rfl⟩
  · exact hconfig.trans (hlike.config.trans hconfig'.symm)
  · exact hlower.trans (hlike.lower.trans hlower'.symm)
  · exact hbuiltins.trans (hlike.builtins.trans hbuiltins'.symm)
  · rw [hsink, hsink', hlike.sink]

/-- A program that compiles a unit and then does not look at the cache any more. -/
theorem agrees_compile_bind {u : SourceUnit} {f : Code → SessionM α} (hlike : s.Like earlier t)
    (hs : s.Coherent u) (ht : t.Coherent u) (hf : ∀ code, Blind answer (f code)) :
    Agrees answer earlier (compile u >>= f) s t files :=
  (agrees_compile hlike hs ht).bind
    fun code s' t' files' _ _ hlike' => hf code earlier s' t' files' hlike'

/-- A program that loads a unit and goes on with it, in sessions that are what they were. -/
theorem agrees_load_bind {p : Path} {f : SourceUnit → SessionM α} (hlike : s.Like earlier t)
    (hf : ∀ u files', ((SourceUnit.load p).run answer files).1.toOption = some u →
      Agrees answer earlier (f u) s t files') :
    Agrees answer earlier (load p >>= f) s t files := by
  refine (blind_ofFiles _ _ earlier s t files hlike).bind ?_
  intro u s' t' files' hs ht hlike'
  rw [perform_ofFiles] at hs ht
  obtain ⟨hload, rfl, -⟩ := Performed.mk.inj hs
  obtain ⟨-, rfl, -⟩ := Performed.mk.inj ht
  refine hf u files' ?_
  cases hresult : ((SourceUnit.load p).run answer files).1 with
  | error e =>
    rw [hresult] at hload
    cases hload
  | ok v =>
    rw [hresult] at hload
    cases hload
    rfl

theorem agrees_runSource {u : SourceUnit} (hlike : s.Like earlier t) (hs : s.Coherent u)
    (ht : t.Coherent u) : Agrees answer earlier (runSource u) s t files :=
  agrees_compile_bind hlike hs ht fun code => blind_execute code u.identifier

end SessionM

open SessionM

/-- **An operation agrees in two sessions that are alike**, if both have filed for the unit it
asks for what they would build. -/
theorem Operation.agrees_program {answer : (op : FileOp) → σ → op.Reply × σ} {earlier : String}
    {s t : Session} {files : σ} (op : Operation) (hlike : s.Like earlier t)
    (hcoherent : ∀ u, op.request? answer files = some u → s.Coherent u ∧ t.Coherent u) :
    Agrees answer earlier op.program s t files := by
  have hreturn : ∀ {α : Type} {m : SessionM α} (g : α → OperationValue),
      Agrees answer earlier m s t files →
        Agrees answer earlier (m >>= fun a => pure (g a)) s t files :=
    fun g hm => hm.bind fun a s' t' files' _ _ hlike' =>
      blind_pure (g a) earlier s' t' files' hlike'
  cases op with
  | compileSource u =>
    obtain ⟨hs, ht⟩ := hcoherent u rfl
    exact hreturn _ (agrees_compile hlike hs ht)
  | runSource u =>
    obtain ⟨hs, ht⟩ := hcoherent u rfl
    exact hreturn _ (agrees_runSource hlike hs ht)
  | runFile p =>
    refine hreturn _ (agrees_load_bind hlike fun u files' hu => ?_)
    exact agrees_runSource hlike (hcoherent u hu).1 (hcoherent u hu).2
  | compileFile p =>
    refine hreturn _ (agrees_load_bind hlike fun u files' hu => ?_)
    exact agrees_compile_bind hlike (hcoherent u hu).1 (hcoherent u hu).2
      fun code => blind_persist u code u.recorded
  | compileFileIn p dir =>
    refine hreturn _ (agrees_load_bind hlike fun u files' hu => ?_)
    exact agrees_compile_bind hlike (hcoherent u hu).1 (hcoherent u hu).2
      fun code => blind_persistIn dir u code u.recorded
  | persist u code stat => exact hreturn _ (blind_persist u code stat earlier s t files hlike)
  | persistIn dir u code stat =>
    exact hreturn _ (blind_persistIn dir u code stat earlier s t files hlike)
  | runContainer bytes origin =>
    exact hreturn _ (blind_runContainer bytes origin earlier s t files hlike)
  | runContainerFile p => exact hreturn _ (blind_runContainerFile p earlier s t files hlike)

namespace Session

/-- No two of the texts that were submitted under one name have the same fingerprint. -/
def NoCollision (us : List SourceUnit) : Prop :=
  ∀ u ∈ us, ∀ v ∈ us, u.identifier = v.identifier →
    Fingerprint.ofText u.text = Fingerprint.ofText v.text → u.text = v.text

/-- Without collisions, what was compiled is coherent with what is compiled next. -/
theorem coherent_compileAll {s : Session} {u : SourceUnit} (hs : s.Coherent u)
    {us : List SourceUnit} (h : ∀ v ∈ us, v.key = u.key → v.text = u.text) :
    (s.compileAll us).Coherent u := by
  induction us generalizing s with
  | nil => exact hs
  | cons v us ih =>
    have hv : (s.compile v).2.Coherent u := hs.compile (h v List.mem_cons_self)
    exact ih hv fun w hw => h w (List.mem_cons_of_mem v hw)

theorem coherent_of_noCollision {s : Session} (hs : s.cache.entries = []) {u : SourceUnit}
    {us : List SourceUnit} (h : NoCollision (us ++ [u])) : (s.compileAll us).Coherent u := by
  refine coherent_compileAll (coherent_of_entries_eq_nil hs u) fun v hv hkey => ?_
  have hidentifier : v.identifier = u.identifier := congrArg CacheKey.identifier hkey
  have hfingerprint : v.fingerprint = u.fingerprint := congrArg CacheKey.fingerprint hkey
  exact h v (List.mem_append_left _ hv) u (List.mem_append_right _ List.mem_cons_self)
    hidentifier hfingerprint

/-- The session as it was when it was new: nothing is compiled, counted or printed. -/
def renewed (s : Session) : Session :=
  { s with cache := {}, stages := {}, sink := s.sink.cleared }

/-- A session is like what it was when it was new. -/
theorem like_renewed (s : Session) : s.Like s.sink.written s.renewed :=
  ⟨rfl, rfl, rfl, s.sink.after_cleared.symm⟩

end Session

end StackScript
