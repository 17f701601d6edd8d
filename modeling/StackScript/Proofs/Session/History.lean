import StackScript.Files.Tree
import StackScript.Proofs.Session.Transparency

/-!
# The books of a session

A session counts its lookups, keeps what it compiled, and counts the stages it ran.  All of it is
determined by the units that it was asked to compile, in their order.  A request is answered from
the cache if an earlier unit with the same key could be compiled; the others are built
(`Session.unfiled`), and each of them is parsed once, lowered if it is a script, and filed if
that succeeds.

One compilation adds to the books what it should (`Accounts.filed`, `Accounts.notFiled`); whether
it is answered from the cache depends on the keys that are filed, and those are known
(`contains_compile`).  So the books of a whole list of units follow by induction
(`accounts_compileAll`), and those of a history with them, since it leaves a session as its
requests would.
-/

namespace StackScript

variable {σ : Type}

/-- Whether the text of a unit is a script. -/
def SourceUnit.isScript (u : SourceUnit) : Bool := (Script.ofText u.text).isOk

/-- Whether an operation runs a container. -/
def Operation.runsContainer : Operation → Bool
  | .runContainer .. | .runContainerFile _ => true
  | _ => false

namespace Session

/-- Whether a unit can be compiled: it is a script, and the script can be lowered. -/
def canBuild (s : Session) (u : SourceUnit) : Bool := (s.build u).1.isOk

/-- The units that have to be built, of some that are compiled one after the other behind earlier
ones: all but those with the key of one that came before and could be compiled. -/
def unfiled (s : Session) (earlier : List SourceUnit) : List SourceUnit → List SourceUnit
  | [] => []
  | u :: us =>
      if earlier.any fun v => v.key == u.key && s.canBuild v then
        s.unfiled (u :: earlier) us
      else
        u :: s.unfiled (u :: earlier) us

/-- What some requests add to the books of a session, when some of them are built. -/
structure Accounts (s : Session) (requested built : List SourceUnit) (t t' : Session) : Prop where
  /-- Every request is looked up. -/
  lookups : t'.cache.hits + t'.cache.misses = t.cache.hits + t.cache.misses + requested.length
  /-- What is built was not found. -/
  misses : t'.cache.misses = t.cache.misses + built.length
  /-- What is built is parsed. -/
  parses : t'.stages.parses = t.stages.parses + built.length
  /-- What is a script is lowered. -/
  lowerings : t'.stages.lowerings = t.stages.lowerings + built.countP SourceUnit.isScript
  /-- What was lowered is given to the last pass, if the switch is on. -/
  peepholes : t'.stages.peepholes = t.stages.peepholes +
    if s.config.optimize.peephole then built.countP s.canBuild else 0
  /-- What was lowered is filed. -/
  entries : t'.cache.size = t.cache.size + built.countP s.canBuild

variable {s t : Session} {u : SourceUnit}

theorem Accounts.refl (s t : Session) : Accounts s [] [] t t :=
  ⟨rfl, rfl, rfl, rfl, by simp, rfl⟩

theorem Accounts.trans {t₁ t₂ t₃ : Session} {us vs built built' : List SourceUnit}
    (h₁ : Accounts s us built t₁ t₂) (h₂ : Accounts s vs built' t₂ t₃) :
    Accounts s (us ++ vs) (built ++ built') t₁ t₃ where
  lookups := by rw [h₂.lookups, h₁.lookups, List.length_append, Nat.add_assoc]
  misses := by rw [h₂.misses, h₁.misses, List.length_append, Nat.add_assoc]
  parses := by rw [h₂.parses, h₁.parses, List.length_append, Nat.add_assoc]
  lowerings := by rw [h₂.lowerings, h₁.lowerings, List.countP_append, Nat.add_assoc]
  peepholes := by
    rw [h₂.peepholes, h₁.peepholes, List.countP_append]
    split <;> omega
  entries := by rw [h₂.entries, h₁.entries, List.countP_append, Nat.add_assoc]

/-- A unit that was filed costs a lookup. -/
theorem Accounts.filed (s : Session) {code : Code} (hget : t.cache.get? u.key = some code) :
    Accounts s [u] [] t (t.compile u).2 := by
  rw [compile_of_filed hget]
  exact ⟨Nat.add_right_comm .., rfl, rfl, rfl, by simp, rfl⟩

/-- The stages of a build, by how far it gets. -/
theorem snd_build (s : Session) (u : SourceUnit) :
    (s.build u).2 = ⟨1, [u].countP SourceUnit.isScript,
      if s.config.optimize.peephole then [u].countP s.canBuild else 0⟩ := by
  rw [List.countP_singleton, List.countP_singleton, SourceUnit.isScript, canBuild]
  cases hscript : Script.ofText u.text with
  | error e =>
    have hbuild : s.build u = (.error (.invalid u.identifier e), ⟨1, 0, 0⟩) := by
      rw [build, hscript]
    simp [hbuild, Except.isOk, Except.toBool]
  | ok script =>
    cases hcode : script.compileWith s.lower s.config.optimize u.identifier with
    | error e =>
      have hbuild : s.build u = (.error (.notLowered e), ⟨1, 1, 0⟩) := by
        simp only [build, hscript, hcode]
      simp [hbuild, Except.isOk, Except.toBool]
    | ok code =>
      have hbuild : s.build u =
          (.ok code, ⟨1, 1, if s.config.optimize.peephole then 1 else 0⟩) := by
        simp only [build, hscript, hcode]
      simp [hbuild, Except.isOk, Except.toBool]

/-- A unit that was not filed is built. -/
theorem Accounts.notFiled (hconfig : t.config = s.config) (hlower : t.lower = s.lower)
    (hget : t.cache.get? u.key = none) : Accounts s [u] [u] t (t.compile u).2 := by
  have hmisses : ∀ result : Except CompileError Code,
      (filing t.cache u.key result).hits = t.cache.hits ∧
        (filing t.cache u.key result).misses = t.cache.misses + 1 ∧
          (filing t.cache u.key result).size = t.cache.size + if result.isOk then 1 else 0 := by
    rintro (e | code) <;> exact ⟨rfl, rfl, rfl⟩
  obtain ⟨hhits, hmiss, hsize⟩ := hmisses (s.build u).1
  rw [compile_of_not_filed hget, build_congr hconfig hlower rfl rfl, snd_build]
  refine ⟨?_, hmiss, rfl, rfl, rfl, ?_⟩
  · dsimp only
    rw [hhits, hmiss]
    rfl
  · dsimp only
    rw [hsize, List.countP_singleton]
    rfl

/-- What is filed after a unit was compiled. -/
theorem contains_compile (hconfig : t.config = s.config) (hlower : t.lower = s.lower)
    (u : SourceUnit) (key : CacheKey) :
    (t.compile u).2.cache.contains key =
      (t.cache.contains key || (u.key == key && s.canBuild u)) := by
  cases hget : t.cache.get? u.key with
  | some code =>
    rw [compile_of_filed hget]
    by_cases hkey : u.key = key
    · subst hkey
      have hfiled : t.cache.contains u.key = true := by rw [Cache.contains, hget]; rfl
      rw [hfiled, Bool.true_or]
      exact hfiled
    · rw [beq_false_of_ne hkey, Bool.false_and, Bool.or_false]
      rfl
  | none =>
    rw [compile_of_not_filed hget, build_congr hconfig hlower rfl rfl, canBuild]
    cases (s.build u).1 with
    | error e => rw [Except.isOk, Except.toBool, Bool.and_false, Bool.or_false]; rfl
    | ok code =>
      rw [Except.isOk, Except.toBool, Bool.and_true]
      show (((u.key, code) :: t.cache.entries).lookup key).isSome = _
      rw [List.lookup_cons, BEq.comm]
      cases u.key == key with
      | true => rw [Bool.or_true]; rfl
      | false => rw [Bool.or_false]; rfl

/-- **The books of a session**, from the units that it compiled. -/
theorem accounts_compileAll (s t : Session) (earlier : List SourceUnit)
    (hconfig : t.config = s.config) (hlower : t.lower = s.lower)
    (hfiled : ∀ key, t.cache.contains key =
      earlier.any fun v => v.key == key && s.canBuild v) (us : List SourceUnit) :
    Accounts s us (s.unfiled earlier us) t (t.compileAll us) := by
  induction us generalizing t earlier with
  | nil => exact .refl s t
  | cons u us ih =>
    obtain ⟨hconfig', hlower', -, -⟩ := t.compile_unchanged u
    have hfiled' : ∀ key, (t.compile u).2.cache.contains key =
        (u :: earlier).any fun v => v.key == key && s.canBuild v := by
      intro key
      rw [contains_compile hconfig hlower, hfiled, List.any_cons, Bool.or_comm]
    have hrest := ih (t.compile u).2 (u :: earlier) (hconfig'.trans hconfig)
      (hlower'.trans hlower) hfiled'
    rw [compileAll_cons, unfiled, ← hfiled u.key]
    cases hget : t.cache.get? u.key with
    | some code =>
      rw [if_pos (by rw [Cache.contains, hget]; rfl)]
      exact (Accounts.filed s hget).trans hrest
    | none =>
      rw [if_neg (by rw [Cache.contains, hget]; decide)]
      exact (Accounts.notFiled hconfig hlower hget).trans hrest

/-! ## Histories -/

/-- A session is as good as new, but for what its sink was asked. -/
theorem renewed_of_cameFrom {us : List SourceUnit} {t : Session} (h : s.renewed.CameFrom us t)
    (hwrites : s.builtins.OnlyWrites) :
    s.sink.cleared.Becomes t.sink ∧ t.renewed = { s.renewed with sink := t.sink.cleared } := by
  obtain ⟨sink, rfl, hbecomes⟩ := h
  obtain ⟨hconfig, hlower, hbuiltins, -⟩ := s.renewed.compileAll_unchanged us
  refine ⟨hbecomes hwrites, ?_⟩
  simp only [renewed] at hconfig hlower hbuiltins ⊢
  rw [hconfig, hlower, hbuiltins]

/-- The books of a session that was new when a history began. -/
theorem Accounts.of_cameFrom {us : List SourceUnit} {t : Session} (h : s.renewed.CameFrom us t) :
    Accounts s us (s.unfiled [] us) s.renewed t := by
  obtain ⟨sink, rfl, -⟩ := h
  obtain ⟨hlookups, hmisses, hparses, hlowerings, hpeepholes, hentries⟩ :=
    accounts_compileAll s s.renewed [] rfl rfl (fun _ => rfl) us
  exact ⟨hlookups, hmisses, hparses, hlowerings, hpeepholes, hentries⟩

/-- **An operation does what it would do in a new session**, after every history in which no two
texts under one name have the same fingerprint. -/
theorem agrees_renewed (answer : (op : FileOp) → σ → op.Reply × σ) {us : List SourceUnit}
    {t : Session} (h : s.renewed.CameFrom us t) (op : Operation) (files : σ)
    (hcollision : NoCollision (us ++ (op.request? answer files).toList)) :
    SessionM.Agrees answer t.sink.written op.program t t.renewed files := by
  refine op.agrees_program t.like_renewed fun u hu => ?_
  obtain ⟨sink, rfl, -⟩ := h
  rw [hu] at hcollision
  exact ⟨coherent_of_noCollision rfl hcollision, coherent_of_entries_eq_nil rfl u⟩

end Session

/-- A container is run without a compilation. -/
theorem Operation.request?_of_runsContainer {op : Operation} (h : op.runsContainer = true)
    (answer : (op : FileOp) → σ → op.Reply × σ) (files : σ) : op.request? answer files = none := by
  cases op with
  | runContainer _ _ => rfl
  | runContainerFile _ => rfl
  | _ => cases h

/-- **What a session did before cannot be seen, and its books are right.**  Take any events that
begin with a new session, however its operations end and whatever becomes of the files.

* If no two texts that were submitted under one name have the same fingerprint, then the next
  operation has the result, the effect on the files and the output that it has in a new session
  with the same configuration, machine and files.
* That new session differs from the one that the events began with in nothing but what its sink
  was asked in between, if the builtins only write; so it is the same one if the sink does not mind.
* Every request for a compilation is a hit or a miss; what missed was parsed; of that, what is a
  script was lowered; and of that, what could be lowered was filed, and given to the last pass if
  that is switched on.
* Running a container changes neither the cache nor the counts. -/
theorem Session.history_transparent_and_accounted (answer : (op : FileOp) → σ → op.Reply × σ)
    (s : Session) (files : σ) (events : List (SessionEvent σ)) :
    let now := follow answer events s.renewed files
    let requested := requests answer events s.renewed files
    let built := s.unfiled [] requested
    (∀ op : Operation, NoCollision (requested ++ (op.request? answer now.2).toList) →
      let here := op.perform answer now.1 now.2
      let anew := op.perform answer now.1.renewed now.2
      here.result = anew.result ∧ here.files = anew.files ∧
        here.session.sink.written = now.1.sink.written ++ anew.session.sink.written) ∧
    (s.builtins.OnlyWrites →
      s.sink.cleared.Becomes now.1.sink ∧
      now.1.renewed = { s.renewed with sink := now.1.sink.cleared } ∧
      (s.sink.Steady → now.1.renewed = s.renewed)) ∧
    (now.1.cache.hits + now.1.cache.misses = requested.length ∧
      now.1.cache.misses = built.length ∧
      now.1.stages.parses = now.1.cache.misses ∧
      now.1.stages.lowerings = built.countP SourceUnit.isScript ∧
      now.1.stages.peepholes =
        (if s.config.optimize.peephole then built.countP s.canBuild else 0) ∧
      now.1.cache.size = built.countP s.canBuild) ∧
    ∀ op : Operation, op.runsContainer = true →
      (op.perform answer now.1 now.2).session.cache = now.1.cache ∧
        (op.perform answer now.1 now.2).session.stages = now.1.stages := by
  intro now requested built
  have hcame : s.renewed.CameFrom requested now.1 := cameFrom_follow answer events s.renewed files
  refine ⟨fun op hcollision => ?_, fun hwrites => ?_, ?_, fun op hop => ?_⟩
  · obtain ⟨hresult, hlike, hfiles⟩ := agrees_renewed answer hcame op now.2 hcollision
    exact ⟨hresult, hfiles, congrArg Sink.written hlike.sink⟩
  · obtain ⟨hbecomes, hrenewed⟩ := renewed_of_cameFrom hcame hwrites
    refine ⟨hbecomes, hrenewed, fun hsteady => ?_⟩
    rw [hrenewed, hbecomes.cleared_eq hsteady.cleared]
    rfl
  · obtain ⟨hlookups, hmisses, hparses, hlowerings, hpeepholes, hentries⟩ :=
      Accounts.of_cameFrom hcame
    simp only [renewed, Nat.zero_add] at hlookups hmisses hparses hlowerings hpeepholes
    rw [show s.renewed.cache.size = 0 from rfl, Nat.zero_add] at hentries
    exact ⟨hlookups, hmisses, hparses.trans hmisses.symm, hlowerings, hpeepholes, hentries⟩
  · obtain ⟨sink, hsession, -⟩ := op.cameFrom_perform answer now.1 now.2
    rw [op.request?_of_runsContainer hop] at hsession
    rw [hsession]
    exact ⟨rfl, rfl⟩

/-- A text is run, replaced by one that is no script, and run again; then another is run under
the same name, as in a new session. -/
theorem Session.history_transparent_and_accounted_edited :
    let s : Session := {}
    let events : List (SessionEvent FileTree) :=
      [.operate (.runSource ⟨"m", "print(1)", none⟩), .operate (.compileSource ⟨"m", "x =", none⟩),
        .operate (.runSource ⟨"m", "print(1)", none⟩)]
    let now := follow FileTree.answer events s.renewed (.empty [])
    let op : Operation := .runSource ⟨"m", "print(2)", none⟩
    let here := op.perform FileTree.answer now.1 now.2
    let anew := op.perform FileTree.answer now.1.renewed now.2
    NoCollision (requests FileTree.answer events s.renewed (.empty []) ++
        (op.request? FileTree.answer now.2).toList) ∧
      (here.result = anew.result ∧ here.files = anew.files ∧
        here.session.sink.written = now.1.sink.written ++ anew.session.sink.written) ∧
      now.1.renewed = s.renewed ∧ now.1.cache.hits + now.1.cache.misses = 3 := by
  have hcollision : NoCollision [⟨"m", "print(1)", none⟩, ⟨"m", "x =", none⟩,
      ⟨"m", "print(1)", none⟩, ⟨"m", "print(2)", none⟩] := by
    unfold NoCollision
    decide +kernel
  obtain ⟨hagrees, hrenewed, hbooks, -⟩ :=
    history_transparent_and_accounted FileTree.answer {} (.empty [])
      [.operate (.runSource ⟨"m", "print(1)", none⟩), .operate (.compileSource ⟨"m", "x =", none⟩),
        .operate (.runSource ⟨"m", "print(1)", none⟩)]
  exact ⟨hcollision, hagrees (.runSource ⟨"m", "print(2)", none⟩) hcollision,
    (hrenewed BuiltinTable.onlyWrites_standard).2.2 (Sink.steady_always "" none none), hbooks.1⟩

end StackScript
