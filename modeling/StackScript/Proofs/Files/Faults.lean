import StackScript.Proofs.Files.Walking

/-!
# File systems that may fail

`FileTree.answer` carries out every request.  A file system may do less: an operation may fail
although nothing is wrong with it, and leave its work half done.  `FileTree.Serves` says what may
happen to a tree when something is asked of it.

* Directories that are made are all that making directories changes, whether it succeeds or not.
* A temporary file gets a name of its own, under which there was nothing.
* Writing a temporary file may stop anywhere.
* Moving is indivisible: it is done, or nothing has changed.
* A temporary file that is removed is gone.

The answers of `FileTree.answer` are among those that are possible (`serves_answer`).

A program can be looked at between two requests, or be stopped there (`FileM.Observes`); an
operation that is stopped half way has left what it would leave if it had failed there.  If
nothing stops it, it ends (`FileM.Ends`).  `FileM.Holds` says about both what is true of every
file system, and is proved request by request.
-/

namespace StackScript

namespace FileTree

variable {t t' t'' : FileTree} {place : Place}

/-! ## What changed between two trees -/

/-- What is at a place was there before, or it is a directory where nothing was. -/
def KeptAt (t t' : FileTree) (place : Place) : Prop :=
  t'.node? place = t.node? place ∨ t.node? place = none ∧ t'.node? place = some .dir

/-- One tree has become the other by new directories, and by changes at some spots. -/
structure ChangedAt (spots : List Place) (t t' : FileTree) : Prop where
  /-- The current directory is the same. -/
  current : t'.current = t.current
  /-- Away from the spots there are only new directories. -/
  kept : ∀ place, place ∉ spots → t.KeptAt t' place

/-- One tree has become the other by new directories. -/
abbrev GainsDirs (t t' : FileTree) : Prop := t.ChangedAt [] t'

theorem KeptAt.trans (h : t.KeptAt t' place) (h' : t'.KeptAt t'' place) : t.KeptAt t'' place := by
  rcases h with hsame | ⟨hnone, hdir⟩
  · rcases h' with hsame' | ⟨hnone', hdir'⟩
    · exact .inl (hsame'.trans hsame)
    · exact .inr ⟨hsame.symm.trans hnone', hdir'⟩
  · rcases h' with hsame' | ⟨hnone', -⟩
    · exact .inr ⟨hnone, hsame'.trans hdir⟩
    · rw [hdir] at hnone'
      cases hnone'

theorem ChangedAt.refl (spots : List Place) (t : FileTree) : t.ChangedAt spots t :=
  ⟨rfl, fun _ _ => .inl rfl⟩

theorem ChangedAt.trans {spots spots' : List Place} (h : t.ChangedAt spots t')
    (h' : t'.ChangedAt spots' t'') : t.ChangedAt (spots ++ spots') t'' := by
  refine ⟨h'.current.trans h.current, fun place hplace => ?_⟩
  rw [List.mem_append, not_or] at hplace
  exact (h.kept place hplace.1).trans (h'.kept place hplace.2)

/-- A spot where nothing changed in the end is none. -/
theorem ChangedAt.narrow {spots spots' : List Place} (h : t.ChangedAt spots t')
    (hkept : ∀ place ∈ spots, place ∉ spots' → t.KeptAt t' place) : t.ChangedAt spots' t' := by
  refine ⟨h.current, fun place hplace => ?_⟩
  by_cases hspot : place ∈ spots
  · exact hkept place hspot hplace
  · exact h.kept place hspot

/-- Unless a directory was changed, all are there. -/
theorem ChangedAt.keepsDirs {spots : List Place} (h : t.ChangedAt spots t')
    (hspots : ∀ place ∈ spots, t.node? place ≠ some .dir) : t.KeepsDirs t' := by
  refine ⟨h.current, fun place hdir => ?_⟩
  rcases h.kept place fun hspot => hspots place hspot hdir with hsame | ⟨hnone, -⟩
  · exact hsame.trans hdir
  · rw [hnone] at hdir
    cases hdir

theorem changedAt_set (t : FileTree) (place : Place) (n : Node) :
    t.ChangedAt [place] (t.set place n) :=
  ⟨rfl, fun _ hother => .inl (t.node?_set_of_ne (fun heq => hother (List.mem_singleton.mpr heq)) n)⟩

theorem changedAt_erase (t : FileTree) (place : Place) : t.ChangedAt [place] (t.erase place) :=
  ⟨rfl, fun _ hother => .inl (t.node?_erase_of_ne fun heq => hother (List.mem_singleton.mpr heq))⟩

theorem node?_erase_self (t : FileTree) (hne : place ≠ []) : (t.erase place).node? place = none := by
  rw [node?, if_neg hne, erase, List.lookup_eq_none_iff]
  intro e he
  have hother : (e.1 != place) = true := (List.mem_filter.mp he).2
  simpa [bne, BEq.comm] using hother

/-- The root is always there. -/
theorem ne_nil_of_node? (h : t.node? place = none) : place ≠ [] := by
  rintro rfl
  cases h

/-! ## Making directories -/

theorem gainsDirs_of_createDir {p : Path} (h : t.createDir p = .ok t') : t.GainsDirs t' := by
  simp only [createDir, bind, Except.bind] at h
  split at h
  · cases h
  · split at h
    · cases h
    · split at h
      · cases h
      · next hnone =>
        cases h
        refine (t.changedAt_set _ .dir).narrow fun place hplace _ => ?_
        obtain rfl := List.mem_singleton.mp hplace
        exact .inr ⟨hnone, t.node?_set_self (ne_nil_of_node? hnone) .dir⟩

theorem gainsDirs_of_ensureDir {p : Path} (h : t.ensureDir p = .ok t') : t.GainsDirs t' := by
  unfold ensureDir at h
  split at h
  · next hcreate =>
    cases h
    exact gainsDirs_of_createDir hcreate
  · split at h
    · cases h
      exact .refl [] t
    · cases h

/-- Making directories changes nothing but directories, even if it fails on the way. -/
theorem gainsDirs_createDirsAlong (t : FileTree) (ps : List Path) :
    t.GainsDirs (t.createDirsAlong ps).2 := by
  induction ps generalizing t with
  | nil => exact .refl [] t
  | cons p above ih =>
    unfold createDirsAlong
    split
    · exact .refl [] t
    · split
      · next hensure => exact gainsDirs_of_ensureDir hensure
      · have habove := ih t
        split
        · next habove' =>
          rw [habove'] at habove
          exact habove
        · next u habove' =>
          rw [habove'] at habove
          split
          · next hensure => exact habove.trans (gainsDirs_of_ensureDir hensure)
          · exact habove
      · exact .refl [] t

/-! ## What may happen to a tree -/

/-- The names that temporary files get: letters and digits behind a fixed beginning. -/
def IsTempName (name : Path.Segment) : Prop :=
  ∃ rest, name = ".tmp".toList ++ rest ∧ ∀ c ∈ rest, c.isAlphanum = true

/-- What a file system may answer, and what it may do to a tree. -/
def Serves : (op : FileOp) → FileTree → op.Reply → FileTree → Prop
  | .read p, t, reply, t' => (reply = t.read p ∨ ∃ e, reply = .error e) ∧ t' = t
  | .stat p, t, reply, t' => (reply = t.stat p ∨ ∃ e, reply = .error e) ∧ t' = t
  | .isFile p, t, reply, t' => reply = t.isFile p ∧ t' = t
  | .createDirs _, t, _, t' => t.GainsDirs t'
  | .createTemp dir, t, reply, t' =>
      (∃ e, reply = .error e ∧ t' = t) ∨
      ∃ name place mtime, IsTempName name ∧
        t.resolve (dir.join ⟨String.ofList name⟩) = .ok place ∧ t.node? place = none ∧
          reply = .ok ⟨dir.join ⟨String.ofList name⟩⟩ ∧ t' = t.set place (.file [] mtime)
  | .writeTemp f content, t, reply, t' =>
      (∃ e, reply = .error e ∧ t' = t) ∨
      ∃ place written mtime, t.resolve f.path = .ok place ∧
        (reply = .ok () → written = content) ∧ t' = t.set place (.file written mtime)
  | .syncTemp _, t, _, t' => t' = t
  | .moveTemp f p, t, reply, t' =>
      (∃ e, reply = .error e ∧ t' = t) ∨ (reply, t') = t.moveTemp f p
  | .dropTemp f, t, _, t' => t' = t.dropTemp f

theorem isTempName_tempName (n : Nat) : IsTempName (tempName n) := by
  refine ⟨List.replicate (6 - (Word.digits n).length) '0' ++ Word.digits n,
    List.append_assoc .., fun c hc => ?_⟩
  rcases List.mem_append.mp hc with hzero | hdigit
  · rw [List.eq_of_mem_replicate hzero]
    decide
  · have hc : c.isDigit = true := Nat.isDigit_of_mem_toDigits (by decide) (by decide) hdigit
    rw [Char.isAlphanum, hc, Bool.or_true]

theorem isTempName_freshName (t : FileTree) (dir : Place) : IsTempName (t.freshName dir) := by
  unfold freshName
  split <;> exact isTempName_tempName _

theorem serves_createTemp (t : FileTree) (dir : Path) :
    Serves (.createTemp dir) t (t.createTemp dir).1 (t.createTemp dir).2 := by
  unfold createTemp
  split
  · next e _ => exact .inl ⟨e, rfl, rfl⟩
  · next place _ =>
    split
    · next e _ => exact .inl ⟨e, rfl, rfl⟩
    · dsimp only
      unfold createNew
      cases hresolve : t.resolve (dir.join ⟨String.ofList (t.freshName place)⟩) with
      | error e => exact .inl ⟨e, rfl, rfl⟩
      | ok spot =>
        cases hnode : t.node? spot with
        | some n =>
          dsimp only
          rw [hnode]
          exact .inl ⟨_, rfl, rfl⟩
        | none =>
          dsimp only
          rw [hnode]
          exact .inr ⟨_, spot, 0, isTempName_freshName t place, hresolve, hnode, rfl, rfl⟩

theorem serves_writeTemp (t : FileTree) (f : TempFile) (content : List UInt8) :
    Serves (.writeTemp f content) t (t.writeTemp f content).1 (t.writeTemp f content).2 := by
  unfold writeTemp
  split
  · next e _ => exact .inl ⟨e, rfl, rfl⟩
  · next place hresolve => exact .inr ⟨place, content, 0, hresolve, fun _ => rfl, rfl⟩

/-- **A tree in memory is a file system.** -/
theorem serves_answer (op : FileOp) (t : FileTree) :
    Serves op t (answer op t).1 (answer op t).2 := by
  cases op with
  | read p => exact ⟨.inl rfl, rfl⟩
  | stat p => exact ⟨.inl rfl, rfl⟩
  | isFile p => exact ⟨rfl, rfl⟩
  | createDirs p => exact gainsDirs_createDirsAlong t p.ancestors
  | createTemp dir => exact serves_createTemp t dir
  | writeTemp f content => exact serves_writeTemp t f content
  | syncTemp f => exact rfl
  | moveTemp f p => exact .inr rfl
  | dropTemp f => exact rfl

end FileTree

/-! ## Runs on a file system -/

namespace FileM

open FileTree (Serves)

variable {α β : Type}

/-- A tree that can be seen while a program runs, or be left by it when it is stopped. -/
inductive Observes : FileM α → FileTree → FileTree → Prop
  /-- The program has not asked for anything yet. -/
  | here (m : FileM α) (t : FileTree) : Observes m t t
  /-- The program is looked at after its first request. -/
  | later {op : FileOp} {next : op.Reply → FileM α} {reply : op.Reply} {t t₁ t' : FileTree} :
      Serves op t reply t₁ → Observes (next reply) t₁ t' → Observes (.ask op next) t t'

/-- A result that a program can end with, and the tree that it leaves then. -/
inductive Ends : FileM α → FileTree → α → FileTree → Prop
  /-- The program is done. -/
  | done (a : α) (t : FileTree) : Ends (.done a) t a t
  /-- The program goes on after its first request. -/
  | ask {op : FileOp} {next : op.Reply → FileM α} {reply : op.Reply} {t t₁ t' : FileTree} {a : α} :
      Serves op t reply t₁ → Ends (next reply) t₁ a t' → Ends (.ask op next) t a t'

/-- What a program leaves can be seen. -/
theorem Ends.observes {m : FileM α} {t t' : FileTree} {a : α} (h : m.Ends t a t') :
    m.Observes t t' := by
  induction h with
  | done a t => exact .here _ t
  | ask hserves _ ih => exact .later hserves ih

/-- A run on a tree in memory is one that is possible. -/
theorem ends_run (m : FileM α) (t : FileTree) :
    m.Ends t (m.run FileTree.answer t).1 (m.run FileTree.answer t).2 := by
  induction m generalizing t with
  | done a => exact .done a t
  | ask op next ih => exact .ask (FileTree.serves_answer op t) (ih _ _)

/-- Something is true of every tree that can be seen while a program runs, and something of
everything that it can end with. -/
def Holds (seen : FileTree → Prop) (ends : α → FileTree → Prop) : FileM α → FileTree → Prop
  | .done a, t => seen t ∧ ends a t
  | .ask op next, t =>
      seen t ∧ ∀ reply t', Serves op t reply t' → (next reply).Holds seen ends t'

variable {seen seen' : FileTree → Prop} {t t' : FileTree}

theorem Holds.now {ends : α → FileTree → Prop} {m : FileM α} (h : m.Holds seen ends t) :
    seen t := by
  cases m with
  | done a => exact h.1
  | ask op next => exact h.1

theorem Holds.observed {ends : α → FileTree → Prop} {m : FileM α} (h : m.Holds seen ends t)
    (hobserves : m.Observes t t') : seen t' := by
  induction hobserves with
  | here m t => exact h.now
  | later hserves _ ih => exact ih (h.2 _ _ hserves)

theorem Holds.ended {ends : α → FileTree → Prop} {m : FileM α} {a : α} (h : m.Holds seen ends t)
    (hends : m.Ends t a t') : ends a t' := by
  induction hends with
  | done a t => exact h.2
  | ask hserves _ ih => exact ih (h.2 _ _ hserves)

/-- One program after the other. -/
theorem Holds.bind {between : α → FileTree → Prop} {ends : β → FileTree → Prop} {m : FileM α}
    {f : α → FileM β} (hm : m.Holds seen between t)
    (hf : ∀ a t', seen t' → between a t' → (f a).Holds seen ends t') :
    (m >>= f).Holds seen ends t := by
  induction m generalizing t with
  | done a => exact hf a t hm.1 hm.2
  | ask op next ih => exact ⟨hm.1, fun reply t' hserves => ih reply (hm.2 reply t' hserves)⟩

theorem Holds.mono {ends ends' : α → FileTree → Prop} {m : FileM α} (h : m.Holds seen ends t)
    (hseen : ∀ t', seen t' → seen' t') (hends : ∀ a t', ends a t' → ends' a t') :
    m.Holds seen' ends' t := by
  induction m generalizing t with
  | done a => exact ⟨hseen t h.1, hends a t h.2⟩
  | ask op next ih =>
    exact ⟨hseen t h.1, fun reply t' hserves => ih reply (h.2 reply t' hserves)⟩

/-- A request and what follows it. -/
theorem holds_request_bind {op : FileOp} {ends : β → FileTree → Prop} {f : op.Reply → FileM β}
    (hseen : seen t)
    (hf : ∀ reply t', Serves op t reply t' → (f reply).Holds seen ends t') :
    (request op >>= f).Holds seen ends t :=
  ⟨hseen, hf⟩

end FileM

end StackScript
