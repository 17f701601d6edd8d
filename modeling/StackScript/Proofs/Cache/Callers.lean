import StackScript.Cache

/-!
# Callers of a cache that take turns

`Cache.getOrBuild` describes a caller that has the cache to itself: between its lookup and its
store nothing happens but its own builder.  Here any number of callers share one cache.  What
is indivisible is one use of the lock, so a call has three stages --- the lookup, which counts;
the builder, if nothing was found; the store --- and between two stages everyone else may act.

## Programs

A program (`CacheClient`) says what a caller does with the cache: it reads a key, or it makes a
call, and goes on with the answer.  A builder is such a program too, so it may call the same
cache again, for the same key even.  What a builder does apart from that is not visible here;
that it may fail, and that its result may depend on everything it was told, is.

A caller (`Caller`) is a program and a stack: the calls whose builders are running, the
innermost first.  `Caller.act` is its next use of the lock.

## Schedules

A system is a cache, the callers and a history of what happened.  A move either lets a new
caller begin or lets one of them act; a list of moves is a schedule, and `CacheSystem.run` follows
it.  Every order in which callers can take turns is some list of moves, and a caller that is
never moved again is one that was cut off.

A call is known by the place of its lookup in the history.

A caller that is not interrupted does what `Cache.getOrBuild` does (`CacheSystem.run_alone`).
-/

namespace StackScript

variable {ε α : Type}

/-- What a caller does with a cache. -/
inductive CacheClient (ε α : Type) where
  /-- It has a result. -/
  | done (result : Except ε α)
  /-- It reads a key; nothing is counted. -/
  | get (key : CacheKey) (next : Option α → CacheClient ε α)
  /-- It calls for a key, with a builder in case nothing is there. -/
  | call (key : CacheKey) (build : CacheClient ε α) (next : Except ε α → CacheClient ε α)

/-- What a program does when it has the cache to itself. -/
def CacheClient.run : CacheClient ε α → Cache α → Except ε α × Cache α
  | .done result, c => (result, c)
  | .get key next, c => (next (c.get? key)).run c
  | .call key build next, c =>
      let (result, c) := c.getOrBuild key fun c => build.run c
      (next result).run c

/-- A call whose builder is running. -/
structure PendingCall (ε α : Type) where
  /-- The place of its lookup in the history. -/
  number : Nat
  /-- The key. -/
  key : CacheKey
  /-- What the caller does with the result. -/
  next : Except ε α → CacheClient ε α

/-- A caller. -/
structure Caller (ε α : Type) where
  /-- What it does next. -/
  current : CacheClient ε α
  /-- The calls whose builders are running, the innermost first. -/
  pending : List (PendingCall ε α)

/-- What happened at one use of the lock. -/
inductive CacheEvent (ε α : Type) where
  /-- A call found an artifact and returned it. -/
  | hit (number : Nat) (key : CacheKey) (a : α)
  /-- A call found nothing, and its builder began. -/
  | missed (number : Nat) (key : CacheKey)
  /-- The builder of a call had a result, and the call returned what is filed. -/
  | stored (number : Nat) (key : CacheKey) (built returned : α)
  /-- The builder of a call failed, and so did the call. -/
  | failed (number : Nat) (key : CacheKey) (e : ε)
  /-- Someone read a key. -/
  | read (key : CacheKey) (answer : Option α)

/-- The next use of the lock by a caller; there is none if it has its result.  The number is
for the call that it may make. -/
def Caller.act (caller : Caller ε α) (number : Nat) (c : Cache α) :
    Option (Caller ε α × Cache α × CacheEvent ε α) :=
  match caller.current with
  | .get key next => some (⟨next (c.get? key), caller.pending⟩, c, .read key (c.get? key))
  | .call key build next =>
      match c.lookup key with
      | (some a, c) => some (⟨next (.ok a), caller.pending⟩, c, .hit number key a)
      | (none, c) => some (⟨build, ⟨number, key, next⟩ :: caller.pending⟩, c, .missed number key)
  | .done result =>
      match caller.pending with
      | [] => none
      | call :: outer =>
          match result with
          | .error e => some (⟨call.next (.error e), outer⟩, c, .failed call.number call.key e)
          | .ok a =>
              let (b, c) := c.store call.key a
              some (⟨call.next (.ok b), outer⟩, c, .stored call.number call.key a b)

/-- Callers that share a cache. -/
structure CacheSystem (ε α : Type) where
  /-- The cache. -/
  cache : Cache α := {}
  /-- The callers, in the order in which they began. -/
  callers : List (Caller ε α) := []
  /-- What happened so far. -/
  history : List (CacheEvent ε α) := []

/-- What can happen next. -/
inductive CacheMove (ε α : Type) where
  /-- A caller begins. -/
  | begin (client : CacheClient ε α)
  /-- The caller at this place acts. -/
  | act (place : Nat)

namespace CacheSystem

/-- Make a move.  A caller that is not there, or has its result, does nothing. -/
def step (s : CacheSystem ε α) : CacheMove ε α → CacheSystem ε α
  | .begin client => { s with callers := s.callers ++ [⟨client, []⟩] }
  | .act place =>
      match s.callers[place]? with
      | none => s
      | some caller =>
          match caller.act s.history.length s.cache with
          | none => s
          | some (caller, cache, e) => ⟨cache, s.callers.set place caller, s.history ++ [e]⟩

/-- Follow a schedule. -/
def run (s : CacheSystem ε α) (moves : List (CacheMove ε α)) : CacheSystem ε α :=
  moves.foldl step s

theorem run_append (s : CacheSystem ε α) (moves more : List (CacheMove ε α)) :
    s.run (moves ++ more) = (s.run moves).run more :=
  List.foldl_append

/-- What one schedule leads to, if every move keeps it. -/
theorem run_induction {P : CacheSystem ε α → Prop} (hstep : ∀ s move, P s → P (s.step move))
    {s : CacheSystem ε α} (h : P s) (moves : List (CacheMove ε α)) : P (s.run moves) := by
  induction moves generalizing s with
  | nil => exact h
  | cons move moves ih => exact ih (hstep s move h)

/-! ## What one move can do -/

theorem step_act {s : CacheSystem ε α} {place : Nat} {caller caller' : Caller ε α}
    {cache : Cache α} {e : CacheEvent ε α} (hcaller : s.callers[place]? = some caller)
    (hact : caller.act s.history.length s.cache = some (caller', cache, e)) :
    s.step (.act place) = ⟨cache, s.callers.set place caller', s.history ++ [e]⟩ := by
  simp only [step, hcaller, hact]

/-- A move leaves cache and history alone and lets at most a caller begin, or some caller
acts. -/
theorem step_cases (s : CacheSystem ε α) (move : CacheMove ε α) :
    (∃ new : List (CacheClient ε α), s.step move =
      { s with callers := s.callers ++ new.map fun client => ⟨client, []⟩ }) ∨
    ∃ place caller caller' cache e, s.callers[place]? = some caller ∧
      caller.act s.history.length s.cache = some (caller', cache, e) ∧
      s.step move = ⟨cache, s.callers.set place caller', s.history ++ [e]⟩ := by
  cases move with
  | begin client => exact .inl ⟨[client], rfl⟩
  | act place =>
    cases hcaller : s.callers[place]? with
    | none => exact .inl ⟨[], by simp [step, hcaller]⟩
    | some caller =>
      cases hact : caller.act s.history.length s.cache with
      | none => exact .inl ⟨[], by simp [step, hcaller, hact]⟩
      | some outcome =>
        obtain ⟨caller', cache, e⟩ := outcome
        exact .inr ⟨place, caller, caller', cache, e, hcaller, hact, step_act hcaller hact⟩

end CacheSystem

/-- The five things that a caller can do with the lock. -/
theorem Caller.act_cases {caller caller' : Caller ε α} {number : Nat} {c c' : Cache α}
    {e : CacheEvent ε α} (h : caller.act number c = some (caller', c', e)) :
    (∃ key, caller'.pending = caller.pending ∧ c' = c ∧ e = .read key (c.get? key)) ∨
    (∃ key a, c.get? key = some a ∧ caller'.pending = caller.pending ∧
      c' = { c with hits := c.hits + 1 } ∧ e = .hit number key a) ∨
    (∃ key next, c.get? key = none ∧ caller'.pending = ⟨number, key, next⟩ :: caller.pending ∧
      c' = { c with misses := c.misses + 1 } ∧ e = .missed number key) ∨
    (∃ call a, caller.pending = call :: caller'.pending ∧ c' = (c.store call.key a).2 ∧
      e = .stored call.number call.key a (c.store call.key a).1) ∨
    (∃ call reason, caller.pending = call :: caller'.pending ∧ c' = c ∧
      e = .failed call.number call.key reason) := by
  obtain ⟨current, pending⟩ := caller
  cases current with
  | get key next =>
    cases h
    exact .inl ⟨key, rfl, rfl, rfl⟩
  | call key build next =>
    cases hget : c.get? key with
    | some a =>
      simp only [act, Cache.lookup_of_get?_eq_some hget] at h
      cases h
      exact .inr (.inl ⟨key, a, hget, rfl, rfl, rfl⟩)
    | none =>
      simp only [act, Cache.lookup_of_get?_eq_none hget] at h
      cases h
      exact .inr (.inr (.inl ⟨key, next, hget, rfl, rfl, rfl⟩))
  | done result =>
    cases pending with
    | nil => cases h
    | cons call outer =>
      cases result with
      | ok a =>
        cases h
        exact .inr (.inr (.inr (.inl ⟨call, a, rfl, rfl, rfl⟩)))
      | error reason =>
        cases h
        exact .inr (.inr (.inr (.inr ⟨call, reason, rfl, rfl, rfl⟩)))

/-! ## A caller that is not interrupted -/

namespace CacheSystem

/-- One caller acts some number of times, and nobody else does. -/
def LeadsTo (place : Nat) (s s' : CacheSystem ε α) : Prop :=
  ∃ n, s' = s.run (List.replicate n (.act place))

theorem LeadsTo.refl (place : Nat) (s : CacheSystem ε α) : LeadsTo place s s := ⟨0, rfl⟩

theorem LeadsTo.trans {place : Nat} {s₁ s₂ s₃ : CacheSystem ε α} (h₁ : LeadsTo place s₁ s₂)
    (h₂ : LeadsTo place s₂ s₃) : LeadsTo place s₁ s₃ := by
  obtain ⟨n, rfl⟩ := h₁
  obtain ⟨m, rfl⟩ := h₂
  exact ⟨n + m, by rw [← List.replicate_append_replicate, run_append]⟩

/-- The caller at a place has come to some program, and the cache to some state. -/
def At (place : Nat) (caller : Caller ε α) (c : Cache α) (s : CacheSystem ε α) : Prop :=
  s.callers[place]? = some caller ∧ s.cache = c

/-- If an action of the caller is known up to the number of the call it makes, one move
carries it out. -/
theorem At.act {place : Nat} {caller : Caller ε α} {c : Cache α} {s : CacheSystem ε α}
    (h : At place caller c s) (c' : Cache α) (P : Caller ε α → Prop)
    (hact : ∀ number, ∃ caller' e, caller.act number c = some (caller', c', e) ∧ P caller') :
    ∃ caller' s', LeadsTo place s s' ∧ At place caller' c' s' ∧ P caller' := by
  obtain ⟨hcaller, rfl⟩ := h
  obtain ⟨caller', e, haction, hP⟩ := hact s.history.length
  have hlt : place < s.callers.length := (List.getElem?_eq_some_iff.mp hcaller).1
  refine ⟨caller', s.step (.act place), ⟨1, rfl⟩, ?_, hP⟩
  rw [step_act hcaller haction]
  exact ⟨List.getElem?_set_self hlt, rfl⟩

/-- **Uninterrupted, a caller does what its program does with a cache of its own**, and it
returns to the calls that were pending. -/
theorem run_alone (client : CacheClient ε α) :
    ∀ {place : Nat} {pending : List (PendingCall ε α)} {c : Cache α} {s : CacheSystem ε α},
      At place ⟨client, pending⟩ c s →
        ∃ s', LeadsTo place s s' ∧ At place ⟨.done (client.run c).1, pending⟩ (client.run c).2 s' := by
  induction client with
  | done result =>
    intro place pending c s h
    exact ⟨s, .refl place s, h⟩
  | get key next ih =>
    intro place pending c s h
    obtain ⟨caller', s₁, hlead, hat, rfl⟩ := h.act c
      (fun caller' => caller' = ⟨next (c.get? key), pending⟩)
      fun number => ⟨_, _, rfl, rfl⟩
    obtain ⟨s₂, hlead', hat'⟩ := ih (c.get? key) hat
    exact ⟨s₂, hlead.trans hlead', hat'⟩
  | call key build next ihbuild ihnext =>
    intro place pending c s h
    cases hget : c.get? key with
    | some a =>
      have hlookup := Cache.lookup_of_get?_eq_some hget
      obtain ⟨caller', s₁, hlead, hat, rfl⟩ := h.act { c with hits := c.hits + 1 }
        (fun caller' => caller' = ⟨next (.ok a), pending⟩)
        fun number => ⟨_, .hit number key a, by simp only [Caller.act, hlookup], rfl⟩
      obtain ⟨s₂, hlead', hat'⟩ := ihnext (.ok a) hat
      simp only [CacheClient.run, Cache.getOrBuild, hlookup]
      exact ⟨s₂, hlead.trans hlead', hat'⟩
    | none =>
      have hlookup := Cache.lookup_of_get?_eq_none hget
      obtain ⟨caller', s₁, hlead, hat, ⟨number, rfl⟩⟩ := h.act
        { c with misses := c.misses + 1 }
        (fun caller' => ∃ number, caller' = ⟨build, ⟨number, key, next⟩ :: pending⟩)
        fun number => ⟨_, .missed number key, by simp only [Caller.act, hlookup], number, rfl⟩
      obtain ⟨s₂, hlead₂, hat₂⟩ := ihbuild hat
      simp only [CacheClient.run, Cache.getOrBuild, hlookup]
      rcases hbuild : build.run { c with misses := c.misses + 1 } with ⟨e | a, c₂⟩
      · rw [hbuild] at hat₂
        obtain ⟨caller', s₃, hlead₃, hat₃, rfl⟩ := hat₂.act c₂
          (fun caller' => caller' = ⟨next (.error e), pending⟩)
          fun number => ⟨_, _, rfl, rfl⟩
        obtain ⟨s₄, hlead₄, hat₄⟩ := ihnext (.error e) hat₃
        exact ⟨s₄, ((hlead.trans hlead₂).trans hlead₃).trans hlead₄, hat₄⟩
      · rw [hbuild] at hat₂
        obtain ⟨caller', s₃, hlead₃, hat₃, rfl⟩ := hat₂.act (c₂.store key a).2
          (fun caller' => caller' = ⟨next (.ok (c₂.store key a).1), pending⟩)
          fun number => ⟨_, _, rfl, rfl⟩
        obtain ⟨s₄, hlead₄, hat₄⟩ := ihnext (.ok (c₂.store key a).1) hat₃
        exact ⟨s₄, ((hlead.trans hlead₂).trans hlead₃).trans hlead₄, hat₄⟩

end CacheSystem

end StackScript
