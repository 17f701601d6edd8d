import StackScript.Session.Basic

/-!
# What compiling does to a session

A session keeps what it compiled under a key that holds the fingerprint of the text and not
the text itself.  Two texts may therefore share a key, and then the second is never built: it
gets the code of the first.  `Session.Coherent` says that this has not happened to a unit.  It
holds in a session that has filed nothing yet, and compiling a unit keeps it unless that unit
has the same key and another text (`Coherent.compile`).

A coherent session compiles a unit to what it would build without a cache (`fst_compile`).
-/

namespace StackScript.Session

/-! ## One compilation -/

/-- The cache after a unit that was not filed has been built: a miss, and the code if there is
one. -/
def filing (cache : Cache Code) (key : CacheKey) : Except CompileError Code → Cache Code
  | .error _ => { cache with misses := cache.misses + 1 }
  | .ok code => { cache with entries := (key, code) :: cache.entries, misses := cache.misses + 1 }

theorem compile_of_filed {s : Session} {u : SourceUnit} {code : Code}
    (h : s.cache.get? u.key = some code) :
    s.compile u = (.ok code, { s with cache := { s.cache with hits := s.cache.hits + 1 } }) := by
  rw [compile, Cache.lookup_of_get?_eq_some h]

theorem compile_of_not_filed {s : Session} {u : SourceUnit} (h : s.cache.get? u.key = none) :
    s.compile u = ((s.build u).1, { s with
      cache := filing s.cache u.key (s.build u).1, stages := s.stages + (s.build u).2 }) := by
  rw [compile, Cache.lookup_of_get?_eq_none h]
  rcases s.build u with ⟨_ | code, used⟩
  · rfl
  · have hnone : ({ s.cache with misses := s.cache.misses + 1 } : Cache Code).get? u.key =
        none := h
    simp only [Cache.store, hnone, filing]

/-- Compiling changes nothing but the cache and the counts. -/
theorem compile_unchanged (s : Session) (u : SourceUnit) :
    (s.compile u).2.config = s.config ∧ (s.compile u).2.lower = s.lower ∧
      (s.compile u).2.builtins = s.builtins ∧ (s.compile u).2.sink = s.sink := by
  cases hget : s.cache.get? u.key with
  | some code =>
    rw [compile_of_filed hget]
    exact ⟨rfl, rfl, rfl, rfl⟩
  | none =>
    rw [compile_of_not_filed hget]
    exact ⟨rfl, rfl, rfl, rfl⟩

/-- What is filed under a key after a unit was compiled was filed there before, or it is the
code of that unit. -/
theorem get?_compile {s : Session} {v : SourceUnit} {key : CacheKey} {code : Code}
    (h : (s.compile v).2.cache.get? key = some code) :
    s.cache.get? key = some code ∨ v.key = key ∧ (s.build v).1 = .ok code := by
  cases hget : s.cache.get? v.key with
  | some filed =>
    rw [compile_of_filed hget] at h
    exact .inl h
  | none =>
    rw [compile_of_not_filed hget] at h
    cases hbuild : (s.build v).1 with
    | error e =>
      rw [hbuild] at h
      exact .inl h
    | ok built =>
      rw [hbuild] at h
      have hlookup : ((v.key, built) :: s.cache.entries).lookup key = some code := h
      by_cases hkey : key = v.key
      · rw [hkey, List.lookup_cons_self] at hlookup
        exact .inr ⟨hkey.symm, congrArg Except.ok (Option.some.inj hlookup)⟩
      · rw [List.lookup_cons, beq_false_of_ne hkey] at hlookup
        exact .inl hlookup

/-- Only the name and the text of a unit decide what is built. -/
theorem build_congr {s t : Session} {u v : SourceUnit} (hconfig : t.config = s.config)
    (hlower : t.lower = s.lower) (hidentifier : v.identifier = u.identifier)
    (htext : v.text = u.text) : t.build v = s.build u := by
  rw [build, build, hconfig, hlower, hidentifier, htext]

/-! ## Coherence -/

/-- What is filed under the key of a unit, if anything, is the code of that unit. -/
def Coherent (s : Session) (u : SourceUnit) : Prop :=
  ∀ code, s.cache.get? u.key = some code → (s.build u).1 = .ok code

/-- A session that has filed nothing is coherent. -/
theorem coherent_of_entries_eq_nil {s : Session} (h : s.cache.entries = []) (u : SourceUnit) :
    s.Coherent u := by
  intro code hget
  rw [Cache.get?, h] at hget
  cases hget

/-- Compiling keeps a session coherent, unless another text with the same key is compiled. -/
theorem Coherent.compile {s : Session} {u v : SourceUnit} (h : s.Coherent u)
    (hkey : v.key = u.key → v.text = u.text) : (s.compile v).2.Coherent u := by
  intro code hget
  obtain ⟨hconfig, hlower, -, -⟩ := s.compile_unchanged v
  rcases get?_compile hget with hbefore | ⟨hsame, hbuild⟩
  · rw [build_congr hconfig hlower rfl rfl]
    exact h code hbefore
  · have hidentifier : v.identifier = u.identifier := congrArg CacheKey.identifier hsame
    rw [build_congr hconfig hlower hidentifier.symm (hkey hsame).symm]
    exact hbuild

/-- A coherent session compiles a unit to what it would build. -/
theorem fst_compile {s : Session} {u : SourceUnit} (h : s.Coherent u) :
    (s.compile u).1 = (s.build u).1 := by
  cases hget : s.cache.get? u.key with
  | some code => rw [compile_of_filed hget, h code hget]
  | none => rw [compile_of_not_filed hget]

/-! ## The script behind the code -/

/-- Scripts are lowered in the usual way. -/
def LowersAsUsual (s : Session) : Prop :=
  s.lower = fun filename script => script.lower filename

/-- What was compiled is the script of the text. -/
theorem script_of_compile {s : Session} {u : SourceUnit} {code : Code}
    (hlower : s.LowersAsUsual) (hcoherent : s.Coherent u)
    (hcompile : (s.compile u).1 = .ok code) :
    ∃ script, Script.ofText u.text = .ok script ∧
      script.compile s.config.optimize u.identifier = .ok code := by
  rw [fst_compile hcoherent, build] at hcompile
  split at hcompile
  · cases hcompile
  · next script hscript =>
    split at hcompile
    · cases hcompile
    · next c hc =>
      cases hcompile
      rw [hlower] at hc
      exact ⟨script, hscript, hc⟩

end StackScript.Session
