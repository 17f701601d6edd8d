import Mathlib.Data.List.Perm.Subperm
import StackScript.Proofs.Cache.Callers

/-!
# Whoever stores first decides

Callers of one cache take turns in any order (`CacheSystem.run`), and builders run while others
use the cache.  Several callers may therefore build for the same key; what each of them, and
everyone after them, gets is the artifact that was stored first.

## The history decides everything

The history alone says what the cache must answer: under a key lies what the first store for it
brought (`CacheEvent.firstBuilt`).  `CacheEvent.Explained` is what that means for a single
event, given the events before it.  The invariant (`CacheSystem.Chronicled`) says that every
event so far is explained by those before it and that the cache holds what the history says.

The pending calls are part of the invariant for one reason: a store happens long after the
lookup that led to it, and it has to be the store of a call for that key that found nothing.
Calls are numbered by the place of their lookup in the history, so a pending call points at its
own miss.

Each component is carried through one use of the lock by a fact about `Caller.act` alone, and
through a schedule by `CacheSystem.run_induction`.
-/

namespace StackScript

variable {ε α : Type}

namespace CacheEvent

/-- What a store brought for a key. -/
def builtFor? (key : CacheKey) : CacheEvent ε α → Option α
  | .stored _ other built _ => if other = key then some built else none
  | _ => none

/-- Whether a call returned at once. -/
def isHit : CacheEvent ε α → Bool
  | .hit .. => true
  | _ => false

/-- The key of a call whose builder began. -/
def missedKey? : CacheEvent ε α → Option CacheKey
  | .missed _ key => some key
  | _ => none

/-- Whether a call looked up its key. -/
def isLookup (e : CacheEvent ε α) : Bool := e.isHit || e.missedKey?.isSome

/-- The call that an event belongs to. -/
def call? : CacheEvent ε α → Option Nat
  | .hit number .. | .missed number _ | .stored number .. | .failed number .. => some number
  | .read .. => none

/-- The artifact that the first store for a key brought. -/
def firstBuilt (history : List (CacheEvent ε α)) (key : CacheKey) : Option α :=
  history.findSome? (builtFor? key)

/-- An event is what had to happen after the given events.  Lookups carry the number of the
place they stand at, and a builder ends for a call that missed. -/
def Explained (before : List (CacheEvent ε α)) : CacheEvent ε α → Prop
  | .hit number key a => number = before.length ∧ firstBuilt before key = some a
  | .missed number key => number = before.length ∧ firstBuilt before key = none
  | .stored number key built returned =>
      before[number]? = some (.missed number key) ∧
        returned = (firstBuilt before key).getD built
  | .failed number key _ => before[number]? = some (.missed number key)
  | .read key answer => answer = firstBuilt before key

theorem firstBuilt_append (history more : List (CacheEvent ε α)) (key : CacheKey) :
    firstBuilt (history ++ more) key = (firstBuilt history key).or (firstBuilt more key) :=
  List.findSome?_append

theorem firstBuilt_singleton (e : CacheEvent ε α) (key : CacheKey) :
    firstBuilt [e] key = e.builtFor? key := by
  simp [firstBuilt]

/-- What was stored first stays what was stored first. -/
theorem firstBuilt_of_take {history : List (CacheEvent ε α)} {key : CacheKey} {a : α} {i : Nat}
    (h : firstBuilt (history.take i) key = some a) : firstBuilt history key = some a := by
  rw [← List.take_append_drop i history, firstBuilt_append, h, Option.some_or]

/-- If something was stored for a key, a builder for that key brought it. -/
theorem exists_stored_of_firstBuilt {history : List (CacheEvent ε α)} {key : CacheKey} {a : α}
    (h : firstBuilt history key = some a) :
    ∃ number returned, .stored number key a returned ∈ history := by
  obtain ⟨e, hmem, he⟩ := List.exists_of_findSome?_eq_some h
  cases e with
  | stored number other built returned =>
    simp only [builtFor?, Option.ite_none_right_eq_some, Option.some.injEq] at he
    obtain ⟨rfl, rfl⟩ := he
    exact ⟨number, returned, hmem⟩
  | _ => cases he

/-- If a builder for a key had a result, something was stored for that key. -/
theorem isSome_firstBuilt_of_stored {history : List (CacheEvent ε α)} {number : Nat}
    {key : CacheKey} {built returned : α}
    (h : .stored number key built returned ∈ history) : (firstBuilt history key).isSome := by
  rw [firstBuilt, List.findSome?_isSome_iff]
  exact ⟨_, h, by simp [builtFor?]⟩

/-- A history stays explained when an event is added that is explained by it. -/
theorem explained_concat {history : List (CacheEvent ε α)} {e : CacheEvent ε α}
    (h : ∀ i e, history[i]? = some e → Explained (history.take i) e) (he : e.Explained history)
    {i : Nat} {e' : CacheEvent ε α} (hi : (history ++ [e])[i]? = some e') :
    e'.Explained ((history ++ [e]).take i) := by
  rcases Nat.lt_trichotomy i history.length with hlt | rfl | hgt
  · rw [List.getElem?_append_left hlt] at hi
    rw [List.take_append_of_le_length (Nat.le_of_lt hlt)]
    exact h i e' hi
  · rw [List.getElem?_concat_length] at hi
    cases hi
    rw [List.take_left]
    exact he
  · have hnone : (history ++ [e])[i]? = none := by
      rw [List.getElem?_eq_none_iff, List.length_append, List.length_singleton]
      omega
    rw [hnone] at hi
    cases hi

end CacheEvent

open CacheEvent

theorem Cache.get?_eq_none_iff {c : Cache α} {key : CacheKey} :
    c.get? key = none ↔ key ∉ c.entries.map Prod.fst := by
  rw [Cache.get?, List.lookup_eq_none_iff, List.mem_map]
  constructor
  · rintro h ⟨entry, hmem, hkey⟩
    exact bne_iff_ne.mp (h entry hmem) hkey.symm
  · intro h entry hmem
    exact bne_iff_ne.mpr fun hkey => h ⟨entry, hmem, hkey.symm⟩

/-! ## One use of the lock -/

namespace Caller

variable {caller caller' : Caller ε α} {number : Nat} {c c' : Cache α} {e : CacheEvent ε α}

/-- Only a store changes what is filed, and only where nothing was. -/
theorem get?_of_act (h : caller.act number c = some (caller', c', e)) (key : CacheKey) :
    c'.get? key = (c.get? key).or (e.builtFor? key) := by
  rcases act_cases h with ⟨_, -, rfl, rfl⟩ | ⟨_, _, -, -, rfl, rfl⟩ | ⟨_, _, -, -, rfl, rfl⟩ |
    ⟨call, a, -, rfl, rfl⟩ | ⟨_, _, -, rfl, rfl⟩
  · exact Option.or_none.symm
  · exact Option.or_none.symm
  · exact Option.or_none.symm
  · by_cases hkey : call.key = key
    · subst hkey
      rw [Cache.get?_store_self]
      cases hget : c.get? call.key with
      | none => simp [Cache.store, hget, builtFor?]
      | some b => simp [Cache.store, hget]
    · rw [Cache.get?_store_of_ne c (Ne.symm hkey)]
      simp [builtFor?, hkey]
  · exact Option.or_none.symm

/-- No key is filed twice. -/
theorem nodup_of_act (h : caller.act number c = some (caller', c', e))
    (hnodup : (c.entries.map Prod.fst).Nodup) : (c'.entries.map Prod.fst).Nodup := by
  rcases act_cases h with ⟨_, -, rfl, -⟩ | ⟨_, _, -, -, rfl, -⟩ | ⟨_, _, -, -, rfl, -⟩ |
    ⟨call, a, -, rfl, -⟩ | ⟨_, _, -, rfl, -⟩
  · exact hnodup
  · exact hnodup
  · exact hnodup
  · cases hget : c.get? call.key with
    | some b =>
      rw [Cache.store_of_get?_eq_some hget]
      exact hnodup
    | none =>
      simp only [Cache.store, hget]
      exact List.nodup_cons.mpr ⟨Cache.get?_eq_none_iff.mp hget, hnodup⟩
  · exact hnodup

/-- Hits and misses are counted as they happen. -/
theorem counts_of_act (h : caller.act number c = some (caller', c', e)) :
    c'.hits = c.hits + [e].countP isHit ∧ c'.misses = c.misses + ([e].filterMap missedKey?).length := by
  rcases act_cases h with ⟨_, -, rfl, rfl⟩ | ⟨_, _, -, -, rfl, rfl⟩ | ⟨_, _, -, -, rfl, rfl⟩ |
    ⟨call, a, -, rfl, rfl⟩ | ⟨_, _, -, rfl, rfl⟩
  · exact ⟨rfl, rfl⟩
  · exact ⟨rfl, rfl⟩
  · exact ⟨rfl, rfl⟩
  · unfold Cache.store
    cases c.get? call.key <;> exact ⟨rfl, rfl⟩
  · exact ⟨rfl, rfl⟩

/-- What a caller does next is explained by a history that tells what the cache holds and where
the pending calls of the caller missed. -/
theorem explained_of_act {history : List (CacheEvent ε α)}
    (h : caller.act history.length c = some (caller', c', e))
    (hfiled : ∀ key, c.get? key = firstBuilt history key)
    (hpending : ∀ call ∈ caller.pending,
      history[call.number]? = some (.missed call.number call.key)) : e.Explained history := by
  rcases act_cases h with ⟨key, -, -, rfl⟩ | ⟨key, a, hget, -, -, rfl⟩ |
    ⟨key, _, hget, -, -, rfl⟩ | ⟨call, a, hcall, -, rfl⟩ | ⟨call, _, hcall, -, rfl⟩
  · exact hfiled key
  · exact ⟨rfl, hfiled key ▸ hget⟩
  · exact ⟨rfl, hfiled key ▸ hget⟩
  · refine ⟨hpending call (hcall ▸ List.mem_cons_self), ?_⟩
    rw [← hfiled]
    unfold Cache.store
    cases c.get? call.key <;> rfl
  · exact hpending call (hcall ▸ List.mem_cons_self)

/-- Every call that is pending afterwards was pending before, or it has just missed. -/
theorem pending_of_act (h : caller.act number c = some (caller', c', e))
    {call : PendingCall ε α} (hcall : call ∈ caller'.pending) :
    call ∈ caller.pending ∨ call.number = number ∧ e = .missed call.number call.key := by
  rcases act_cases h with ⟨_, hsame, -, -⟩ | ⟨_, _, -, hsame, -, -⟩ |
    ⟨key, next, -, hpending, -, rfl⟩ | ⟨_, _, hpending, -, -⟩ | ⟨_, _, hpending, -, -⟩
  · exact .inl (hsame ▸ hcall)
  · exact .inl (hsame ▸ hcall)
  · rw [hpending, List.mem_cons] at hcall
    rcases hcall with rfl | hcall
    · exact .inr ⟨rfl, rfl⟩
    · exact .inl hcall
  · exact .inl (hpending ▸ List.mem_cons_of_mem _ hcall)
  · exact .inl (hpending ▸ List.mem_cons_of_mem _ hcall)

end Caller

/-! ## Every schedule -/

namespace CacheSystem

/-- The history explains itself and the cache. -/
structure Chronicled (s : CacheSystem ε α) : Prop where
  /-- Every event is explained by those before it. -/
  explained : ∀ i e, s.history[i]? = some e → Explained (s.history.take i) e
  /-- What was stored first is filed. -/
  filed : ∀ key, s.cache.get? key = firstBuilt s.history key
  /-- No key is filed twice. -/
  distinct : (s.cache.entries.map Prod.fst).Nodup
  /-- The hits are counted. -/
  hits : s.cache.hits = s.history.countP isHit
  /-- The misses are counted. -/
  misses : s.cache.misses = (s.history.filterMap missedKey?).length
  /-- A builder that runs belongs to a call that missed. -/
  pending : ∀ caller ∈ s.callers, ∀ call ∈ caller.pending,
    s.history[call.number]? = some (.missed call.number call.key)

theorem chronicled_empty : Chronicled ({} : CacheSystem ε α) where
  explained := nofun
  filed _ := rfl
  distinct := List.nodup_nil
  hits := rfl
  misses := rfl
  pending := nofun

/-- One move keeps the history and the cache in agreement. -/
theorem Chronicled.step {s : CacheSystem ε α} (h : s.Chronicled) (move : CacheMove ε α) :
    (s.step move).Chronicled := by
  rcases s.step_cases move with ⟨new, hstep⟩ | ⟨place, caller, caller', cache, e, hcaller, hact, hstep⟩
  · rw [hstep]
    refine ⟨h.explained, h.filed, h.distinct, h.hits, h.misses, ?_⟩
    intro caller hmem call hcall
    rcases List.mem_append.mp hmem with hold | hnew
    · exact h.pending caller hold call hcall
    · obtain ⟨client, -, rfl⟩ := List.mem_map.mp hnew
      cases hcall
  · have hpending := h.pending caller (List.mem_of_getElem? hcaller)
    have hcounts := Caller.counts_of_act hact
    rw [hstep]
    refine ⟨fun i e' hi => ?_, fun key => ?_, Caller.nodup_of_act hact h.distinct, ?_, ?_, ?_⟩
    · exact explained_concat h.explained (Caller.explained_of_act hact h.filed hpending) hi
    · rw [Caller.get?_of_act hact, h.filed, firstBuilt_append, firstBuilt_singleton]
    · rw [List.countP_append, ← h.hits]
      exact hcounts.1
    · rw [List.filterMap_append, List.length_append, ← h.misses]
      exact hcounts.2
    · intro other hother call hcall
      -- a call that was pending points into the old history, a new one at the added event
      have hold : s.history[call.number]? = some (.missed call.number call.key) →
          (s.history ++ [e])[call.number]? = some (.missed call.number call.key) := by
        intro hmissed
        rw [List.getElem?_append_left (List.getElem?_eq_some_iff.mp hmissed).1, hmissed]
      rcases List.mem_or_eq_of_mem_set hother with hother | rfl
      · exact hold (h.pending other hother call hcall)
      · rcases Caller.pending_of_act hact hcall with hwas | ⟨hnumber, he⟩
        · exact hold (hpending call hwas)
        · rw [he, hnumber, List.getElem?_concat_length]

theorem Chronicled.run {s : CacheSystem ε α} (h : s.Chronicled) (moves : List (CacheMove ε α)) :
    (s.run moves).Chronicled :=
  run_induction (fun _ move hs => hs.step move) h moves

/-- What is filed stays filed, whoever acts. -/
theorem get?_run_of_eq_some {s : CacheSystem ε α} {key : CacheKey} {a : α}
    (h : s.cache.get? key = some a) (moves : List (CacheMove ε α)) :
    (s.run moves).cache.get? key = some a := by
  refine run_induction (P := fun s => s.cache.get? key = some a) (fun s move hs => ?_) h moves
  rcases s.step_cases move with ⟨new, hstep⟩ | ⟨_, _, _, _, _, -, hact, hstep⟩
  · rw [hstep]
    exact hs
  · rw [hstep, Caller.get?_of_act hact, hs, Option.some_or]

/-- A failure changes nothing in the cache, not even a count. -/
theorem cache_step_of_failed {s : CacheSystem ε α} {move : CacheMove ε α} {number : Nat}
    {key : CacheKey} {reason : ε}
    (h : (s.step move).history = s.history ++ [.failed number key reason]) :
    (s.step move).cache = s.cache := by
  rcases s.step_cases move with ⟨new, hstep⟩ | ⟨_, _, _, _, _, -, hact, hstep⟩
  · rw [hstep]
  · rw [hstep] at h ⊢
    obtain rfl := List.singleton_inj.mp (List.append_cancel_left h)
    rcases Caller.act_cases hact with ⟨_, -, -, he⟩ | ⟨_, _, -, -, -, he⟩ | ⟨_, _, -, -, -, he⟩ |
      ⟨_, _, -, -, he⟩ | ⟨_, _, -, hcache, -⟩
    · cases he
    · cases he
    · cases he
    · cases he
    · exact hcache

namespace Chronicled

variable {s : CacheSystem ε α}

/-- A hit returns what was stored first, and so does a call whose builder had a result. -/
theorem firstBuilt_of_returned (h : s.Chronicled) {number : Nat} {key : CacheKey} {a : α}
    (ha : .hit number key a ∈ s.history ∨ ∃ built, .stored number key built a ∈ s.history) :
    firstBuilt s.history key = some a := by
  rcases ha with hmem | ⟨built, hmem⟩
  · obtain ⟨i, hi⟩ := List.mem_iff_getElem?.mp hmem
    exact firstBuilt_of_take (h.explained i _ hi).2
  · obtain ⟨i, hi⟩ := List.mem_iff_getElem?.mp hmem
    have hreturned : a = (firstBuilt (s.history.take i) key).getD built :=
      (h.explained i _ hi).2
    cases hbefore : firstBuilt (s.history.take i) key with
    | some b =>
      rw [hbefore, Option.getD_some] at hreturned
      rw [hreturned]
      exact firstBuilt_of_take hbefore
    | none =>
      -- nothing was stored before: this is the first store
      rw [hbefore, Option.getD_none] at hreturned
      subst hreturned
      refine firstBuilt_of_take (i := i + 1) ?_
      rw [List.take_add_one, hi, firstBuilt_append, hbefore, Option.none_or, Option.toList_some,
        firstBuilt_singleton]
      simp [builtFor?]

/-- A lookup stands at the place that its number says. -/
theorem getElem?_of_lookup (h : s.Chronicled) {e : CacheEvent ε α} {number : Nat}
    (hmem : e ∈ s.history) (hlookup : e.isLookup = true) (hcall : e.call? = some number) :
    s.history[number]? = some e := by
  obtain ⟨i, hi⟩ := List.mem_iff_getElem?.mp hmem
  have hlt : i < s.history.length := (List.getElem?_eq_some_iff.mp hi).1
  have hnumber : number = (s.history.take i).length := by
    cases e with
    | hit n key a =>
      cases hcall
      exact (h.explained i _ hi).1
    | missed n key =>
      cases hcall
      exact (h.explained i _ hi).1
    | _ => cases hlookup
  rw [List.length_take_of_le (Nat.le_of_lt hlt)] at hnumber
  rw [hnumber]
  exact hi

/-- A builder that ended belongs to a call that missed. -/
theorem missed_of_ended (h : s.Chronicled) {e : CacheEvent ε α} {number : Nat}
    (hmem : e ∈ s.history) (hlookup : e.isLookup = false) (hcall : e.call? = some number) :
    ∃ key, s.history[number]? = some (.missed number key) := by
  obtain ⟨i, hi⟩ := List.mem_iff_getElem?.mp hmem
  have hmissed : ∃ key, (s.history.take i)[number]? = some (.missed number key) := by
    cases e with
    | stored n key built returned =>
      cases hcall
      exact ⟨key, (h.explained i _ hi).1⟩
    | failed n key reason =>
      cases hcall
      exact ⟨key, h.explained i _ hi⟩
    | read => cases hcall
    | _ => cases hlookup
  obtain ⟨key, hkey⟩ := hmissed
  have hlt : number < i := by
    have := (List.getElem?_eq_some_iff.mp hkey).1
    rw [List.length_take] at this
    omega
  exact ⟨key, by rw [← hkey, List.getElem?_take_of_lt hlt]⟩

/-- A call that found an artifact does nothing else. -/
theorem eq_hit_of_call (h : s.Chronicled) {number : Nat} {key : CacheKey} {a : α}
    (hhit : .hit number key a ∈ s.history) {e : CacheEvent ε α} (hmem : e ∈ s.history)
    (hcall : e.call? = some number) : e = .hit number key a := by
  have hplace := h.getElem?_of_lookup hhit rfl rfl
  cases hlookup : e.isLookup with
  | true =>
    rw [h.getElem?_of_lookup hmem hlookup hcall] at hplace
    exact Option.some.inj hplace
  | false =>
    obtain ⟨other, hmissed⟩ := h.missed_of_ended hmem hlookup hcall
    rw [hmissed] at hplace
    cases hplace

/-- Something is filed exactly under the keys for which a builder had a result. -/
theorem contains_iff (h : s.Chronicled) (key : CacheKey) :
    s.cache.contains key = true ↔
      ∃ number built returned, .stored number key built returned ∈ s.history := by
  rw [Cache.contains, h.filed]
  constructor
  · intro hsome
    obtain ⟨a, ha⟩ := Option.isSome_iff_exists.mp hsome
    obtain ⟨number, returned, hmem⟩ := exists_stored_of_firstBuilt ha
    exact ⟨number, a, returned, hmem⟩
  · rintro ⟨number, built, returned, hmem⟩
    exact isSome_firstBuilt_of_stored hmem

/-- There are at most as many entries as misses: each key that is filed was missed. -/
theorem size_le_misses (h : s.Chronicled) : s.cache.size ≤ s.cache.misses := by
  have hsubset : s.cache.entries.map Prod.fst ⊆ s.history.filterMap missedKey? := by
    intro key hkey
    have hcontains : s.cache.contains key = true := by
      rw [Cache.contains, Option.isSome_iff_ne_none, ne_eq, Cache.get?_eq_none_iff, not_not]
      exact hkey
    obtain ⟨number, built, returned, hmem⟩ := (h.contains_iff key).mp hcontains
    obtain ⟨i, hi⟩ := List.mem_iff_getElem?.mp hmem
    have hmissed := List.mem_of_getElem? (h.explained i _ hi).1
    exact List.mem_filterMap.mpr ⟨_, List.mem_of_mem_take hmissed, rfl⟩
  calc s.cache.size = (s.cache.entries.map Prod.fst).length := (List.length_map _).symm
    _ ≤ (s.history.filterMap missedKey?).length := (h.distinct.subperm hsubset).length_le
    _ = s.cache.misses := h.misses.symm

/-- Every lookup is a hit or a miss. -/
theorem hits_add_misses (h : s.Chronicled) :
    s.cache.hits + s.cache.misses = s.history.countP isLookup := by
  rw [h.hits, h.misses]
  induction s.history with
  | nil => rfl
  | cons e history ih =>
    cases e <;> simp [List.countP_cons, List.filterMap_cons, isLookup, isHit, missedKey?] <;> omega

end Chronicled

end CacheSystem

/-! ## Insert once -/

/-- **Whoever stores first decides, in whatever order the callers of a cache take turns.**  At
the end of every schedule:

* what is filed stays filed, unchanged, on every continuation;
* every call that returned an artifact returned the first one stored for its key, every reading
  was answered by the first one stored until then, and that is what the cache holds now;
* the first one stored for a key was built by a call for that key that had found nothing;
* a call whose builder fails changes nothing in the cache;
* a call that found an artifact does nothing else, and its builder is not running;
* hits and misses are the lookups, there are at most as many entries as misses, and no key has
  two entries;
* there are entries exactly for the keys for which a builder had a result;
* a caller that is not interrupted does what it does with a cache of its own
  (`Cache.getOrBuild`). -/
theorem insert_once (moves : List (CacheMove ε α)) :
    let s := CacheSystem.run {} moves
    (∀ more key a, s.cache.get? key = some a → (s.run more).cache.get? key = some a) ∧
    (∀ number key a,
      .hit number key a ∈ s.history ∨ (∃ built, .stored number key built a ∈ s.history) →
        firstBuilt s.history key = some a) ∧
    (∀ i key answer, s.history[i]? = some (.read key answer) →
      answer = firstBuilt (s.history.take i) key) ∧
    (∀ key, s.cache.get? key = firstBuilt s.history key) ∧
    (∀ key a, firstBuilt s.history key = some a →
      ∃ number returned, .stored number key a returned ∈ s.history ∧
        .missed number key ∈ s.history) ∧
    (∀ move number key reason,
      (s.step move).history = s.history ++ [.failed number key reason] →
        (s.step move).cache = s.cache) ∧
    (∀ number key a, .hit number key a ∈ s.history →
      (∀ e ∈ s.history, e.call? = some number → e = .hit number key a) ∧
        ∀ caller ∈ s.callers, ∀ call ∈ caller.pending, call.number ≠ number) ∧
    s.cache.hits + s.cache.misses = s.history.countP isLookup ∧
    s.cache.size ≤ s.cache.misses ∧
    (s.cache.entries.map Prod.fst).Nodup ∧
    (∀ key, s.cache.contains key = true ↔
      ∃ number built returned, .stored number key built returned ∈ s.history) ∧
    (∀ place client pending, s.callers[place]? = some ⟨client, pending⟩ →
      ∃ n, (s.run (List.replicate n (.act place))).cache = (client.run s.cache).2 ∧
        (s.run (List.replicate n (.act place))).callers[place]? =
          some ⟨.done (client.run s.cache).1, pending⟩) := by
  intro s
  have h : s.Chronicled := CacheSystem.chronicled_empty.run moves
  refine ⟨fun more key a hget => CacheSystem.get?_run_of_eq_some hget more,
    fun number key a ha => h.firstBuilt_of_returned ha, fun i key answer hi => h.explained i _ hi,
    h.filed, ?_, fun move number key reason hfailed => CacheSystem.cache_step_of_failed hfailed,
    ?_, h.hits_add_misses, h.size_le_misses, h.distinct, h.contains_iff, ?_⟩
  · intro key a hfirst
    obtain ⟨number, returned, hstored⟩ := exists_stored_of_firstBuilt hfirst
    obtain ⟨i, hi⟩ := List.mem_iff_getElem?.mp hstored
    have hmissed := List.mem_of_getElem? (h.explained i _ hi).1
    exact ⟨number, returned, hstored, List.mem_of_mem_take hmissed⟩
  · intro number key a hhit
    refine ⟨fun e hmem hcall => h.eq_hit_of_call hhit hmem hcall, ?_⟩
    rintro caller hcaller call hcall rfl
    -- a pending call points at a miss, and the place is taken by the hit
    have hmissed := List.mem_of_getElem? (h.pending caller hcaller call hcall)
    cases h.eq_hit_of_call hhit hmissed rfl
  · intro place client pending hcaller
    obtain ⟨s', ⟨n, rfl⟩, hplace, hcache⟩ := CacheSystem.run_alone client ⟨hcaller, rfl⟩
    exact ⟨n, hcache, hplace⟩

/-- A race: two callers miss the same key, the second is faster, and the first gets what the
second built. -/
theorem insert_once_race :
    let key : CacheKey := ⟨"a", ⟨0⟩⟩
    let s : CacheSystem Unit Nat := CacheSystem.run {}
      [.begin (.call key (.done (.ok 1)) .done), .begin (.call key (.done (.ok 2)) .done),
        .act 0, .act 1, .act 1, .act 0]
    .stored 0 key 1 2 ∈ s.history ∧ firstBuilt s.history key = some 2 ∧
      s.cache.get? key = some 2 := by
  intro key s
  obtain ⟨-, hreturned, -, hfiled, -⟩ := @insert_once Unit Nat
    [.begin (.call key (.done (.ok 1)) .done), .begin (.call key (.done (.ok 2)) .done),
      .act 0, .act 1, .act 1, .act 0]
  have hhistory : s.history =
      [.missed 0 key, .missed 1 key, .stored 1 key 2 2, .stored 0 key 1 2] := rfl
  have hstored : .stored 0 key 1 2 ∈ s.history := by simp [hhistory]
  have hfirst : firstBuilt s.history key = some 2 := hreturned 0 key 2 (.inr ⟨1, hstored⟩)
  exact ⟨hstored, hfirst, (hfiled key).trans hfirst⟩

end StackScript
