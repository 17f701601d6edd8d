import StackScript.Fingerprint

/-!
# The compilation cache

Artifacts by source name and fingerprint.  An artifact that is in the cache stays there
and is never replaced; there are only two operations that change anything, and each is
indivisible:

* `lookup` asks for a key and counts the answer as a hit or a miss;
* `store` puts an artifact under a key unless there already is one, and returns the one
  that is there afterwards.

`getOrBuild` is one caller's use of them.  Between its lookup and its store the builder
runs, which may itself use the cache, under the same key even; whoever stores first
decides what everyone gets.
-/

namespace StackScript

/-- What an artifact is filed under. -/
structure CacheKey where
  /-- The name of the source. -/
  identifier : String
  /-- The fingerprint of its text. -/
  fingerprint : Fingerprint
  deriving DecidableEq, Repr

/-- The key in readable form. -/
def CacheKey.text (key : CacheKey) : String :=
  s!"{key.identifier}@{key.fingerprint.text}"

/-- Artifacts by key, with a count of the lookups. -/
structure Cache (α : Type) where
  /-- The artifacts, latest first. -/
  entries : List (CacheKey × α) := []
  /-- How many lookups found an artifact. -/
  hits : Nat := 0
  /-- How many lookups found none. -/
  misses : Nat := 0

namespace Cache

variable {α : Type}

/-- The artifact of a key; nothing is counted. -/
def get? (c : Cache α) (key : CacheKey) : Option α :=
  c.entries.lookup key

/-- Whether a key has an artifact. -/
def contains (c : Cache α) (key : CacheKey) : Bool :=
  (c.get? key).isSome

/-- The number of artifacts. -/
def size (c : Cache α) : Nat := c.entries.length

/-- Ask for a key and count the answer. -/
def lookup (c : Cache α) (key : CacheKey) : Option α × Cache α :=
  match c.get? key with
  | some a => (some a, { c with hits := c.hits + 1 })
  | none => (none, { c with misses := c.misses + 1 })

/-- File an artifact unless there is one already; the one that is there is returned. -/
def store (c : Cache α) (key : CacheKey) (a : α) : α × Cache α :=
  match c.get? key with
  | some b => (b, c)
  | none => (a, { c with entries := (key, a) :: c.entries })

/-- The artifact of a key, built if need be.  A builder that fails files nothing. -/
def getOrBuild {ε : Type} (c : Cache α) (key : CacheKey)
    (build : Cache α → Except ε α × Cache α) : Except ε α × Cache α :=
  match c.lookup key with
  | (some a, c) => (.ok a, c)
  | (none, c) =>
      match build c with
      | (.ok a, c) =>
          let (b, c) := c.store key a
          (.ok b, c)
      | (.error e, c) => (.error e, c)

theorem lookup_of_get?_eq_some {c : Cache α} {key : CacheKey} {a : α} (h : c.get? key = some a) :
    c.lookup key = (some a, { c with hits := c.hits + 1 }) := by
  simp [lookup, h]

theorem lookup_of_get?_eq_none {c : Cache α} {key : CacheKey} (h : c.get? key = none) :
    c.lookup key = (none, { c with misses := c.misses + 1 }) := by
  simp [lookup, h]

theorem store_of_get?_eq_some {c : Cache α} {key : CacheKey} {a b : α}
    (h : c.get? key = some b) : c.store key a = (b, c) := by
  simp [store, h]

/-- What a store returns is what is filed under the key afterwards. -/
theorem get?_store_self (c : Cache α) (key : CacheKey) (a : α) :
    (c.store key a).2.get? key = some (c.store key a).1 := by
  unfold store
  cases h : c.get? key with
  | none => simp [get?]
  | some b => simp [h]

/-- A store under one key leaves the others alone. -/
theorem get?_store_of_ne (c : Cache α) {key other : CacheKey} (h : other ≠ key) (a : α) :
    (c.store key a).2.get? other = c.get? other := by
  have hb : (other == key) = false := beq_false_of_ne h
  unfold store
  cases hk : c.get? key with
  | none => simp [get?, List.lookup_cons, hb]
  | some b => rfl

end Cache

end StackScript
