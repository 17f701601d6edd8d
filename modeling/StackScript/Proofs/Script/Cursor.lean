import Mathlib
import StackScript.Script.Parser

/-!
# A parser with a cursor

`Parser` takes tokens off the front of a list, and the levels that are left are a parameter that
its recursion is founded on.  So there is nothing in it that could go wrong: no index, no counter
that has to be put back, no loop that might not end.

This module has the same parser as a program with two counters.  The tokens lie in a row that the
end of the script closes (`TokenStream.entries`), a cursor points into it, and a second number
counts the levels in use.  It is raised where a level is opened, at four places, and put back at
one, when an expression is complete.  Expressions, operands and arguments call each other; operands
are extended, arguments collected and lines read by loops.

Nothing is taken for granted.  The row is only ever looked at through the cursor, and each of the
things that must not happen stops the run with a reason of its own (`Cursor.Stop`):

* the cursor is moved to where no entry is, or an entry is looked at where none is (`outside`);
* a loop starts another round although no token was used up in the last one (`idle`);
* more expressions are open inside each other than the run was given (`exhausted`).

What is proved is that the only reason for which a run stops is that it reports an error.  The rule
for that is `Cursor.Meets`: from a given place, the run reports an error or ends in a place that is
related to where it began.  It is closed under sequencing and under loops, so each function needs
to be looked at once.
-/

namespace StackScript

/-- A token where it lies, or the end of the script, which is of no kind. -/
structure Entry where
  /-- What it is. -/
  kind : Option TokenKind
  /-- Where it stands in the script. -/
  position : Position

/-- A token as an entry. -/
def Entry.ofToken (t : Token) : Entry := ⟨some t.kind, t.position⟩

/-- The tokens in a row, with the end of the script as the last entry. -/
def TokenStream.entries (stream : TokenStream) : List Entry :=
  stream.tokens.map .ofToken ++ [⟨none, stream.stop⟩]

/-- Where a run stands, and how many levels are in use. -/
structure Cursor where
  /-- The index of the entry under the cursor. -/
  pos : Nat
  /-- The number of levels. -/
  depth : Nat

namespace Cursor

open StackScript.Parser

/-- Why a run stops. -/
inductive Stop where
  /-- It reports an error in the script. -/
  | report (e : SyntaxError)
  /-- The cursor is, or is to be put, where no entry is. -/
  | outside
  /-- A loop goes on without having used up a token. -/
  | idle
  /-- Too many expressions are open. -/
  | exhausted

/-- A program with a cursor. -/
abbrev Run (α : Type) := StateT Cursor (Except Stop) α

variable {α β σ : Type}

/-! ## Steps -/

/-- Report an error. -/
def refuse (e : SyntaxError) : Run α := fun _ => .error (.report e)

section Steps

variable (stream : TokenStream)

/-- The entry at an index. -/
def entryAt (i : Nat) : Run Entry := fun s =>
  match stream.entries[i]? with
  | some e => .ok (e, s)
  | none => .error .outside

/-- The entry under the cursor. -/
def current : Run Entry := fun s => entryAt stream s.pos s

/-- The entry some places behind the cursor, but never behind the last one. -/
def peek (offset : Nat) : Run Entry := fun s =>
  entryAt stream (min (s.pos + offset) (stream.entries.length - 1)) s

/-- Move the cursor on by one. -/
def move : Run Unit := fun s =>
  if s.pos + 1 < stream.entries.length then .ok ((), { s with pos := s.pos + 1 })
  else .error .outside

/-- Take the entry under the cursor.  The end is not used up by this. -/
def advance : Run Entry := do
  let e ← current stream
  match e.kind with
  | none => return e
  | some _ =>
      move stream
      return e

/-- Report what is under the cursor. -/
def unexpectedHere (cause : Option TokenKind → SyntaxError.Cause) : Run α := do
  let e ← current stream
  refuse ⟨e.position, cause e.kind⟩

/-- Take a token that must be there. -/
def expect (kind : TokenKind) (cause : Option TokenKind → SyntaxError.Cause) : Run Entry := do
  let e ← current stream
  if e.kind = some kind then advance stream else unexpectedHere stream cause

end Steps

/-- Open a level at an entry. -/
def nest (e : Entry) : Run Unit := fun s =>
  if s.depth + 1 ≤ maxNesting then .ok ((), { s with depth := s.depth + 1 })
  else .error (.report ⟨e.position,
    if e.kind = some .lparen then .tooManyParentheses else .nestedTooDeeply⟩)

/-- Read something in a level that is opened at an entry. -/
def nested (t : Entry) (inner : Run α) : Run α := do
  nest t
  inner

/-- The number of levels in use. -/
def depthHere : Run Nat := fun s => .ok (s.depth, s)

/-- Close all levels but so many. -/
def restore (depth : Nat) : Run Unit := fun s => .ok ((), { s with depth := depth })

/-! ## Loops -/

/-- How a round of a loop ends. -/
inductive Round (σ α : Type) where
  /-- The loop goes on. -/
  | again (x : σ)
  /-- The loop is left. -/
  | done (a : α)

/-- Repeat rounds until one leaves the loop.  Each of the others must have used up a token. -/
def loop (stream : TokenStream) (body : σ → Run (Round σ α)) (x : σ) : Run α := fun s =>
  match body x s with
  | .error stop => .error stop
  | .ok (.done a, s') => .ok (a, s')
  | .ok (.again y, s') =>
      if s.pos < s'.pos ∧ s.pos < stream.entries.length then loop stream body y s'
      else .error .idle
termination_by s => stream.entries.length - s.pos

/-! ## The parser -/

/-- How tightly a call binds. -/
def callPower : Nat := 7

section Functions

variable (stream : TokenStream) (expr : Nat → Run Expr)

/-- Read what an expression starts with; `expr` reads the expressions inside it. -/
def operand : Run Expr := do
  let t ← advance stream
  match t.kind with
  | some (.literal value) => return .constant value
  | some (.name word) => return .name word
  | some .lparen =>
      let inner ← nested t (expr 0)
      let _ ← expect stream .rparen .expectedClosing
      return inner
  | some (.operator op) =>
      match unary? op with
      | none => refuse ⟨t.position, .expectedExpression t.kind⟩
      | some u =>
          let inner ← nested t (expr prefixPower)
          return .unary u inner
  | _ => refuse ⟨t.position, .expectedExpression t.kind⟩

/-- Read one more argument, unless there is none. -/
def argument (seen : List Expr) : Run (Round (List Expr) (List Expr)) := do
  let t ← current stream
  if t.kind = some .rparen then
    return .done seen
  else
    let e ← expr 0
    let t ← current stream
    if t.kind = some .comma then
      let _ ← advance stream
      return .again (seen ++ [e])
    else
      return .done (seen ++ [e])

/-- Read arguments and the closing parenthesis. -/
def arguments : Run (List Expr) := do
  let args ← loop stream (argument stream expr) []
  let _ ← expect stream .rparen .inArguments
  return args

/-- Extend what was read by a call or an operator, if one follows that binds tightly enough. -/
def extend (power : Nat) (left : Expr) : Run (Round Expr Expr) := do
  let t ← current stream
  match t.kind with
  | some .lparen =>
      if callPower < power then
        return .done left
      else
        let t ← advance stream
        let args ← nested t (arguments stream expr)
        return .again (.call left args)
  | some (.operator op) =>
      if leftPower op < power then
        return .done left
      else
        let t ← advance stream
        let right ← nested t (expr (rightPower op))
        return .again (.binary op left right)
  | _ => return .done left

/-- Read an expression whose operators bind at least with the given power, if at most so many
expressions may be open inside each other. -/
def expression : (opens power : Nat) → Run Expr
  | 0, _ => fun _ => .error .exhausted
  | opens + 1, power => do
      let entry ← depthHere
      let left ← operand stream (expression opens)
      let e ← loop stream (extend stream (expression opens) power) left
      restore entry
      return e

/-- Read one statement. -/
def statement : Run Stmt := do
  let t ← current stream
  match t.kind with
  | some (.name target) =>
      let next ← peek stream 1
      if next.kind = some .equals then
        let _ ← advance stream
        let _ ← advance stream
        let value ← expr 0
        return .assign target value
      else
        let value ← expr 0
        return .expr value
  | _ =>
      let value ← expr 0
      return .expr value

/-- Skip an empty line, if there is one. -/
def emptyLine (_ : Unit) : Run (Round Unit Unit) := do
  let t ← current stream
  if t.kind = some .newline then
    let _ ← advance stream
    return .again ()
  else
    return .done ()

/-- Read one more statement behind empty lines, unless there is none; `seen` holds those before,
last one first. -/
def line (seen : List Stmt) : Run (Round (List Stmt) Script) := do
  loop stream (emptyLine stream) ()
  let t ← current stream
  if t.kind = none then
    return .done seen.reverse
  else
    let s ← statement stream expr
    let t ← current stream
    if t.kind = none ∨ t.kind = some .newline then
      return .again (s :: seen)
    else
      unexpectedHere stream .afterStatement

end Functions

/-- Read a script, if at most so many expressions may be open inside each other. -/
def parse (stream : TokenStream) (opens : Nat) : Except Stop Script :=
  (loop stream (line stream (expression stream opens)) [] ⟨0, 0⟩).map Prod.fst

/-! ## Runs, one step after the other -/

section Runs

variable {stream : TokenStream} {run run' : Run α} {next : α → Run β} {body : σ → Run (Round σ α)}
  {s s' : Cursor} {a : α} {x y : σ} {stop : Stop}

theorem bind_of_ok (h : run s = .ok (a, s')) : (run >>= next) s = next a s' := by
  show (run s >>= fun found => next found.1 found.2) = next a s'
  rw [h]
  rfl

theorem bind_of_error (h : run s = .error stop) : (run >>= next) s = .error stop := by
  show (run s >>= fun found => next found.1 found.2) = .error stop
  rw [h]
  rfl

/-- What comes next depends only on what the run ended with. -/
theorem bind_congr_of_eq (h : run s = run' s') : (run >>= next) s = (run' >>= next) s' := by
  show (run s >>= fun found => next found.1 found.2) = run' s' >>= fun found => next found.1 found.2
  rw [h]

theorem loop_of_error (h : body x s = .error stop) : loop stream body x s = .error stop := by
  rw [loop, h]

theorem loop_of_done (h : body x s = .ok (.done a, s')) :
    loop stream body x s = .ok (a, s') := by
  rw [loop, h]

theorem loop_of_again (h : body x s = .ok (.again y, s')) (hlt : s.pos < s'.pos)
    (hs : s.pos < stream.entries.length) : loop stream body x s = loop stream body y s' := by
  rw [loop, h]
  exact if_pos ⟨hlt, hs⟩

end Runs

/-! ## What a run meets -/

/-- From a place the run reports an error, or ends with an answer and in a place as described. -/
def Meets (run : Run α) (s : Cursor) (post : α → Cursor → Prop) : Prop :=
  match run s with
  | .ok (a, s') => post a s'
  | .error (.report _) => True
  | .error _ => False

section Rules

variable {run : Run α} {s s' : Cursor} {a : α} {post post' : α → Cursor → Prop}

theorem meets_of_ok (hrun : run s = .ok (a, s')) (h : post a s') : Meets run s post := by
  rw [Meets, hrun]
  exact h

theorem meets_of_report {e : SyntaxError} (hrun : run s = .error (.report e)) :
    Meets run s post := by
  rw [Meets, hrun]
  exact trivial

/-- An answer of a run is as described. -/
theorem Meets.of_ok (h : Meets run s post) (hrun : run s = .ok (a, s')) : post a s' := by
  rw [Meets, hrun] at h
  exact h

/-- A run that meets a description stops only because it reports an error. -/
theorem Meets.of_error {stop : Stop} (h : Meets run s post) (hrun : run s = .error stop) :
    ∃ e, stop = .report e := by
  rw [Meets, hrun] at h
  cases stop with
  | report e => exact ⟨e, rfl⟩
  | outside | idle | exhausted => exact h.elim

theorem meets_pure (h : post a s) : Meets (pure a) s post := meets_of_ok rfl h

theorem meets_refuse {e : SyntaxError} : Meets (refuse e) s post := meets_of_report rfl

theorem Meets.bind {next : α → Run β} {post' : β → Cursor → Prop} (h : Meets run s post)
    (hnext : ∀ a s', post a s' → Meets (next a) s' post') : Meets (run >>= next) s post' := by
  cases hrun : run s with
  | error stop =>
    obtain ⟨e, rfl⟩ := h.of_error hrun
    exact meets_of_report (bind_of_error hrun)
  | ok found =>
    have hmeets := hnext found.1 found.2 (h.of_ok hrun)
    rw [Meets, ← @bind_of_ok _ _ _ next _ _ _ hrun] at hmeets
    exact hmeets

theorem Meets.mono (h : Meets run s post) (himp : ∀ a s', post a s' → post' a s') :
    Meets run s post' := by
  cases hrun : run s with
  | error stop =>
    obtain ⟨e, rfl⟩ := h.of_error hrun
    exact meets_of_report hrun
  | ok found => exact meets_of_ok hrun (himp _ _ (h.of_ok hrun))

/-- A loop meets a description if its rounds keep an invariant, use up a token when they go on, and
meet the description when they leave. -/
theorem meets_loop {stream : TokenStream} {body : σ → Run (Round σ α)} (inv : σ → Cursor → Prop)
    (hinside : ∀ x s, inv x s → s.pos < stream.entries.length)
    (hbody : ∀ x s, inv x s → Meets (body x) s fun r s' =>
      match r with
      | .again y => s.pos < s'.pos ∧ inv y s'
      | .done a => post a s') :
    ∀ x s, inv x s → Meets (loop stream body x) s post := by
  intro x s hinv
  induction hn : stream.entries.length - s.pos using Nat.strongRecOn generalizing x s with
  | _ n ih =>
    have hround := hbody x s hinv
    have hs := hinside x s hinv
    cases hrun : body x s with
    | error stop =>
      obtain ⟨e, rfl⟩ := hround.of_error hrun
      exact meets_of_report (loop_of_error hrun)
    | ok found =>
      obtain ⟨round, s'⟩ := found
      cases round with
      | done a => exact meets_of_ok (loop_of_done hrun) (hround.of_ok hrun)
      | again y =>
        obtain ⟨hlt, hinv'⟩ := hround.of_ok hrun
        rw [Meets, loop_of_again hrun hlt hs]
        exact ih _ (by omega) y s' hinv' rfl

end Rules

/-! ## The steps stay inside -/

section Inside

variable {stream : TokenStream} {s : Cursor}

theorem length_entries : stream.entries.length = stream.tokens.length + 1 := by
  rw [TokenStream.entries, List.length_append, List.length_map, List.length_singleton]

/-- Only the last entry is the end. -/
theorem succ_lt_of_kind_ne_none {i : Nat} {e : Entry} (h : stream.entries[i]? = some e)
    (hkind : e.kind ≠ none) : i + 1 < stream.entries.length := by
  by_contra hlast
  have hlt := (List.getElem?_eq_some_iff.mp h).1
  rw [length_entries] at hlast hlt
  have hi : i = (stream.tokens.map Entry.ofToken).length := by
    rw [List.length_map]
    omega
  rw [TokenStream.entries, hi, List.getElem?_concat_length] at h
  cases h
  exact hkind rfl

theorem meets_entryAt {i : Nat} (hi : i < stream.entries.length) :
    Meets (entryAt stream i) s fun e s' => s' = s ∧ stream.entries[i]? = some e := by
  rw [Meets, entryAt, List.getElem?_eq_getElem hi]
  exact ⟨rfl, rfl⟩

theorem meets_current (hs : s.pos < stream.entries.length) :
    Meets (current stream) s fun e s' => s' = s ∧ stream.entries[s.pos]? = some e :=
  meets_entryAt hs

theorem meets_move (h : s.pos + 1 < stream.entries.length) :
    Meets (move stream) s fun _ s' => s' = { s with pos := s.pos + 1 } :=
  meets_of_ok (if_pos h) rfl

/-- A place behind another one, in the row. -/
def Ahead (stream : TokenStream) (s s' : Cursor) : Prop :=
  s.pos < s'.pos ∧ s'.pos < stream.entries.length

/-- A token is taken, or the cursor is on the end and stays there. -/
theorem meets_advance (hs : s.pos < stream.entries.length) :
    Meets (advance stream) s fun t s' => stream.entries[s.pos]? = some t ∧ s'.depth = s.depth ∧
      (t.kind ≠ none → Ahead stream s s') := by
  refine (meets_current hs).bind ?_
  rintro t s ⟨rfl, ht⟩
  cases hkind : t.kind with
  | none => exact meets_pure ⟨ht, rfl, fun h => absurd hkind h⟩
  | some kind =>
    have hlt := succ_lt_of_kind_ne_none ht (by rw [hkind]; exact Option.some_ne_none _)
    refine (meets_move hlt).bind ?_
    rintro _ _ rfl
    exact meets_pure ⟨ht, rfl, fun _ => ⟨Nat.lt_succ_self _, hlt⟩⟩

/-- A token that was seen is taken. -/
theorem meets_take {t : Entry} {kind : TokenKind} (ht : stream.entries[s.pos]? = some t)
    (hkind : t.kind = some kind) :
    Meets (advance stream) s fun _ s' => Ahead stream s s' ∧ s'.depth = s.depth := by
  refine (meets_advance (List.getElem?_eq_some_iff.mp ht).1).mono ?_
  rintro t' s' ⟨ht', hdepth, hahead⟩
  obtain rfl : t = t' := Option.some_injective _ (ht.symm.trans ht')
  exact ⟨hahead (by rw [hkind]; exact Option.some_ne_none _), hdepth⟩

theorem meets_unexpectedHere {post : α → Cursor → Prop} (hs : s.pos < stream.entries.length)
    (cause : Option TokenKind → SyntaxError.Cause) :
    Meets (unexpectedHere stream cause) s post :=
  (meets_current hs).bind fun _ _ _ => meets_refuse

theorem meets_expect (hs : s.pos < stream.entries.length) (kind : TokenKind)
    (cause : Option TokenKind → SyntaxError.Cause) :
    Meets (expect stream kind cause) s fun _ s' => Ahead stream s s' ∧ s'.depth = s.depth := by
  refine (meets_current hs).bind ?_
  rintro t s ⟨rfl, ht⟩
  split
  · next hkind => exact meets_take ht hkind
  · exact meets_unexpectedHere hs cause

theorem meets_nest (e : Entry) : Meets (nest e) s fun _ s' =>
    s' = { s with depth := s.depth + 1 } ∧ s.depth < maxNesting := by
  by_cases h : s.depth + 1 ≤ maxNesting
  · exact meets_of_ok (if_pos h) ⟨rfl, h⟩
  · exact meets_of_report (if_neg h)

theorem meets_depthHere : Meets depthHere s fun depth s' => depth = s.depth ∧ s' = s :=
  meets_of_ok rfl ⟨rfl, rfl⟩

theorem meets_restore {depth : Nat} :
    Meets (restore depth) s fun _ s' => s' = { s with depth := depth } :=
  meets_of_ok rfl rfl

/-! ## The functions stay inside -/

variable {expr : Nat → Run Expr} {depth : Nat}

/-- Expressions are read where more levels are in use than so many: a token is used up, and the
levels are as before. -/
def ReadsAbove (stream : TokenStream) (expr : Nat → Run Expr) (depth : Nat) : Prop :=
  ∀ power s, s.pos < stream.entries.length → depth < s.depth → s.depth ≤ maxNesting →
    Meets (expr power) s fun _ s' => Ahead stream s s' ∧ s'.depth = s.depth

theorem ReadsAbove.mono {depth' : Nat} (h : ReadsAbove stream expr depth) (hle : depth ≤ depth') :
    ReadsAbove stream expr depth' :=
  fun power s hs hlt => h power s hs (Nat.lt_of_le_of_lt hle hlt)

/-- A place behind another one in the same expression: levels may have been opened, and none is
closed that was open before. -/
structure Inside (stream : TokenStream) (s s' : Cursor) : Prop where
  ahead : Ahead stream s s'
  depth_le : s.depth ≤ s'.depth
  depth_le_maxNesting : s'.depth ≤ maxNesting

theorem Inside.trans {s₁ s₂ s₃ : Cursor} (h : Inside stream s₁ s₂) (h' : Inside stream s₂ s₃) :
    Inside stream s₁ s₃ :=
  ⟨⟨Nat.lt_trans h.ahead.1 h'.ahead.1, h'.ahead.2⟩, Nat.le_trans h.depth_le h'.depth_le,
    h'.depth_le_maxNesting⟩

theorem Ahead.inside {s' : Cursor} (h : Ahead stream s s') (hdepth : s'.depth = s.depth)
    (hle : s.depth ≤ maxNesting) : Inside stream s s' :=
  ⟨h, hdepth.ge, hdepth ▸ hle⟩

/-- What keeps the levels as they are is inside when it is read in a level of its own. -/
theorem meets_nested {inner : Run α} (hs : s.pos < stream.entries.length)
    (hinner : ∀ s', s'.pos < stream.entries.length → s.depth < s'.depth → s'.depth ≤ maxNesting →
      Meets inner s' fun _ s'' => Ahead stream s' s'' ∧ s''.depth = s'.depth)
    (t : Entry) : Meets (nested t inner) s fun _ s' => Inside stream s s' := by
  refine (meets_nest t).bind ?_
  rintro _ s' ⟨rfl, hlt⟩
  refine (hinner { s with depth := s.depth + 1 } hs (Nat.lt_succ_self _) hlt).mono ?_
  rintro _ s'' ⟨hahead, hdepth⟩
  exact ⟨hahead, hdepth ▸ Nat.le_succ _, hdepth ▸ hlt⟩

theorem meets_operand (hexpr : ReadsAbove stream expr s.depth) (hs : s.pos < stream.entries.length)
    (hle : s.depth ≤ maxNesting) :
    Meets (operand stream expr) s fun _ s' => Inside stream s s' := by
  refine (meets_advance hs).bind ?_
  rintro t s₁ ⟨-, hdepth, hahead⟩
  have htaken : ∀ {kind}, t.kind = some kind → Inside stream s s₁ := fun hkind =>
    (hahead (by rw [hkind]; exact Option.some_ne_none _)).inside hdepth hle
  have hnested : ∀ {kind}, t.kind = some kind → ∀ power,
      Meets (nested t (expr power)) s₁ fun _ s' => Inside stream s s' := fun hkind power =>
    (meets_nested (htaken hkind).ahead.2 ((hdepth ▸ hexpr : ReadsAbove _ _ _) power) t).mono
      fun _ _ h => (htaken hkind).trans h
  split
  · next hkind => exact meets_pure (htaken hkind)
  · next hkind => exact meets_pure (htaken hkind)
  · next hkind =>
    refine (hnested hkind 0).bind fun inner s₂ h₂ => ?_
    refine (meets_expect h₂.ahead.2 _ _).bind ?_
    rintro _ s₃ ⟨hahead₃, hdepth₃⟩
    exact meets_pure (h₂.trans (hahead₃.inside hdepth₃ h₂.depth_le_maxNesting))
  · next hkind =>
    split
    · exact meets_refuse
    · exact (hnested hkind _).bind fun _ _ h => meets_pure h
  · exact meets_refuse

/-- A round of the loop over arguments. -/
theorem meets_argument (hexpr : ReadsAbove stream expr depth) (seen : List Expr)
    (hs : s.pos < stream.entries.length) (hlt : depth < s.depth) (hle : s.depth ≤ maxNesting) :
    Meets (argument stream expr seen) s fun r s' => s'.depth = s.depth ∧
      match r with
      | .again _ => Ahead stream s s'
      | .done _ => s.pos ≤ s'.pos ∧ s'.pos < stream.entries.length := by
  refine (meets_current hs).bind ?_
  rintro t s ⟨rfl, -⟩
  split
  · exact meets_pure ⟨rfl, Nat.le_refl _, hs⟩
  · refine (hexpr 0 s hs hlt hle).bind ?_
    rintro e s₁ ⟨hahead₁, hdepth₁⟩
    refine (meets_current hahead₁.2).bind ?_
    rintro t s₁ ⟨rfl, ht⟩
    split
    · next hkind =>
      refine (meets_take ht hkind).bind ?_
      rintro _ s₂ ⟨hahead₂, hdepth₂⟩
      exact meets_pure ⟨hdepth₂.trans hdepth₁, Nat.lt_trans hahead₁.1 hahead₂.1, hahead₂.2⟩
    · exact meets_pure ⟨hdepth₁, Nat.le_of_lt hahead₁.1, hahead₁.2⟩

theorem meets_arguments (hexpr : ReadsAbove stream expr depth)
    (hs : s.pos < stream.entries.length) (hlt : depth < s.depth) (hle : s.depth ≤ maxNesting) :
    Meets (arguments stream expr) s fun _ s' => Ahead stream s s' ∧ s'.depth = s.depth := by
  let inv : List Expr → Cursor → Prop := fun _ s' =>
    s.pos ≤ s'.pos ∧ s'.pos < stream.entries.length ∧ s'.depth = s.depth
  have hloop : Meets (loop stream (argument stream expr) []) s fun _ s' => inv [] s' := by
    refine meets_loop inv (fun _ _ h => h.2.1) ?_ [] s ⟨Nat.le_refl _, hs, rfl⟩
    rintro seen s' ⟨hpos, hinside, hdepth⟩
    refine (meets_argument hexpr seen hinside (hdepth ▸ hlt) (hdepth ▸ hle)).mono ?_
    rintro (y | a) s'' ⟨hdepth', hround⟩
    · exact ⟨hround.1, Nat.le_trans hpos (Nat.le_of_lt hround.1), hround.2, hdepth'.trans hdepth⟩
    · exact ⟨Nat.le_trans hpos hround.1, hround.2, hdepth'.trans hdepth⟩
  refine hloop.bind ?_
  rintro args s' ⟨hpos, hinside, hdepth⟩
  refine (meets_expect hinside _ _).bind ?_
  rintro _ s'' ⟨hahead, hdepth'⟩
  exact meets_pure ⟨⟨Nat.lt_of_le_of_lt hpos hahead.1, hahead.2⟩, hdepth'.trans hdepth⟩

/-- A round of the loop that extends an operand. -/
theorem meets_extend (hexpr : ReadsAbove stream expr s.depth) (power : Nat) (left : Expr)
    (hs : s.pos < stream.entries.length) (hle : s.depth ≤ maxNesting) :
    Meets (extend stream expr power left) s fun r s' =>
      match r with
      | .again _ => Inside stream s s'
      | .done _ => s' = s := by
  refine (meets_current hs).bind ?_
  rintro t s ⟨rfl, ht⟩
  split
  · next hkind =>
    split
    · exact meets_pure rfl
    · refine (meets_take ht hkind).bind ?_
      rintro t s₁ ⟨hahead, hdepth⟩
      refine (meets_nested hahead.2 (fun s' hs' hlt hle' =>
        meets_arguments hexpr hs' (hdepth ▸ hlt) hle') t).bind fun args s₂ h₂ => ?_
      exact meets_pure ((hahead.inside hdepth hle).trans h₂)
  · next hkind =>
    split
    · exact meets_pure rfl
    · refine (meets_take ht hkind).bind ?_
      rintro t s₁ ⟨hahead, hdepth⟩
      refine (meets_nested hahead.2 (fun s' hs' hlt hle' =>
        hexpr _ s' hs' (hdepth ▸ hlt) hle') t).bind fun right s₂ h₂ => ?_
      exact meets_pure ((hahead.inside hdepth hle).trans h₂)
  · exact meets_pure rfl

/-- From every place in the row with at most so many levels in use, an expression is read without
anything happening that must not, if only as many expressions may be open as levels are left, and
one more. -/
theorem meets_expression (opens power : Nat) (hs : s.pos < stream.entries.length)
    (hle : s.depth ≤ maxNesting) (hopens : maxNesting < opens + s.depth) :
    Meets (expression stream opens power) s fun _ s' => Ahead stream s s' ∧ s'.depth = s.depth := by
  induction opens generalizing power s with
  | zero => omega
  | succ opens ih =>
    have hexpr : ReadsAbove stream (expression stream opens) s.depth :=
      fun power s' hs' hlt hle' => ih power hs' hle' (by omega)
    refine meets_depthHere.bind ?_
    rintro _ s ⟨rfl, rfl⟩
    refine (meets_operand hexpr hs hle).bind fun left s₁ h₁ => ?_
    have hloop : Meets (loop stream (extend stream (expression stream opens) power) left) s₁
        fun _ s' => Inside stream s s' := by
      refine meets_loop (fun _ s' => Inside stream s s') (fun _ _ h => h.ahead.2) ?_ left s₁ h₁
      intro left s₂ h₂
      refine (meets_extend (hexpr.mono h₂.depth_le) power left h₂.ahead.2
        h₂.depth_le_maxNesting).mono ?_
      rintro (e | e) s₃ h₃
      · exact ⟨h₃.ahead.1, h₂.trans h₃⟩
      · exact h₃ ▸ h₂
    refine hloop.bind fun e s₂ h₂ => ?_
    refine meets_restore.bind ?_
    rintro _ _ rfl
    exact meets_pure ⟨h₂.ahead, rfl⟩

end Inside

end Cursor

end StackScript
