import Mathlib.Data.List.Forall2
import StackScript.Proofs.Folding
import StackScript.Proofs.Script.Positions

/-!
# What the cheap pass folds

Which nodes the cheap pass reaches is nowhere written down: it follows from where the walk goes on
and where it stops.  This module says it in terms of positions.  A *pair* is a sum, difference,
product or quotient of two literals that has a value and has no binary operator above it
(`Expr.PairAt`).  The pass puts the value in the place of each pair, and every other node is as
before (`Expr.PairsFolded`).

That leaves the pass no choice: two trees that arise from one tree in this way have the same label
at each position, so they are equal (`Expr.PairsFolded.unique`).  Hence the characterisation of the
pass in `pairsFolded_iff_eq_foldPairs`.

A fold puts a literal where a binary operator was.  What was above it is no binary operator, so no
new pair can arise, and a second pass finds nothing (`Expr.not_pairAt_replace`).
-/

namespace StackScript

theorem BinaryOp.isPlain_iff (op : BinaryOp) :
    op.isPlain = true ↔ op ∈ [BinaryOp.add, .sub, .mul, .div] := by
  cases op <;> simp [isPlain]

namespace Expr

/-! ## Pairs -/

/-- At a position stands a pair with a value: a sum, difference, product or quotient of two
literals, below no binary operator. -/
def PairAt (e : Expr) (p : List Nat) (c : Constant) : Prop :=
  (∀ d ∈ e.above p, d.isBinary = false) ∧
    ∃ op a b, e.at? p = some (.binary op (.constant a) (.constant b)) ∧
      op ∈ [BinaryOp.add, .sub, .mul, .div] ∧ Arithmetic.binary op a b = .ok c

variable {e e' d : Expr} {c : Constant}

theorem pairAt_nil_iff : e.PairAt [] c ↔
    ∃ op a b, e = .binary op (.constant a) (.constant b) ∧
      op ∈ [BinaryOp.add, .sub, .mul, .div] ∧ Arithmetic.binary op a b = .ok c := by
  simp [PairAt]

theorem pairAt_cons_iff {i : Nat} (h : e.children[i]? = some d) (p : List Nat) :
    e.PairAt (i :: p) c ↔ e.isBinary = false ∧ d.PairAt p c := by
  rw [PairAt, PairAt, at?_cons_of_child h, above_cons_of_child h, List.forall_mem_cons, and_assoc]

theorem PairAt.exists_child {i : Nat} {p : List Nat} (h : e.PairAt (i :: p) c) :
    ∃ child, e.children[i]? = some child ∧ e.isBinary = false ∧ child.PairAt p c := by
  obtain ⟨op, a, b, hat, -⟩ := h.2
  obtain ⟨child, hchild, -⟩ := exists_child_of_at?_cons hat
  exact ⟨child, hchild, (pairAt_cons_iff hchild p).mp h⟩

/-! ## The pass at one node -/

/-- A binary operator has its value as answer if it is a pair, and otherwise itself. -/
theorem replace_binary (op : BinaryOp) (left right : Expr) :
    (∃ c, (Expr.binary op left right).PairAt [] c ∧
      (Expr.binary op left right).replace foldPair? = .constant c) ∨
    ((∀ c, ¬(Expr.binary op left right).PairAt [] c) ∧
      (Expr.binary op left right).replace foldPair? = .binary op left right) := by
  have hpair : ∀ c, Pair.inspect op left right = .value c ↔
      (Expr.binary op left right).PairAt [] c := by
    intro c
    rw [Pair.inspect_eq_value_iff, pairAt_nil_iff, BinaryOp.isPlain_iff]
    constructor
    · rintro ⟨hop, a, b, rfl, rfl, hvalue⟩
      exact ⟨op, a, b, rfl, hop, hvalue⟩
    · rintro ⟨op', a, b, heq, hop, hvalue⟩
      cases heq
      exact ⟨hop, a, b, rfl, rfl, hvalue⟩
  simp only [← hpair, replace, foldPair?]
  cases Pair.inspect op left right with
  | value c => exact .inl ⟨c, rfl, rfl⟩
  | other | stuck =>
    refine .inr ⟨fun c h => ?_, rfl⟩
    cases h

/-- **One node of the pass**: a pair becomes its value, any other binary operator stays with all
that is below it, and below all other nodes the pass goes on. -/
theorem replace_cases (e : Expr) :
    (∃ c, e.PairAt [] c ∧ e.replace foldPair? = .constant c) ∨
    (e.isBinary = true ∧ (∀ c, ¬e.PairAt [] c) ∧ e.replace foldPair? = e) ∨
    (e.isBinary = false ∧ e.replace foldPair? = e.mapChildren fun d => d.replace foldPair?) := by
  cases e with
  | constant | name | unary => exact .inr (.inr ⟨rfl, rfl⟩)
  | binary op left right =>
    rcases replace_binary op left right with hfolded | hkept
    · exact .inl hfolded
    · exact .inr (.inl ⟨rfl, hkept⟩)
  | call callee arguments =>
    refine .inr (.inr ⟨rfl, ?_⟩)
    rw [mapChildren, ← replaceAll_eq_map]
    rfl

theorem PairAt.isBinary (h : e.PairAt [] c) : e.isBinary = true := by
  obtain ⟨op, a, b, rfl, -⟩ := pairAt_nil_iff.mp h
  rfl

theorem replace_of_not_isBinary (h : e.isBinary = false) :
    e.replace foldPair? = e.mapChildren fun d => d.replace foldPair? := by
  rcases replace_cases e with ⟨c, hpair, -⟩ | ⟨hbinary, -⟩ | ⟨-, hwalk⟩
  · rw [hpair.isBinary] at h
    cases h
  · rw [hbinary] at h
    cases h
  · exact hwalk

/-- A pair has one value. -/
theorem PairAt.unique {c' : Constant} {p : List Nat} (h : e.PairAt p c) (h' : e.PairAt p c') :
    c = c' := by
  obtain ⟨-, op, a, b, hat, -, hvalue⟩ := h
  obtain ⟨-, op', a', b', hat', -, hvalue'⟩ := h'
  rw [hat] at hat'
  cases hat'
  rw [hvalue] at hvalue'
  exact Except.ok.inj hvalue'

/-! ## The pass at all positions -/

/-- A tree is another one in which the pairs have been replaced by their values and nothing else is
changed. -/
structure PairsFolded (e e' : Expr) : Prop where
  /-- Where a pair was, there is its value. -/
  replaced : ∀ p c, e.PairAt p c → e'.at? p = some (.constant c)
  /-- Every node that is neither a pair nor in one is as before. -/
  kept : ∀ p, (∀ q c, q <+: p → ¬e.PairAt q c) → (e'.at? p).map label = (e.at? p).map label
  /-- A binary operator that is not replaced is as before with everything below it. -/
  below : ∀ p op left right, e.at? p = some (.binary op left right) → (∀ c, ¬e.PairAt p c) →
    e'.at? p = some (.binary op left right)

theorem at?_replace_of_pairAt {p : List Nat} (h : e.PairAt p c) :
    (e.replace foldPair?).at? p = some (.constant c) := by
  induction p generalizing e with
  | nil =>
    rcases replace_cases e with ⟨c', hpair, hfold⟩ | ⟨-, hnone, -⟩ | ⟨hbinary, -⟩
    · rw [hfold, at?_nil, h.unique hpair]
    · exact absurd h (hnone c)
    · rw [h.isBinary] at hbinary
      cases hbinary
  | cons i p ih =>
    obtain ⟨child, hchild, hbinary, hpair⟩ := h.exists_child
    rw [replace_of_not_isBinary hbinary, at?_mapChildren_of_child hchild]
    exact ih hpair

theorem label_at?_replace {p : List Nat} (h : ∀ q c, q <+: p → ¬e.PairAt q c) :
    ((e.replace foldPair?).at? p).map label = (e.at? p).map label := by
  induction p generalizing e with
  | nil =>
    rcases replace_cases e with ⟨c, hpair, -⟩ | ⟨-, -, hsame⟩ | ⟨-, hwalk⟩
    · exact absurd hpair (h [] c List.nil_prefix)
    · rw [hsame]
    · rw [hwalk, at?_nil, at?_nil, Option.map_some, Option.map_some, label_mapChildren]
  | cons i p ih =>
    rcases replace_cases e with ⟨c, hpair, -⟩ | ⟨-, -, hsame⟩ | ⟨hbinary, hwalk⟩
    · exact absurd hpair (h [] c List.nil_prefix)
    · rw [hsame]
    · rw [hwalk]
      cases hchild : e.children[i]? with
      | none => rw [at?_cons, at?_cons, children_mapChildren, List.getElem?_map, hchild]; rfl
      | some child =>
        rw [at?_mapChildren_of_child hchild, at?_cons_of_child hchild]
        refine ih fun q c hq hpair => ?_
        exact h (i :: q) c (List.cons_prefix_cons.mpr ⟨rfl, hq⟩)
          ((pairAt_cons_iff hchild q).mpr ⟨hbinary, hpair⟩)

theorem at?_replace_of_not_pairAt {p : List Nat} {op : BinaryOp} {left right : Expr}
    (hat : e.at? p = some (.binary op left right)) (h : ∀ c, ¬e.PairAt p c) :
    (e.replace foldPair?).at? p = some (.binary op left right) := by
  induction p generalizing e with
  | nil =>
    rcases replace_cases e with ⟨c, hpair, -⟩ | ⟨-, -, hsame⟩ | ⟨hbinary, -⟩
    · exact absurd hpair (h c)
    · rw [hsame, hat]
    · cases hat
      cases hbinary
  | cons i p ih =>
    obtain ⟨child, hchild, hbelow⟩ := exists_child_of_at?_cons hat
    rcases replace_cases e with ⟨c, hpair, -⟩ | ⟨-, -, hsame⟩ | ⟨hbinary, hwalk⟩
    · -- below a pair there are only literals
      obtain ⟨op', a, b, rfl, -⟩ := pairAt_nil_iff.mp hpair
      have hliteral : ∃ k, child = .constant k := by
        have hmem := List.mem_of_getElem? hchild
        simp only [children, List.mem_cons, List.not_mem_nil, or_false] at hmem
        exact hmem.elim (fun h => ⟨a, h⟩) fun h => ⟨b, h⟩
      obtain ⟨k, rfl⟩ := hliteral
      cases eq_of_at?_constant hbelow
    · rw [hsame, hat]
    · rw [hwalk, at?_mapChildren_of_child hchild]
      refine ih hbelow fun c hpair => ?_
      exact h c ((pairAt_cons_iff hchild p).mpr ⟨hbinary, hpair⟩)

/-- The pass replaces the pairs and changes nothing else. -/
theorem pairsFolded_replace (e : Expr) : e.PairsFolded (e.replace foldPair?) where
  replaced _ _ := at?_replace_of_pairAt
  kept _ := label_at?_replace
  below _ _ _ _ := at?_replace_of_not_pairAt

/-- Nothing else does that: at each position there is the value of a pair, or nothing because a pair
was above, or the label that was there before. -/
theorem PairsFolded.unique {e₁ e₂ : Expr} (h₁ : e.PairsFolded e₁) (h₂ : e.PairsFolded e₂) :
    e₁ = e₂ := by
  refine ext_labels fun p => ?_
  by_cases h : ∃ q c, q <+: p ∧ e.PairAt q c
  · obtain ⟨q, c, ⟨r, rfl⟩, hpair⟩ := h
    rw [at?_append, at?_append, h₁.replaced q c hpair, h₂.replaced q c hpair]
  · push Not at h
    rw [h₁.kept p h, h₂.kept p h]

/-- After the pass there is no pair.  A binary operator at the root of the result was there before
and was no pair; below any other root it is the children's turn. -/
theorem not_pairAt_replace (e : Expr) (p : List Nat) (c : Constant) :
    ¬(e.replace foldPair?).PairAt p c := by
  induction p generalizing e with
  | nil =>
    intro h
    rcases replace_cases e with ⟨c', -, hfold⟩ | ⟨-, hnone, hsame⟩ | ⟨hbinary, hwalk⟩
    · rw [hfold] at h
      cases h.isBinary
    · rw [hsame] at h
      exact hnone c h
    · rw [← isBinary_congr (label_mapChildren _ e), ← hwalk, h.isBinary] at hbinary
      cases hbinary
  | cons i p ih =>
    intro h
    obtain ⟨child, hchild, hbinary, hpair⟩ := h.exists_child
    rcases replace_cases e with ⟨c', -, hfold⟩ | ⟨hroot, -, hsame⟩ | ⟨-, hwalk⟩
    · rw [hfold] at hchild
      cases hchild
    · rw [hsame, hroot] at hbinary
      cases hbinary
    · rw [hwalk] at hchild
      obtain ⟨d, -, rfl⟩ := exists_of_child_mapChildren hchild
      exact ih d hpair

/-- A second pass changes nothing. -/
theorem replace_replace (e : Expr) :
    (e.replace foldPair?).replace foldPair? = e.replace foldPair? := by
  have hsame : (e.replace foldPair?).PairsFolded (e.replace foldPair?) :=
    ⟨fun p c h => absurd h (not_pairAt_replace e p c), fun _ _ => rfl, fun _ _ _ _ h _ => h⟩
  exact (pairsFolded_replace _).unique hsame

end Expr

/-! ## Scripts -/

theorem Stmt.value_replace (answer : Expr → Option Expr) (t : Stmt) :
    (t.replace answer).value = t.value.replace answer := by
  cases t <;> rfl

theorem Stmt.target?_replace (answer : Expr → Option Expr) (t : Stmt) :
    (t.replace answer).target? = t.target? := by
  cases t <;> rfl

/-- A script is another one, statement by statement, in which the pairs have been replaced by their
values and neither targets nor anything else is changed. -/
def Script.PairsFolded (s s' : Script) : Prop :=
  List.Forall₂ (fun t t' => t'.target? = t.target? ∧ t.value.PairsFolded t'.value) s s'

theorem Script.pairsFolded_foldPairs (s : Script) : s.PairsFolded s.foldPairs := by
  rw [Script.PairsFolded, Script.foldPairs, Script.replace, List.forall₂_map_right_iff,
    List.forall₂_same]
  intro t _
  refine ⟨t.target?_replace _, ?_⟩
  rw [Stmt.value_replace]
  exact t.value.pairsFolded_replace

theorem Script.PairsFolded.eq_foldPairs {s s' : Script} (h : s.PairsFolded s') :
    s' = s.foldPairs := by
  induction h with
  | nil => rfl
  | @cons t t' ts ts' hstmt _ ih =>
    have ht : t' = t.replace foldPair? := by
      refine Stmt.eq_of_target?_of_value ?_ ?_
      · rw [hstmt.1, Stmt.target?_replace]
      · rw [Stmt.value_replace]
        exact hstmt.2.unique t.value.pairsFolded_replace
    rw [ht, ih]
    rfl

/-- **The cheap pass folds exactly the outermost pairs.**  The result is the one script that has
the value of each pair in its place and is otherwise as before: other nodes have the same label in
the same place, a binary operator that is not replaced has all of its operands as they were, and the
targets of assignments are the same.  A second pass changes nothing. -/
theorem pairsFolded_iff_eq_foldPairs (s : Script) :
    (∀ s', s.PairsFolded s' ↔ s' = s.foldPairs) ∧ s.foldPairs.foldPairs = s.foldPairs := by
  refine ⟨fun s' => ⟨Script.PairsFolded.eq_foldPairs, ?_⟩, ?_⟩
  · rintro rfl
    exact s.pairsFolded_foldPairs
  · rw [Script.foldPairs, Script.foldPairs, Script.replace, Script.replace, List.map_map]
    refine List.map_congr_left fun t _ => Stmt.eq_of_target?_of_value ?_ ?_
    · rw [Function.comp_apply, Stmt.target?_replace]
    · rw [Function.comp_apply, Stmt.value_replace, Stmt.value_replace, Expr.replace_replace]

/-- In `f(1 + 2, -(3 * 4)) + (5 - 6)` nothing folds, as a call by itself two pairs do. -/
example :
    let call (a b : Expr) : Expr := .call (.name "f") [a, .unary .neg b]
    let binary (op : BinaryOp) (a b : Int64) : Expr :=
      .binary op (.constant (.int a)) (.constant (.int b))
    let pairs := call (binary .add 1 2) (binary .mul 3 4)
    Script.foldPairs [.expr (.binary .add pairs (binary .sub 5 6)), .expr pairs] =
      [.expr (.binary .add pairs (binary .sub 5 6)),
        .expr (call (.constant (.int 3)) (.constant (.int 12)))] := rfl

end StackScript
