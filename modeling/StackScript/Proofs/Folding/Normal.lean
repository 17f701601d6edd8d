import StackScript.Proofs.Folding.Outermost

/-!
# What the thorough pass leaves

The thorough pass works from the inside out: it folds the children of a node and then looks at the
node (`Expr.foldDeep_fst`).  So everything it says about a tree can be said about one node whose
children are done, and about the root of that node only (`Expr.foldRoot`).

* The result is *normal*: no operator is left that has literals for operands and a value
  (`Expr.normal_foldDeep`).  Where the walk comes back to a node, the children of the node are
  normal already, and folding the root puts a literal there or finds that there is no value.
* A normal tree stays as it is and nothing is counted (`Expr.foldDeep_of_normal`); a second pass
  therefore does nothing.
* The thorough pass does not see whether the cheap one has gone before (`Expr.foldDeep_replace`).
  A pair that the cheap pass folds is folded by the thorough one as well, to the same value, and the
  cheap pass touches nothing else.  An operation without a value stays under both, with all that is
  above it.
-/

namespace StackScript

namespace Expr

/-! ## One node -/

/-- The value of an operator whose operands are literals. -/
def rootValue? : Expr → Option Constant
  | .unary op operand =>
      operand.constant?.bind fun a => (Arithmetic.unary op a).toOption
  | .binary op left right =>
      left.constant?.bind fun a => right.constant?.bind fun b =>
        (Arithmetic.binary op a b).toOption
  | _ => none

/-- An operator over literals becomes its value if it has one. -/
def foldRoot (e : Expr) : Expr :=
  match e.rootValue? with
  | some c => .constant c
  | none => e

variable {e d : Expr} {c : Constant}

theorem toOption_eq_some_iff {r : Except ArithmeticError Constant} :
    r.toOption = some c ↔ r = .ok c := by
  cases r <;> simp [Except.toOption]

theorem rootValue?_eq_some_iff : e.rootValue? = some c ↔
    (∃ op a, e = .unary op (.constant a) ∧ Arithmetic.unary op a = .ok c) ∨
    ∃ op a b, e = .binary op (.constant a) (.constant b) ∧ Arithmetic.binary op a b = .ok c := by
  constructor
  · intro h
    cases e with
    | constant | name | call => cases h
    | unary op operand =>
      obtain ⟨a, ha, hvalue⟩ := Option.bind_eq_some_iff.mp h
      refine .inl ⟨op, a, by rw [eq_constant_of_constant? ha], ?_⟩
      exact toOption_eq_some_iff.mp hvalue
    | binary op left right =>
      obtain ⟨a, ha, hright⟩ := Option.bind_eq_some_iff.mp h
      obtain ⟨b, hb, hvalue⟩ := Option.bind_eq_some_iff.mp hright
      refine .inr ⟨op, a, b, by rw [eq_constant_of_constant? ha, eq_constant_of_constant? hb], ?_⟩
      exact toOption_eq_some_iff.mp hvalue
  · rintro (⟨op, a, rfl, hvalue⟩ | ⟨op, a, b, rfl, hvalue⟩) <;>
      simp [rootValue?, constant?, hvalue, Except.toOption]

theorem foldRoot_of_some (h : e.rootValue? = some c) : e.foldRoot = .constant c := by
  rw [foldRoot, h]

theorem foldRoot_of_none (h : e.rootValue? = none) : e.foldRoot = e := by
  rw [foldRoot, h]

theorem foldUnary_eq (op : UnaryOp) (operand : Expr) :
    foldUnary op operand =
      ((Expr.unary op operand).foldRoot, (Expr.unary op operand).rootValue?.isSome.toNat) := by
  simp only [foldUnary, foldRoot, rootValue?]
  cases operand.constant? with
  | none => rfl
  | some a => cases h : Arithmetic.unary op a <;> simp [Except.toOption, h]

theorem foldBinary_eq (op : BinaryOp) (left right : Expr) :
    foldBinary op left right =
      ((Expr.binary op left right).foldRoot,
        (Expr.binary op left right).rootValue?.isSome.toNat) := by
  simp only [foldBinary, foldRoot, rootValue?]
  cases left.constant? with
  | none => rfl
  | some a =>
    cases right.constant? with
    | none => rfl
    | some b => cases h : Arithmetic.binary op a b <;> simp [Except.toOption, h]

/-! ## The pass, children first -/

/-- A node whose children have been folded. -/
def foldChildren (e : Expr) : Expr :=
  e.mapChildren fun d => d.foldDeep.1

theorem foldDeepAll_eq (es : List Expr) :
    foldDeepAll es = (es.map fun e => e.foldDeep.1, (es.map fun e => e.foldDeep.2).sum) := by
  induction es with
  | nil => rfl
  | cons e es ih => rw [foldDeepAll, ih, List.map_cons, List.map_cons, List.sum_cons]

/-- The children are folded, and then the root. -/
theorem foldDeep_fst (e : Expr) : e.foldDeep.1 = e.foldChildren.foldRoot := by
  cases e with
  | constant | name => rfl
  | unary op operand => simp only [foldDeep, foldUnary_eq, foldChildren, mapChildren]
  | binary op left right => simp only [foldDeep, foldBinary_eq, foldChildren, mapChildren]
  | call callee arguments =>
    rw [foldDeep, foldDeepAll_eq, foldChildren, mapChildren]
    rfl

/-- What is counted is what is counted below, and one more if the root folds. -/
theorem foldDeep_snd (e : Expr) :
    e.foldDeep.2 =
      (e.children.map fun d => d.foldDeep.2).sum + e.foldChildren.rootValue?.isSome.toNat := by
  cases e with
  | constant | name => rfl
  | unary op operand =>
    simp only [foldDeep, foldUnary_eq, foldChildren, mapChildren, children]
    rfl
  | binary op left right =>
    simp only [foldDeep, foldBinary_eq, foldChildren, mapChildren, children]
    rfl
  | call callee arguments =>
    rw [foldDeep, foldDeepAll_eq]
    rfl

/-- **One node of the pass**: once its children are folded it is a literal, or stays over them. -/
theorem foldDeep_cases (e : Expr) :
    (∃ c, e.foldChildren.rootValue? = some c ∧ e.foldDeep.1 = .constant c) ∨
      (e.foldChildren.rootValue? = none ∧ e.foldDeep.1 = e.foldChildren) := by
  rw [foldDeep_fst]
  cases h : e.foldChildren.rootValue? with
  | none => exact .inr ⟨rfl, foldRoot_of_none h⟩
  | some c => exact .inl ⟨c, rfl, foldRoot_of_some h⟩

/-! ## Normal trees -/

/-- No operator of a tree has literals for operands and a value. -/
structure Normal (e : Expr) : Prop where
  /-- Binary operators between two literals have no value. -/
  binary : ∀ p op a b, e.at? p = some (.binary op (.constant a) (.constant b)) →
    ∀ c, Arithmetic.binary op a b ≠ .ok c
  /-- Prefix operators before a literal have no value. -/
  unary : ∀ p op a, e.at? p = some (.unary op (.constant a)) →
    ∀ c, Arithmetic.unary op a ≠ .ok c

/-- A tree is normal if no root of a part of it folds. -/
theorem normal_iff : e.Normal ↔ ∀ p d, e.at? p = some d → d.rootValue? = none := by
  constructor
  · intro h p d hat
    by_contra hvalue
    obtain ⟨c, hc⟩ := Option.ne_none_iff_exists'.mp hvalue
    rcases rootValue?_eq_some_iff.mp hc with ⟨op, a, rfl, hok⟩ | ⟨op, a, b, rfl, hok⟩
    · exact h.unary p op a hat c hok
    · exact h.binary p op a b hat c hok
  · intro h
    refine ⟨fun p op a b hat c hok => ?_, fun p op a hat c hok => ?_⟩
    · have hvalue := rootValue?_eq_some_iff.mpr (.inr ⟨op, a, b, rfl, hok⟩)
      rw [h p _ hat] at hvalue
      cases hvalue
    · have hvalue := rootValue?_eq_some_iff.mpr (.inl ⟨op, a, rfl, hok⟩)
      rw [h p _ hat] at hvalue
      cases hvalue

theorem Normal.child (h : e.Normal) (hd : d ∈ e.children) : d.Normal := by
  obtain ⟨i, hi⟩ := List.getElem?_of_mem hd
  rw [normal_iff] at h ⊢
  intro p d' hat
  exact h (i :: p) d' (by rw [at?_cons_of_child hi, hat])

/-- The thorough pass makes a tree normal. -/
theorem normal_foldDeep (e : Expr) : e.foldDeep.1.Normal := by
  rw [normal_iff]
  intro p
  induction p generalizing e with
  | nil =>
    intro d hat
    obtain rfl := Option.some_inj.mp hat
    rcases foldDeep_cases e with ⟨c, -, hfold⟩ | ⟨hnone, hfold⟩
    · rw [hfold]
      rfl
    · rw [hfold, hnone]
  | cons i p ih =>
    intro d hat
    obtain ⟨child, hchild, hbelow⟩ := exists_child_of_at?_cons hat
    rcases foldDeep_cases e with ⟨c, -, hfold⟩ | ⟨-, hfold⟩
    · rw [hfold] at hchild
      cases hchild
    · rw [hfold] at hchild
      obtain ⟨d', -, rfl⟩ := exists_of_child_mapChildren hchild
      exact ih d' d hbelow

/-- A normal tree stays as it is. -/
theorem foldDeep_of_normal (h : e.Normal) : e.foldDeep = (e, 0) := by
  induction e using ofChildren with
  | node e ih =>
    have hchildren : ∀ d ∈ e.children, d.foldDeep = (d, 0) := fun d hd => ih d hd (h.child hd)
    have hself : e.foldChildren = e := mapChildren_id fun d hd => by rw [hchildren d hd]
    have hroot : e.rootValue? = none := normal_iff.mp h [] e rfl
    have hcount : (e.children.map fun d => d.foldDeep.2).sum = 0 :=
      List.sum_eq_zero (List.forall_mem_map.mpr fun d hd => by rw [hchildren d hd])
    refine Prod.ext ?_ ?_
    · rw [foldDeep_fst, hself, foldRoot_of_none hroot]
    · rw [foldDeep_snd, hself, hroot, hcount]
      rfl

/-! ## After the cheap pass -/

/-- A pair folds to its value in the thorough pass as well. -/
theorem PairAt.foldDeep_eq (h : e.PairAt [] c) : e.foldDeep.1 = .constant c := by
  obtain ⟨op, a, b, rfl, -, hvalue⟩ := pairAt_nil_iff.mp h
  rw [foldDeep_fst]
  exact foldRoot_of_some (rootValue?_eq_some_iff.mpr (.inr ⟨op, a, b, rfl, hvalue⟩))

/-- The thorough pass gives the same with and without the cheap pass before it. -/
theorem foldDeep_replace (e : Expr) : (e.replace foldPair?).foldDeep.1 = e.foldDeep.1 := by
  induction e using ofChildren with
  | node e ih =>
    rcases replace_cases e with ⟨c, hpair, hfold⟩ | ⟨-, -, hsame⟩ | ⟨-, hwalk⟩
    · rw [hfold, hpair.foldDeep_eq]
      rfl
    · rw [hsame]
    · have hchildren : (e.mapChildren fun d => d.replace foldPair?).foldChildren =
          e.foldChildren := by
        rw [foldChildren, mapChildren_mapChildren, foldChildren]
        exact mapChildren_congr fun d hd => ih d hd
      rw [hwalk, foldDeep_fst, hchildren, foldDeep_fst]

end Expr

/-! ## Scripts -/

theorem Stmt.value_foldDeep (t : Stmt) : t.foldDeep.1.value = t.value.foldDeep.1 := by
  cases t <;> rfl

theorem Stmt.target?_foldDeep (t : Stmt) : t.foldDeep.1.target? = t.target? := by
  cases t <;> rfl

theorem Stmt.foldDeep_snd (t : Stmt) : t.foldDeep.2 = t.value.foldDeep.2 := by
  cases t <;> rfl

theorem Script.foldDeep_snd (s : Script) :
    s.foldDeep.2 = (s.map fun t => t.value.foldDeep.2).sum := by
  induction s with
  | nil => rfl
  | cons t ts ih =>
    rw [List.map_cons, List.sum_cons, ← ih, ← Stmt.foldDeep_snd]
    rfl

theorem Script.normal_foldDeep {s : Script} {t : Stmt} (h : t ∈ s.foldDeep.1) :
    t.value.Normal := by
  rw [Script.foldDeep_fst, List.mem_map] at h
  obtain ⟨u, -, rfl⟩ := h
  rw [Stmt.value_foldDeep]
  exact u.value.normal_foldDeep

theorem Script.foldDeep_of_normal {s : Script} (h : ∀ t ∈ s, t.value.Normal) :
    s.foldDeep = (s, 0) := by
  refine Prod.ext ?_ ?_
  · rw [Script.foldDeep_fst]
    calc s.map (fun t => t.foldDeep.1) = s.map id := List.map_congr_left fun t ht =>
          Stmt.eq_of_target?_of_value t.target?_foldDeep
            (by rw [Stmt.value_foldDeep, Expr.foldDeep_of_normal (h t ht), id])
      _ = s := List.map_id s
  · rw [Script.foldDeep_snd]
    exact List.sum_eq_zero
      (List.forall_mem_map.mpr fun t ht => by rw [Expr.foldDeep_of_normal (h t ht)])

theorem Script.foldDeep_foldPairs (s : Script) : s.foldPairs.foldDeep.1 = s.foldDeep.1 := by
  rw [Script.foldDeep_fst, Script.foldDeep_fst, Script.foldPairs, Script.replace, List.map_map]
  refine List.map_congr_left fun t _ => Stmt.eq_of_target?_of_value ?_ ?_
  · rw [Function.comp_apply, Stmt.target?_foldDeep, Stmt.target?_replace, Stmt.target?_foldDeep]
  · rw [Function.comp_apply, Stmt.value_foldDeep, Stmt.value_replace, Stmt.value_foldDeep,
      Expr.foldDeep_replace]

/-- **The thorough pass normalises, and absorbs the cheap one.**  In its result no binary operator
between two literals and no prefix operator before one has a value.  A second pass gives the same
script and counts nothing.  Run after the cheap pass it gives what it gives without it; so with the
thorough pass switched on, the switch of the cheap one makes no difference. -/
theorem foldDeep_normalises (s : Script) :
    (∀ t ∈ s.foldDeep.1, t.value.Normal) ∧
      s.foldDeep.1.foldDeep = (s.foldDeep.1, 0) ∧
      s.foldPairs.foldDeep.1 = s.foldDeep.1 ∧
      ∀ peephole, s.optimize ⟨true, peephole, true⟩ = s.optimize ⟨false, peephole, true⟩ := by
  have hnormal : ∀ t ∈ s.foldDeep.1, t.value.Normal := fun t ht => Script.normal_foldDeep ht
  refine ⟨hnormal, Script.foldDeep_of_normal hnormal, s.foldDeep_foldPairs, fun peephole => ?_⟩
  show s.foldPairs.foldDeep.1 = s.foldDeep.1
  exact s.foldDeep_foldPairs

/-- The statement `(1 + 2) // (3 - 3)`: both operands fold, and the quotient has no value. -/
def Script.stuckQuotient : Script :=
  [.expr (.binary .floorDiv (.binary .add (.constant (.int 1)) (.constant (.int 2)))
    (.binary .sub (.constant (.int 3)) (.constant (.int 3))))]

theorem foldDeep_normalises_stuckQuotient :
    Script.stuckQuotient.foldDeep =
        ([.expr (.binary .floorDiv (.constant (.int 3)) (.constant (.int 0)))], 2) ∧
      (Expr.binary .floorDiv (.constant (.int 3)) (.constant (.int 0))).Normal := by
  have hresult : Script.stuckQuotient.foldDeep =
      ([.expr (.binary .floorDiv (.constant (.int 3)) (.constant (.int 0)))], 2) := rfl
  have hnormal := (foldDeep_normalises Script.stuckQuotient).1
  rw [hresult] at hnormal
  exact ⟨hresult, hnormal _ List.mem_cons_self⟩

end StackScript
