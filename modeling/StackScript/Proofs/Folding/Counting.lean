import Mathlib.Algebra.BigOperators.Ring.List
import Mathlib.Algebra.Ring.Int.Defs
import StackScript.Proofs.Folding.Normal

/-!
# What folding counts, and what it saves

Both passes count as they go.  Here the counts are compared with what can be read off the script
before and after the pass: the number of operators that are gone, the number of pairs that the cheap
pass has to look at, and the number of instructions that are saved.

## Why the counts are exact

A fold replaces an operator over literals by one literal.  So it takes away exactly one operator,
wherever it happens and however much was folded below it before: what was below it has become
literals by then.

For the code it matters which kind of operator it was.  Code has one instruction for each node, so
folding a binary operator saves two and folding a prefix operator one.  Put differently, the
*surplus* of a tree, the number of its nodes less two for each binary and one for each prefix
operator, never changes (`Expr.surplus_foldDeep`, `Expr.surplus_replace`).

## Which nodes have been folded

A pass that only puts literals in the place of nodes leaves every operator that is still there in
its place (`Expr.Trimmed`).  The folded operators of one kind are then those in whose place no
operator of the kind stands any more, and `Expr.lost` counts them.
-/

namespace StackScript

namespace Expr

variable {e e' e'' d : Expr} {c : Constant}

/-! ## Operators that are gone -/

/-- What is gained and what is left make up the whole if they do so for each child. -/
theorem sum_children_mapChildren {f : Expr → Expr} {gain measure : Expr → Nat}
    (h : ∀ d ∈ e.children, gain d + measure (f d) = measure d) :
    (e.children.map gain).sum + ((e.mapChildren f).children.map measure).sum =
      (e.children.map measure).sum := by
  rw [children_mapChildren, List.map_map, ← List.sum_map_add]
  exact congrArg List.sum (List.map_congr_left h)

theorem isOperator_congr (h : e.label = d.label) : e.isOperator = d.isOperator := by
  rw [isOperator, isOperator, isUnary_congr h, isBinary_congr h]

/-- Folding a root takes away one operator. -/
theorem count_isOperator_foldRoot (e : Expr) :
    e.rootValue?.isSome.toNat + e.foldRoot.count isOperator = e.count isOperator := by
  cases h : e.rootValue? with
  | none =>
    rw [foldRoot_of_none h]
    exact Nat.zero_add _
  | some c =>
    rw [foldRoot_of_some h]
    rcases rootValue?_eq_some_iff.mp h with ⟨op, a, rfl, -⟩ | ⟨op, a, b, rfl, -⟩ <;> rfl

/-- The thorough pass counts the operators that it takes away. -/
theorem foldDeep_snd_add_count (e : Expr) :
    e.foldDeep.2 + e.foldDeep.1.count isOperator = e.count isOperator := by
  induction e using ofChildren with
  | node e ih =>
    have hroot := count_isOperator_foldRoot e.foldChildren
    have hchildren : (e.children.map fun d => d.foldDeep.2).sum +
        (e.foldChildren.children.map fun d => d.count isOperator).sum =
          (e.children.map fun d => d.count isOperator).sum :=
      sum_children_mapChildren ih
    have hlabel : e.foldChildren.isOperator = e.isOperator :=
      isOperator_congr (label_mapChildren _ e)
    rw [count_eq isOperator e.foldChildren, hlabel] at hroot
    rw [foldDeep_fst, foldDeep_snd, count_eq isOperator e]
    omega

/-! ## Pairs of the cheap pass -/

/-- Whether a node is a sum, difference, product or quotient of two literals. -/
def isPair : Expr → Bool
  | .binary op left right =>
      decide (op ∈ [BinaryOp.add, .sub, .mul, .div]) && left.constant?.isSome &&
        right.constant?.isSome
  | _ => false

/-- The number of sums, differences, products and quotients of two literals that are below no binary
operator. -/
def pairs (e : Expr) : Nat :=
  e.positions.countP fun p => (e.at? p).any isPair && (e.above p).all fun d => !d.isBinary

theorem pairs_of_isBinary (h : e.isBinary = true) : e.pairs = e.isPair.toNat := by
  have hbelow : ∀ i d, e.children[i]? = some d → ∀ p,
      ((e.at? (i :: p)).any isPair && (e.above (i :: p)).all fun d => !d.isBinary) = false := by
    intro i d hd p
    rw [above_cons_of_child hd, List.all_cons, h, Bool.not_true, Bool.false_and, Bool.and_false]
  rw [pairs, countP_positions hbelow]
  simp [at?_nil]

theorem pairs_of_not_isBinary (h : e.isBinary = false) :
    e.pairs = (e.children.map pairs).sum := by
  have hbelow : ∀ i d, e.children[i]? = some d → ∀ p,
      ((e.at? (i :: p)).any isPair && (e.above (i :: p)).all fun d => !d.isBinary) =
        ((d.at? p).any isPair && (d.above p).all fun d => !d.isBinary) := by
    intro i d hd p
    rw [above_cons_of_child hd, at?_cons_of_child hd, List.all_cons, h, Bool.not_false,
      Bool.true_and]
  have hroot : e.isPair = false := by
    cases e with
    | constant | name | unary | call => rfl
    | binary => cases h
  rw [pairs, countP_positions hbelow, at?_nil, Option.any_some, hroot]
  exact Nat.zero_add _

theorem countPairsAll_snd (es : List Expr) :
    (countPairsAll es).2.folded = (es.map fun e => e.countPairs.2.folded).sum ∧
      (countPairsAll es).2.abandoned = (es.map fun e => e.countPairs.2.abandoned).sum := by
  induction es with
  | nil => exact ⟨rfl, rfl⟩
  | cons e es ih =>
    rw [List.map_cons, List.map_cons, List.sum_cons, List.sum_cons, ← ih.1, ← ih.2]
    exact ⟨rfl, rfl⟩

/-- Where the cheap pass goes on, its counts are those of the children. -/
theorem countPairs_snd_of_not_isBinary (h : e.isBinary = false) :
    e.countPairs.2.folded = (e.children.map fun d => d.countPairs.2.folded).sum ∧
      e.countPairs.2.abandoned = (e.children.map fun d => d.countPairs.2.abandoned).sum := by
  cases e with
  | constant | name | unary => exact ⟨rfl, rfl⟩
  | binary => cases h
  | call callee arguments =>
    obtain ⟨hfolded, habandoned⟩ := countPairsAll_snd arguments
    rw [children, List.map_cons, List.map_cons, List.sum_cons, List.sum_cons, ← hfolded,
      ← habandoned]
    exact ⟨rfl, rfl⟩

/-- Where it stops, it counts a pair, as folded or as abandoned, and nothing else. -/
theorem countPairs_snd_of_isBinary (h : e.isBinary = true) :
    e.countPairs.2.folded + e.countPairs.2.abandoned = e.isPair.toNat := by
  obtain ⟨op, left, right, rfl⟩ := exists_of_isBinary h
  have hpair : (Expr.binary op left right).isPair =
      (op.isPlain && left.constant?.isSome && right.constant?.isSome) := by
    cases op <;> rfl
  simp only [hpair, countPairs, Pair.inspect]
  cases op.isPlain with
  | false => rfl
  | true =>
    cases left.constant? with
    | none => rfl
    | some a =>
      cases right.constant? with
      | none => rfl
      | some b => cases hvalue : Arithmetic.binary op a b <;> simp [hvalue]

/-- A fold takes away the one operator that it counts. -/
theorem folded_add_count_of_isBinary (h : e.isBinary = true) :
    e.countPairs.2.folded + (e.replace foldPair?).count isOperator = e.count isOperator := by
  obtain ⟨op, left, right, rfl⟩ := exists_of_isBinary h
  simp only [countPairs, replace, foldPair?]
  cases hinspect : Pair.inspect op left right with
  | value c =>
    obtain ⟨-, a, b, rfl, rfl, -⟩ := Pair.inspect_eq_value_iff.mp hinspect
    rfl
  | other | stuck => exact Nat.zero_add _

/-- The cheap pass counts the pairs: each is folded or abandoned. -/
theorem countPairs_snd_eq_pairs (e : Expr) :
    e.countPairs.2.folded + e.countPairs.2.abandoned = e.pairs := by
  induction e using ofChildren with
  | node e ih =>
    cases h : e.isBinary with
    | true => rw [pairs_of_isBinary h, countPairs_snd_of_isBinary h]
    | false =>
      obtain ⟨hfolded, habandoned⟩ := countPairs_snd_of_not_isBinary h
      rw [pairs_of_not_isBinary h, hfolded, habandoned, ← List.sum_map_add]
      exact congrArg List.sum (List.map_congr_left ih)

/-- The cheap pass counts the operators that it takes away. -/
theorem folded_add_count (e : Expr) :
    e.countPairs.2.folded + (e.replace foldPair?).count isOperator = e.count isOperator := by
  induction e using ofChildren with
  | node e ih =>
    cases h : e.isBinary with
    | true => exact folded_add_count_of_isBinary h
    | false =>
      have hchildren : (e.children.map fun d => d.countPairs.2.folded).sum +
          ((e.mapChildren fun d => d.replace foldPair?).children.map fun d =>
            d.count isOperator).sum = (e.children.map fun d => d.count isOperator).sum :=
        sum_children_mapChildren ih
      have hlabel : (e.mapChildren fun d => d.replace foldPair?).isOperator = e.isOperator :=
        isOperator_congr (label_mapChildren _ e)
      rw [(countPairs_snd_of_not_isBinary h).1, replace_of_not_isBinary h, count_eq, hlabel,
        count_eq isOperator e]
      omega

/-! ## The surplus -/

/-- The number of nodes less two for each binary and one for each prefix operator. -/
def surplus (e : Expr) : Int :=
  e.size - 2 * e.count isBinary - e.count isUnary

theorem surplus_eq (e : Expr) :
    e.surplus = 1 - 2 * e.isBinary.toNat - e.isUnary.toNat + (e.children.map surplus).sum := by
  have hsum : ∀ es : List Expr, (es.map surplus).sum = ((es.map size).sum : Int) -
      2 * (es.map fun d => d.count isBinary).sum - (es.map fun d => d.count isUnary).sum := by
    intro es
    induction es with
    | nil => rfl
    | cons e es ih =>
      simp only [List.map_cons, List.sum_cons, ih, surplus]
      omega
  rw [hsum, surplus, size_eq, count_eq isBinary, count_eq isUnary]
  omega

theorem surplus_mapChildren {f : Expr → Expr} (h : ∀ d ∈ e.children, (f d).surplus = d.surplus) :
    (e.mapChildren f).surplus = e.surplus := by
  rw [surplus_eq, surplus_eq e, children_mapChildren, List.map_map,
    List.map_congr_left (f := surplus ∘ f) h, isBinary_congr (label_mapChildren f e),
    isUnary_congr (label_mapChildren f e)]

theorem surplus_foldRoot (e : Expr) : e.foldRoot.surplus = e.surplus := by
  cases h : e.rootValue? with
  | none => rw [foldRoot_of_none h]
  | some c =>
    rw [foldRoot_of_some h]
    rcases rootValue?_eq_some_iff.mp h with ⟨op, a, rfl, -⟩ | ⟨op, a, b, rfl, -⟩ <;> rfl

theorem surplus_foldDeep (e : Expr) : e.foldDeep.1.surplus = e.surplus := by
  induction e using ofChildren with
  | node e ih =>
    rw [foldDeep_fst, surplus_foldRoot]
    exact surplus_mapChildren ih

theorem surplus_replace (e : Expr) : (e.replace foldPair?).surplus = e.surplus := by
  induction e using ofChildren with
  | node e ih =>
    rcases replace_cases e with ⟨c, hpair, hfold⟩ | ⟨-, -, hsame⟩ | ⟨-, hwalk⟩
    · obtain ⟨op, a, b, rfl, -⟩ := pairAt_nil_iff.mp hpair
      rw [hfold]
      rfl
    · rw [hsame]
    · rw [hwalk]
      exact surplus_mapChildren ih

/-! ## Operators in their places -/

/-- Every node of the second tree that is not a literal is one of the first tree, in the same
place. -/
def Trimmed (e e' : Expr) : Prop :=
  ∀ p d', e'.at? p = some d' → (∃ c, d' = .constant c) ∨ ∃ d, e.at? p = some d ∧ d.label = d'.label

theorem Trimmed.refl (e : Expr) : e.Trimmed e :=
  fun _ d hat => .inr ⟨d, hat, rfl⟩

theorem Trimmed.trans (h : e.Trimmed e') (h' : e'.Trimmed e'') : e.Trimmed e'' := by
  intro p d'' hat''
  rcases h' p d'' hat'' with hliteral | ⟨d', hat', hlabel'⟩
  · exact .inl hliteral
  · rcases h p d' hat' with ⟨c, rfl⟩ | ⟨d, hat, hlabel⟩
    · exact .inl ⟨c, eq_constant_of_label hlabel'.symm⟩
    · exact .inr ⟨d, hat, hlabel.trans hlabel'⟩

theorem trimmed_replace (e : Expr) : e.Trimmed (e.replace foldPair?) := by
  intro p d' hat'
  by_cases h : ∃ q c, q <+: p ∧ e.PairAt q c
  · obtain ⟨q, c, ⟨r, rfl⟩, hpair⟩ := h
    rw [at?_append, at?_replace_of_pairAt hpair, Option.bind_some] at hat'
    exact .inl ⟨c, eq_of_at?_constant hat'⟩
  · push Not at h
    have hlabel := label_at?_replace h
    rw [hat', Option.map_some, eq_comm, Option.map_eq_some_iff] at hlabel
    exact .inr hlabel

theorem trimmed_foldDeep (e : Expr) : e.Trimmed e.foldDeep.1 := by
  intro p
  induction p generalizing e with
  | nil =>
    intro d' hat'
    obtain rfl := Option.some_inj.mp hat'
    rcases foldDeep_cases e with ⟨c, -, hfold⟩ | ⟨-, hfold⟩
    · exact .inl ⟨c, hfold⟩
    · exact .inr ⟨e, rfl, by rw [hfold, foldChildren, label_mapChildren]⟩
  | cons i p ih =>
    intro d' hat'
    obtain ⟨child, hchild, hbelow⟩ := exists_child_of_at?_cons hat'
    rcases foldDeep_cases e with ⟨c, -, hfold⟩ | ⟨-, hfold⟩
    · rw [hfold] at hchild
      cases hchild
    · rw [hfold] at hchild
      obtain ⟨d, hd, rfl⟩ := exists_of_child_mapChildren hchild
      rcases ih d d' hbelow with hliteral | ⟨u, hat, hlabel⟩
      · exact .inl hliteral
      · exact .inr ⟨u, by rw [at?_cons_of_child hd, hat], hlabel⟩

/-- Operators of a kind are lost and not gained. -/
theorem Trimmed.lost_add_count {test : Expr → Bool} (h : e.Trimmed e')
    (hlabel : ∀ d d' : Expr, d.label = d'.label → test d = test d')
    (hconstant : ∀ c, test (.constant c) = false) :
    e.lost test e' + e'.count test = e.count test := by
  refine Expr.lost_add_count fun p hp => ?_
  obtain ⟨d', hat', htest⟩ := (Option.any_eq_true test _).mp hp
  rcases h p d' hat' with ⟨c, rfl⟩ | ⟨d, hat, hsame⟩
  · rw [hconstant] at htest
    cases htest
  · rw [hat, Option.any_some, hlabel d d' hsame, htest]

/-! ## Folded operators -/

/-- What folding makes of a tree: operators are lost and not gained, and the surplus stays. -/
structure Shrunk (e e' : Expr) : Prop where
  /-- What is not a literal was there before. -/
  trimmed : e.Trimmed e'
  /-- Nodes and operators are lost together. -/
  surplus_eq : e'.surplus = e.surplus

namespace Shrunk

theorem refl (e : Expr) : e.Shrunk e :=
  ⟨.refl e, rfl⟩

theorem trans (h : e.Shrunk e') (h' : e'.Shrunk e'') : e.Shrunk e'' :=
  ⟨h.trimmed.trans h'.trimmed, h'.surplus_eq.trans h.surplus_eq⟩

theorem lost_isBinary_add (h : e.Shrunk e') :
    e.lost isBinary e' + e'.count isBinary = e.count isBinary :=
  h.trimmed.lost_add_count (fun _ _ => isBinary_congr) fun _ => rfl

theorem lost_isUnary_add (h : e.Shrunk e') :
    e.lost isUnary e' + e'.count isUnary = e.count isUnary :=
  h.trimmed.lost_add_count (fun _ _ => isUnary_congr) fun _ => rfl

/-- Two nodes are saved for each binary operator that is lost and one for each prefix operator. -/
theorem size_add_lost (h : e.Shrunk e') :
    e'.size + (2 * e.lost isBinary e' + e.lost isUnary e') = e.size := by
  have hsurplus := h.surplus_eq
  have hbinary := h.lost_isBinary_add
  have hunary := h.lost_isUnary_add
  rw [surplus, surplus] at hsurplus
  omega

end Shrunk

theorem shrunk_replace (e : Expr) : e.Shrunk (e.replace foldPair?) :=
  ⟨e.trimmed_replace, e.surplus_replace⟩

theorem shrunk_foldDeep (e : Expr) : e.Shrunk e.foldDeep.1 :=
  ⟨e.trimmed_foldDeep, e.surplus_foldDeep⟩

theorem count_isOperator (e : Expr) : e.count isOperator = e.count isUnary + e.count isBinary := by
  induction e using ofChildren with
  | node e ih =>
    have hroot : e.isOperator.toNat = e.isUnary.toNat + e.isBinary.toNat := by
      cases e <;> rfl
    have hchildren : (e.children.map fun d => d.count isOperator).sum =
        (e.children.map fun d => d.count isUnary).sum +
          (e.children.map fun d => d.count isBinary).sum := by
      rw [← List.sum_map_add]
      exact congrArg List.sum (List.map_congr_left ih)
    rw [count_eq, count_eq isUnary, count_eq isBinary, hroot, hchildren]
    omega

/-- The cheap pass folds no prefix operator, and below what it folds there is none. -/
theorem count_isUnary_replace (e : Expr) :
    (e.replace foldPair?).count isUnary = e.count isUnary := by
  induction e using ofChildren with
  | node e ih =>
    rcases replace_cases e with ⟨c, hpair, hfold⟩ | ⟨-, -, hsame⟩ | ⟨-, hwalk⟩
    · obtain ⟨op, a, b, rfl, -⟩ := pairAt_nil_iff.mp hpair
      rw [hfold]
      rfl
    · rw [hsame]
    · have hchildren : (e.children.map fun d => (d.replace foldPair?).count isUnary) =
          e.children.map fun d => d.count isUnary := List.map_congr_left ih
      rw [hwalk, count_eq, count_eq isUnary e, isUnary_congr (label_mapChildren _ e),
        children_mapChildren, List.map_map, ← hchildren]
      rfl

/-- What the cheap pass counts as folded are the binary operators that are lost. -/
theorem lost_replace (e : Expr) :
    e.lost isBinary (e.replace foldPair?) = e.countPairs.2.folded ∧
      e.lost isUnary (e.replace foldPair?) = 0 := by
  have hfolded := e.folded_add_count
  have hunary := e.count_isUnary_replace
  have hlostBinary := e.shrunk_replace.lost_isBinary_add
  have hlostUnary := e.shrunk_replace.lost_isUnary_add
  rw [count_isOperator, count_isOperator] at hfolded
  omega

/-- What the thorough pass counts are the operators of both kinds that are lost. -/
theorem lost_foldDeep (e : Expr) :
    e.lost isBinary e.foldDeep.1 + e.lost isUnary e.foldDeep.1 = e.foldDeep.2 := by
  have hfolded := e.foldDeep_snd_add_count
  have hlostBinary := e.shrunk_foldDeep.lost_isBinary_add
  have hlostUnary := e.shrunk_foldDeep.lost_isUnary_add
  rw [count_isOperator, count_isOperator] at hfolded
  omega

end Expr

/-! ## The length of code -/

namespace Lower

variable {filename : String}

mutual

/-- The code of an expression has one instruction for each node. -/
theorem length_of_expr : ∀ {e : Expr} {t t' : Tables} {code : List Instr},
    expr filename t e = .ok (code, t') → code.length = e.size
  | .constant _, _, _, _, h => by
      obtain ⟨i, -, rfl⟩ := expr_constant_iff.mp h
      rfl
  | .name _, _, _, _, h => by
      obtain ⟨i, -, rfl⟩ := expr_name_iff.mp h
      rfl
  | .unary _ e, _, _, _, h => by
      obtain ⟨code₁, h₁, rfl⟩ := expr_unary_iff.mp h
      have hoperand := length_of_expr h₁
      rw [List.length_append, hoperand, Expr.size_eq (.unary _ e)]
      exact Nat.add_comm _ _
  | .binary _ e₁ e₂, _, _, _, h => by
      obtain ⟨code₁, t₁, code₂, h₁, h₂, rfl⟩ := expr_binary_iff.mp h
      have hleft := length_of_expr h₁
      have hright := length_of_expr h₂
      rw [List.length_append, List.length_append, hleft, hright, Expr.size_eq (.binary _ e₁ e₂)]
      exact Nat.add_comm _ _
  | .call e es, _, _, _, h => by
      obtain ⟨code₁, t₁, code₂, n, h₁, h₂, -, rfl⟩ := expr_call_iff.mp h
      have hcallee := length_of_expr h₁
      have harguments := length_of_exprs h₂
      rw [List.length_append, List.length_append, hcallee, harguments, Expr.size_eq (.call e es),
        Expr.children, List.map_cons, List.sum_cons]
      exact Nat.add_comm _ _

theorem length_of_exprs : ∀ {es : List Expr} {t t' : Tables} {code : List Instr},
    exprs filename t es = .ok (code, t') → code.length = (es.map Expr.size).sum
  | [], _, _, _, h => by
      obtain ⟨rfl, -⟩ := exprs_nil_iff.mp h
      rfl
  | e :: es, _, _, _, h => by
      obtain ⟨code₁, t₁, code₂, h₁, h₂, rfl⟩ := exprs_cons_iff.mp h
      rw [List.length_append, length_of_expr h₁, length_of_exprs h₂, List.map_cons, List.sum_cons]

end

variable {t t' : Tables} {code : List Instr}

theorem length_of_stmt {u : Stmt} (h : stmt filename t u = .ok (code, t')) :
    code.length = u.value.size + 1 := by
  cases u with
  | assign target value =>
    obtain ⟨code₁, t₁, i, h₁, -, rfl⟩ := stmt_assign_iff.mp h
    rw [List.length_append, length_of_expr h₁]
    rfl
  | expr value =>
    obtain ⟨code₁, h₁, rfl⟩ := stmt_expr_iff.mp h
    rw [List.length_append, length_of_expr h₁]
    rfl

theorem length_of_stmts {us : List Stmt} (h : stmts filename t us = .ok (code, t')) :
    code.length = (us.map fun u => u.value.size).sum + us.length := by
  induction us generalizing t code with
  | nil =>
    obtain ⟨rfl, -⟩ := stmts_nil_iff.mp h
    rfl
  | cons u us ih =>
    obtain ⟨code₁, t₁, code₂, h₁, h₂, rfl⟩ := stmts_cons_iff.mp h
    rw [List.length_append, length_of_stmt h₁, ih h₂, List.map_cons, List.sum_cons,
      List.length_cons]
    omega

end Lower

/-- The code of a script has one instruction for each node, one for each statement and two at the
end. -/
theorem Script.length_of_lower {filename : String} {s : Script} {c : Code}
    (h : s.lower filename = .ok c) :
    c.length = (s.map fun t => t.value.size).sum + s.length + 2 := by
  obtain ⟨code, t, i, hcode, -, -, hc⟩ := Lower.lower_iff.mp h
  rw [Code.length, hc, List.length_append, Lower.length_of_stmts hcode]
  rfl

/-! ## Scripts -/

namespace Script

/-- The number of nodes of a script that satisfy a test. -/
def count (test : Expr → Bool) (s : Script) : Nat :=
  (s.map fun t => t.value.count test).sum

/-- The number of sums, differences, products and quotients of two literals in a script that are
below no binary operator. -/
def pairs (s : Script) : Nat :=
  (s.map fun t => t.value.pairs).sum

/-- The number of nodes of a script that satisfy a test and in whose place in another script there
is none that does. -/
def lost (test : Expr → Bool) (s s' : Script) : Nat :=
  (List.zipWith (fun t t' => t.value.lost test t'.value) s s').sum

variable {s : Script} {f : Stmt → Stmt}

theorem lost_map (test : Expr → Bool) (s : Script) (f : Stmt → Stmt) :
    s.lost test (s.map f) = (s.map fun t => t.value.lost test (f t).value).sum := by
  rw [lost, List.zipWith_map_right, List.zipWith_self]

theorem count_map (test : Expr → Bool) (s : Script) (f : Stmt → Stmt) :
    Script.count test (s.map f) = (s.map fun t => (f t).value.count test).sum := by
  rw [Script.count, List.map_map]
  rfl

theorem countPairs_snd (s : Script) :
    s.countPairs.2.folded = (s.map fun t => t.value.countPairs.2.folded).sum ∧
      s.countPairs.2.abandoned = (s.map fun t => t.value.countPairs.2.abandoned).sum := by
  induction s with
  | nil => exact ⟨rfl, rfl⟩
  | cons t ts ih =>
    rw [List.map_cons, List.map_cons, List.sum_cons, List.sum_cons, ← ih.1, ← ih.2]
    cases t <;> exact ⟨rfl, rfl⟩

/-- The cheap pass over a script counts the operators that it takes away. -/
theorem folded_add_count (s : Script) :
    s.countPairs.2.folded + Script.count Expr.isOperator s.countPairs.1 =
      Script.count Expr.isOperator s := by
  rw [countPairs_fst, (countPairs_snd s).1, foldPairs, replace, count_map, ← List.sum_map_add]
  refine congrArg List.sum (List.map_congr_left fun t _ => ?_)
  rw [Stmt.value_replace, Expr.folded_add_count]

theorem folded_add_abandoned (s : Script) :
    s.countPairs.2.folded + s.countPairs.2.abandoned = s.pairs := by
  rw [(countPairs_snd s).1, (countPairs_snd s).2, ← List.sum_map_add]
  exact congrArg List.sum (List.map_congr_left fun t _ => t.value.countPairs_snd_eq_pairs)

/-- The thorough pass over a script counts the operators that it takes away. -/
theorem foldDeep_snd_add_count (s : Script) :
    s.foldDeep.2 + Script.count Expr.isOperator s.foldDeep.1 = Script.count Expr.isOperator s := by
  rw [foldDeep_snd, foldDeep_fst, count_map, ← List.sum_map_add]
  refine congrArg List.sum (List.map_congr_left fun t _ => ?_)
  rw [Stmt.value_foldDeep, Expr.foldDeep_snd_add_count]

theorem lost_countPairs (s : Script) :
    s.lost Expr.isBinary s.countPairs.1 = s.countPairs.2.folded ∧
      s.lost Expr.isUnary s.countPairs.1 = 0 := by
  rw [countPairs_fst, (countPairs_snd s).1, foldPairs, replace, lost_map, lost_map]
  constructor
  · refine congrArg List.sum (List.map_congr_left fun t _ => ?_)
    rw [Stmt.value_replace, (Expr.lost_replace t.value).1]
  · refine List.sum_eq_zero (List.forall_mem_map.mpr fun t _ => ?_)
    rw [Stmt.value_replace, (Expr.lost_replace t.value).2]

theorem lost_foldDeep (s : Script) :
    s.lost Expr.isBinary s.foldDeep.1 + s.lost Expr.isUnary s.foldDeep.1 = s.foldDeep.2 := by
  rw [foldDeep_snd, foldDeep_fst, lost_map, lost_map, ← List.sum_map_add]
  refine congrArg List.sum (List.map_congr_left fun t _ => ?_)
  rw [Stmt.value_foldDeep, Expr.lost_foldDeep]

end Script

theorem Stmt.shrunk_optimize (options : OptimizeOptions) (t : Stmt) :
    t.value.Shrunk (t.optimize options).value := by
  have hcheap : t.value.Shrunk
      (if options.constantFolding then t.replace foldPair? else t).value := by
    split
    · rw [Stmt.value_replace]
      exact t.value.shrunk_replace
    · exact .refl t.value
  rw [Stmt.optimize]
  split
  · rw [Stmt.value_foldDeep]
    exact hcheap.trans (Expr.shrunk_foldDeep _)
  · exact hcheap

/-- Whatever is switched on, two nodes are saved for each binary operator that is lost and one for
each prefix operator. -/
theorem Script.size_optimize_add_lost (options : OptimizeOptions) (s : Script) :
    ((s.optimize options).map fun t => t.value.size).sum +
      (2 * s.lost Expr.isBinary (s.optimize options) +
        s.lost Expr.isUnary (s.optimize options)) = (s.map fun t => t.value.size).sum := by
  have hstmts : s.map (fun t => (t.optimize options).value.size +
      (2 * t.value.lost Expr.isBinary (t.optimize options).value +
        t.value.lost Expr.isUnary (t.optimize options).value)) = s.map fun t => t.value.size :=
    List.map_congr_left fun t _ => (t.shrunk_optimize options).size_add_lost
  have hsum := congrArg List.sum hstmts
  rw [List.sum_map_add, List.sum_map_add, List.sum_map_mul_left] at hsum
  rw [Script.optimize_eq_map, Script.lost_map, Script.lost_map, List.map_map]
  exact hsum

/-- **Folding is counted exactly, and it saves what it counts.**  What the cheap pass counts as
folded is the number of operators of the script less those of the result, and what it counts as
folded or abandoned is the number of sums, differences, products and quotients of two literals with
no binary operator above them.  What the thorough pass counts is the number of operators of the
script less those of the result.  In both cases these are the operators in whose place there is no
such operator any more, for the cheap pass binary ones only.  And whatever is switched on, if the
script and the optimised script can both be lowered, then the code gets shorter by two instructions
for each binary operator that is folded and by one for each prefix operator, and never longer. -/
theorem folding_counted_exactly (s : Script) :
    (s.countPairs.2.folded + Script.count Expr.isOperator s.countPairs.1 =
        Script.count Expr.isOperator s ∧
      s.countPairs.2.folded + s.countPairs.2.abandoned = s.pairs ∧
      s.lost Expr.isBinary s.countPairs.1 = s.countPairs.2.folded ∧
      s.lost Expr.isUnary s.countPairs.1 = 0) ∧
    (s.foldDeep.2 + Script.count Expr.isOperator s.foldDeep.1 =
        Script.count Expr.isOperator s ∧
      s.lost Expr.isBinary s.foldDeep.1 + s.lost Expr.isUnary s.foldDeep.1 = s.foldDeep.2) ∧
    ∀ options filename c c', s.lower filename = .ok c →
      s.compile options filename = .ok c' →
        c'.length + (2 * s.lost Expr.isBinary (s.optimize options) +
          s.lost Expr.isUnary (s.optimize options)) = c.length ∧ c'.length ≤ c.length := by
  refine ⟨⟨s.folded_add_count, s.folded_add_abandoned, s.lost_countPairs⟩,
    ⟨s.foldDeep_snd_add_count, s.lost_foldDeep⟩, ?_⟩
  intro options filename c c' h h'
  have hlength := Script.length_of_lower h
  have hlength' := Script.length_of_lower (Script.lower_optimize_of_compile h')
  have hsize := s.size_optimize_add_lost options
  have hsame : (s.optimize options).length = s.length := by
    rw [Script.optimize_eq_map, List.length_map]
  omega

/-- The statements `-(1 + 2)` and `1 / 0`. -/
def Script.signedAndStuck : Script :=
  [.expr (.unary .neg (.binary .add (.constant (.int 1)) (.constant (.int 2)))),
    .expr (.binary .div (.constant (.int 1)) (.constant (.int 0)))]

/-- The thorough pass folds one operator of each kind there, and the code is shorter by three. -/
theorem folding_counted_exactly_signed :
    ∃ c c', Script.signedAndStuck.lower "t" = .ok c ∧
      Script.signedAndStuck.compile ⟨false, true, true⟩ "t" = .ok c' ∧
      Script.signedAndStuck.foldDeep.2 = 2 ∧ c'.length + 3 = c.length := by
  have h : ∃ c, Script.signedAndStuck.lower "t" = .ok c := ⟨_, rfl⟩
  have h' : ∃ c', Script.signedAndStuck.compile ⟨false, true, true⟩ "t" = .ok c' := ⟨_, rfl⟩
  obtain ⟨c, hc⟩ := h
  obtain ⟨c', hc'⟩ := h'
  obtain ⟨-, -, hcode⟩ := folding_counted_exactly Script.signedAndStuck
  exact ⟨c, c', hc, hc', rfl, (hcode _ _ _ _ hc hc').1⟩

end StackScript
