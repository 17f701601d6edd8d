import Mathlib.Algebra.BigOperators.Group.List.Basic
import Mathlib.Algebra.Ring.Nat
import Mathlib.Data.List.Nodup
import StackScript.Script.Tree

/-!
# Positions in a tree

A position is the way from the root of an expression down to one of its nodes: for each step the
number of the child that is entered, counted from zero.  Positions tell apart nodes that look the
same, and they say which node of one tree stands in the place of which node of another.

* `Expr.at?` finds the expression at a position and `Expr.above` the nodes on the way to it.
* `Expr.ext_labels`: a tree is determined by what stands at each position, children apart.
* `Expr.positions` lists the positions of a tree, each once (`mem_positions`, `nodup_positions`), so
  that nodes can be counted; a count is that of the root and those of the children (`count_eq`).
* `Expr.lost` counts the nodes of some kind whose place in another tree is taken by something else.
  If the other tree has nodes of that kind in such places only, what is lost is the difference of
  the two counts (`lost_add_count`).

The arguments of a call are a list, and recursion over a tree comes in pairs of functions.  Most
proofs need not: `Expr.ofChildren` is induction with one case, a node and its children.
-/

namespace StackScript.Expr

/-! ## Children -/

/-- The expressions right below a node, from left to right; the callee of a call comes first. -/
def children : Expr → List Expr
  | .constant _ => []
  | .name _ => []
  | .unary _ operand => [operand]
  | .binary _ left right => [left, right]
  | .call callee arguments => callee :: arguments

/-- What a node is, its children apart. -/
inductive Label where
  | constant (value : Constant)
  | name (word : String)
  | unary (op : UnaryOp)
  | binary (op : BinaryOp)
  | call
  deriving DecidableEq

/-- What the root of an expression is. -/
def label : Expr → Label
  | .constant value => .constant value
  | .name word => .name word
  | .unary op _ => .unary op
  | .binary op _ _ => .binary op
  | .call _ _ => .call

/-- The same node with other children. -/
def mapChildren (f : Expr → Expr) : Expr → Expr
  | .constant value => .constant value
  | .name word => .name word
  | .unary op operand => .unary op (f operand)
  | .binary op left right => .binary op (f left) (f right)
  | .call callee arguments => .call (f callee) (arguments.map f)

mutual

/-- Induction with one case: what holds of a node if it holds of its children holds of all
expressions. -/
@[elab_as_elim]
theorem ofChildren {motive : Expr → Prop}
    (node : ∀ e : Expr, (∀ d ∈ e.children, motive d) → motive e) : ∀ e : Expr, motive e
  | .constant _ => node _ (by simp [children])
  | .name _ => node _ (by simp [children])
  | .unary _ operand => node _ (by simp [children, ofChildren node operand])
  | .binary _ left right =>
      node _ (by simp [children, ofChildren node left, ofChildren node right])
  | .call callee arguments =>
      node _ (by simpa [children, ofChildren node callee] using ofChildrenAll node arguments)

theorem ofChildrenAll {motive : Expr → Prop}
    (node : ∀ e : Expr, (∀ d ∈ e.children, motive d) → motive e) :
    ∀ es : List Expr, ∀ d ∈ es, motive d
  | [] => by simp
  | e :: es => by simpa [ofChildren node e] using ofChildrenAll node es

end

variable {f g : Expr → Expr} {e d : Expr}

@[simp] theorem children_mapChildren (f : Expr → Expr) (e : Expr) :
    (e.mapChildren f).children = e.children.map f := by
  cases e <;> rfl

@[simp] theorem label_mapChildren (f : Expr → Expr) (e : Expr) :
    (e.mapChildren f).label = e.label := by
  cases e <;> rfl

theorem exists_of_child_mapChildren {i : Nat} (h : (e.mapChildren f).children[i]? = some d) :
    ∃ child, e.children[i]? = some child ∧ f child = d := by
  rwa [children_mapChildren, List.getElem?_map, Option.map_eq_some_iff] at h

theorem mapChildren_mapChildren (f g : Expr → Expr) (e : Expr) :
    (e.mapChildren g).mapChildren f = e.mapChildren (f ∘ g) := by
  cases e <;> simp [mapChildren]

theorem mapChildren_congr (h : ∀ d ∈ e.children, f d = g d) :
    e.mapChildren f = e.mapChildren g := by
  cases e <;> simp_all [mapChildren, children]

theorem mapChildren_id (h : ∀ d ∈ e.children, f d = d) : e.mapChildren f = e := by
  rw [mapChildren_congr h]
  cases e <;> simp [mapChildren]

/-- A node is what it is and what is below it. -/
theorem eq_of_label_of_children (hlabel : e.label = d.label) (hchildren : e.children = d.children) :
    e = d := by
  cases e <;> cases d <;> simp_all [label, children]

theorem eq_constant_of_label {c : Constant} (h : e.label = .constant c) : e = .constant c := by
  cases e with
  | constant value =>
    cases h
    rfl
  | name | unary | binary | call => cases h

/-! ## Kinds of node -/

/-- Whether a node is a prefix operator. -/
def isUnary : Expr → Bool
  | .unary _ _ => true
  | _ => false

/-- Whether a node is a binary operator. -/
def isBinary : Expr → Bool
  | .binary _ _ _ => true
  | _ => false

/-- Whether a node is an operator of either kind. -/
def isOperator (e : Expr) : Bool :=
  e.isUnary || e.isBinary

theorem exists_of_isBinary (h : e.isBinary = true) :
    ∃ op left right, e = .binary op left right := by
  cases e with
  | binary op left right => exact ⟨op, left, right, rfl⟩
  | constant | name | unary | call => cases h

theorem isUnary_congr (h : e.label = d.label) : e.isUnary = d.isUnary := by
  cases e <;> cases d <;> first | rfl | cases h

theorem isBinary_congr (h : e.label = d.label) : e.isBinary = d.isBinary := by
  cases e <;> cases d <;> first | rfl | cases h

/-! ## Positions -/

/-- The expression at a position. -/
def at? (e : Expr) : List Nat → Option Expr
  | [] => some e
  | i :: p => e.children[i]?.bind fun d => d.at? p

/-- The nodes above a position, from the root on. -/
def above (e : Expr) : List Nat → List Expr
  | [] => []
  | i :: p => e :: (e.children[i]?.map fun d => d.above p).getD []

@[simp] theorem at?_nil (e : Expr) : e.at? [] = some e := rfl

theorem at?_cons (e : Expr) (i : Nat) (p : List Nat) :
    e.at? (i :: p) = e.children[i]?.bind fun d => d.at? p := rfl

theorem at?_cons_of_child {i : Nat} (h : e.children[i]? = some d) (p : List Nat) :
    e.at? (i :: p) = d.at? p := by
  rw [at?_cons, h, Option.bind_some]

theorem at?_mapChildren_of_child {i : Nat} (h : e.children[i]? = some d) (f : Expr → Expr)
    (p : List Nat) : (e.mapChildren f).at? (i :: p) = (f d).at? p := by
  rw [at?_cons, children_mapChildren, List.getElem?_map, h, Option.map_some, Option.bind_some]

/-- What is at a position below the root is at a position of a child. -/
theorem exists_child_of_at?_cons {i : Nat} {p : List Nat} (h : e.at? (i :: p) = some d) :
    ∃ child, e.children[i]? = some child ∧ child.at? p = some d := by
  rwa [at?_cons, Option.bind_eq_some_iff] at h

theorem eq_of_at?_constant {c : Constant} {p : List Nat} (h : (Expr.constant c).at? p = some d) :
    d = .constant c := by
  cases p with
  | nil =>
    cases h
    rfl
  | cons i p => cases h

@[simp] theorem above_nil (e : Expr) : e.above [] = [] := rfl

theorem above_cons_of_child {i : Nat} (h : e.children[i]? = some d) (p : List Nat) :
    e.above (i :: p) = e :: d.above p := by
  rw [above, h]
  rfl

theorem at?_append (e : Expr) (p q : List Nat) :
    e.at? (p ++ q) = (e.at? p).bind fun d => d.at? q := by
  induction p generalizing e with
  | nil => rfl
  | cons i p ih =>
    rw [List.cons_append, at?_cons, at?_cons]
    cases e.children[i]? with
    | none => rfl
    | some d => exact ih d

/-- A tree is determined by what stands at each position. -/
theorem ext_labels (h : ∀ p, (e.at? p).map label = (d.at? p).map label) : e = d := by
  induction e using ofChildren generalizing d with
  | node e ih =>
    have hlabel : e.label = d.label := Option.some_inj.mp (h [])
    refine eq_of_label_of_children hlabel (List.ext_getElem? fun i => ?_)
    have hbelow : ∀ p, ((e.children[i]?).bind fun e => e.at? p).map label =
        ((d.children[i]?).bind fun d => d.at? p).map label := fun p => h (i :: p)
    cases he : e.children[i]? with
    | none =>
      cases hd : d.children[i]? with
      | none => rfl
      | some d' => simpa [he, hd] using hbelow []
    | some e' =>
      cases hd : d.children[i]? with
      | none => simpa [he, hd] using hbelow []
      | some d' =>
        rw [ih e' (List.mem_of_getElem? he) fun p => ?_]
        simpa [he, hd] using hbelow p

/-! ## All positions -/

mutual

/-- The positions of an expression: the root, and then from left to right what is below it. -/
def positions : Expr → List (List Nat)
  | .constant _ => [[]]
  | .name _ => [[]]
  | .unary _ operand => [] :: operand.positions.map (0 :: ·)
  | .binary _ left right => [] :: (left.positions.map (0 :: ·) ++ right.positions.map (1 :: ·))
  | .call callee arguments => [] :: (callee.positions.map (0 :: ·) ++ positionsFrom 1 arguments)

/-- The positions below a node that has the given expressions as children from one number on. -/
def positionsFrom (i : Nat) : List Expr → List (List Nat)
  | [] => []
  | e :: es => e.positions.map (i :: ·) ++ positionsFrom (i + 1) es

end

theorem positions_eq (e : Expr) : e.positions = [] :: positionsFrom 0 e.children := by
  cases e <;> simp [positions, positionsFrom, children]

theorem mem_positionsFrom {i : Nat} {es : List Expr} {p : List Nat} :
    p ∈ positionsFrom i es ↔ ∃ j d q, es[j]? = some d ∧ q ∈ d.positions ∧ p = (i + j) :: q := by
  induction es generalizing i with
  | nil => simp [positionsFrom]
  | cons e es ih =>
    rw [positionsFrom, List.mem_append, List.mem_map, ih]
    constructor
    · rintro (⟨q, hq, rfl⟩ | ⟨j, d, q, hd, hq, rfl⟩)
      · exact ⟨0, e, q, rfl, hq, rfl⟩
      · exact ⟨j + 1, d, q, hd, hq, by rw [Nat.add_right_comm, Nat.add_assoc]⟩
    · rintro ⟨_ | j, d, q, hd, hq, rfl⟩
      · exact .inl ⟨q, Option.some_inj.mp hd ▸ hq, rfl⟩
      · exact .inr ⟨j, d, q, hd, hq, by rw [Nat.add_right_comm, Nat.add_assoc]⟩

/-- The list has the positions at which there is something. -/
theorem mem_positions {p : List Nat} : p ∈ e.positions ↔ (e.at? p).isSome := by
  induction p generalizing e with
  | nil => simp [positions_eq]
  | cons i p ih =>
    rw [positions_eq, List.mem_cons, mem_positionsFrom, at?_cons]
    constructor
    · rintro (h | ⟨j, d, q, hd, hq, h⟩)
      · cases h
      · rw [Nat.zero_add] at h
        cases h
        rw [hd, Option.bind_some]
        exact ih.mp hq
    · intro h
      obtain ⟨d, hd⟩ := Option.isSome_iff_exists.mp (Option.isSome_of_isSome_bind h)
      rw [hd, Option.bind_some] at h
      exact .inr ⟨i, d, p, hd, ih.mpr h, by rw [Nat.zero_add]⟩

theorem nodup_positionsFrom {es : List Expr} (h : ∀ e ∈ es, e.positions.Nodup) (i : Nat) :
    (positionsFrom i es).Nodup := by
  induction es generalizing i with
  | nil => exact List.nodup_nil
  | cons e es ih =>
    rw [List.forall_mem_cons] at h
    rw [positionsFrom, List.nodup_append]
    refine ⟨h.1.map List.cons_injective, ih h.2 (i + 1), ?_⟩
    -- a position in the first tree enters child `i`, one in the others a later child
    rintro _ hp _ hq rfl
    obtain ⟨p, -, rfl⟩ := List.mem_map.mp hp
    obtain ⟨j, d, q, -, -, heq⟩ := mem_positionsFrom.mp hq
    have hij := (List.cons.inj heq).1
    omega

/-- The list has each position once. -/
theorem nodup_positions (e : Expr) : e.positions.Nodup := by
  induction e using ofChildren with
  | node e ih =>
    rw [positions_eq, List.nodup_cons]
    refine ⟨fun h => ?_, nodup_positionsFrom ih 0⟩
    obtain ⟨j, d, q, -, -, heq⟩ := mem_positionsFrom.mp h
    cases heq

/-! ## Counting -/

theorem countP_positionsFrom {test : List Nat → Bool} {testOf : Expr → List Nat → Bool}
    {es : List Expr} {i : Nat}
    (h : ∀ j d, es[j]? = some d → ∀ p, test ((i + j) :: p) = testOf d p) :
    (positionsFrom i es).countP test = (es.map fun d => d.positions.countP (testOf d)).sum := by
  induction es generalizing i with
  | nil => rfl
  | cons e es ih =>
    have hhead : test ∘ (i :: ·) = testOf e := funext fun p => h 0 e rfl p
    have htail : ∀ j d, es[j]? = some d → ∀ p, test ((i + 1 + j) :: p) = testOf d p := by
      intro j d hd p
      rw [Nat.add_right_comm, Nat.add_assoc]
      exact h (j + 1) d hd p
    rw [positionsFrom, List.countP_append, List.countP_map, hhead, ih htail, List.map_cons,
      List.sum_cons]

/-- A count of positions is the count at the root and those below each child, where a test of
positions reads as a test of positions in the child. -/
theorem countP_positions {test : List Nat → Bool} {testOf : Expr → List Nat → Bool}
    (h : ∀ i d, e.children[i]? = some d → ∀ p, test (i :: p) = testOf d p) :
    e.positions.countP test =
      (test []).toNat + (e.children.map fun d => d.positions.countP (testOf d)).sum := by
  have hbelow : ∀ j d, e.children[j]? = some d → ∀ p, test ((0 + j) :: p) = testOf d p := by
    intro j d hd p
    rw [Nat.zero_add]
    exact h j d hd p
  rw [positions_eq, List.countP_cons, countP_positionsFrom hbelow, Nat.add_comm]
  cases test [] <;> rfl

/-- The number of nodes that satisfy a test. -/
def count (test : Expr → Bool) (e : Expr) : Nat :=
  e.positions.countP fun p => (e.at? p).any test

theorem count_eq (test : Expr → Bool) (e : Expr) :
    e.count test = (test e).toNat + (e.children.map fun d => d.count test).sum := by
  refine countP_positions fun i d hd p => ?_
  rw [at?_cons_of_child hd]

/-- The number of nodes. -/
def size (e : Expr) : Nat :=
  e.positions.length

theorem size_eq (e : Expr) : e.size = 1 + (e.children.map size).sum := by
  have hsize : (fun d : Expr => d.positions.countP fun _ => true) = size :=
    funext fun d => congrFun List.countP_true d.positions
  calc e.size = e.positions.countP fun _ => true := (congrFun hsize e).symm
    _ = 1 + (e.children.map fun d => d.positions.countP fun _ => true).sum :=
      countP_positions fun _ _ _ _ => rfl
    _ = 1 + (e.children.map size).sum := by rw [hsize]

/-- The number of nodes that satisfy a test and in whose place in another tree there is none that
does. -/
def lost (test : Expr → Bool) (e d : Expr) : Nat :=
  e.positions.countP fun p => (e.at? p).any test && !(d.at? p).any test

/-- What is lost is the difference of two counts if nothing is gained. -/
theorem lost_add_count {test : Expr → Bool}
    (h : ∀ p, (d.at? p).any test = true → (e.at? p).any test = true) :
    e.lost test d + d.count test = e.count test := by
  have hmem : ∀ (e : Expr) p, (e.at? p).any test = true → p ∈ e.positions := by
    intro e p hp
    rw [mem_positions]
    exact Option.isSome_of_any hp
  -- the places of the second tree that count are places of the first
  have hplaces : d.positions.filter (fun p => (d.at? p).any test) |>.Perm
      (e.positions.filter fun p => (d.at? p).any test) := by
    rw [List.perm_ext_iff_of_nodup ((nodup_positions d).filter _) ((nodup_positions e).filter _)]
    intro p
    rw [List.mem_filter, List.mem_filter]
    exact ⟨fun hp => ⟨hmem e p (h p hp.2), hp.2⟩, fun hp => ⟨hmem d p hp.2, hp.2⟩⟩
  have hkept : d.count test = (e.positions.filter fun p => (d.at? p).any test).countP
      fun p => (e.at? p).any test := by
    rw [count, List.countP_eq_length_filter, hplaces.length_eq, eq_comm, List.countP_eq_length]
    intro p hp
    exact h p (List.mem_filter.mp hp).2
  have hsplit := List.countP_eq_countP_filter_add e.positions (fun p => (e.at? p).any test)
    fun p => (d.at? p).any test
  have hlost : e.lost test d = (e.positions.filter fun p => !(d.at? p).any test).countP
      fun p => (e.at? p).any test := by
    rw [List.countP_filter, lost]
  rw [hkept, hlost, count, hsplit, Nat.add_comm]

end StackScript.Expr
