import StackScript.Proofs.Script.Agreement
import StackScript.Proofs.Script.Spelling

/-!
# How high a tree can grow

The levels of the parser bound how deeply it recurses.  They do not bound the height of the tree
that it builds in the same way.  What an operand takes is given back when the operand is complete,
and then the operand may be extended by as many calls and operators as there were levels left in
front of it: the tree grows upwards around something that may already be as high as it can be.

So with one level more the height grows not by one but by the number of levels (`tallest`), and
with `l` levels the highest trees have height `1 + l * (l + 1) / 2`.  That bound is met
(`exists_tallest`).  What does hold is that a tree is at most one higher than the number of tokens
of its statement that may take a level; a script in which no statement has more of them than there
are levels has no tree higher than one more than that.
-/

namespace StackScript

/-! ## Height -/

mutual

/-- The number of nodes on the longest way down a tree. -/
def Expr.height : Expr → Nat
  | .constant _ => 1
  | .name _ => 1
  | .unary _ operand => operand.height + 1
  | .binary _ left right => max left.height right.height + 1
  | .call callee arguments => max callee.height (Expr.heightAll arguments) + 1

/-- The greatest height of some trees, zero if there are none. -/
def Expr.heightAll : List Expr → Nat
  | [] => 0
  | e :: es => max e.height (Expr.heightAll es)

end

theorem Expr.height_pos (e : Expr) : 1 ≤ e.height := by
  cases e <;> simp [Expr.height]

theorem Expr.heightAll_le {es : List Expr} {n : Nat} (h : ∀ e ∈ es, e.height ≤ n) :
    Expr.heightAll es ≤ n := by
  induction es with
  | nil => exact Nat.zero_le n
  | cons e es ih =>
    rw [Expr.heightAll]
    exact Nat.max_le.mpr
      ⟨h e List.mem_cons_self, ih fun f hf => h f (List.mem_cons_of_mem e hf)⟩

namespace Parser

variable {stop : Position} {levels power : Nat} {ts rest : List Token}

/-! ## By levels -/

/-- The height of the highest tree that can be read with so many levels. -/
def tallest : Nat → Nat
  | 0 => 1
  | l + 1 => tallest l + (l + 1)

theorem tallest_eq (l : Nat) : tallest l = 1 + l * (l + 1) / 2 := by
  have hdouble : 2 * tallest l = 2 + l * (l + 1) := by
    induction l with
    | zero => rfl
    | succ l ih =>
      have hnext : (l + 1) * (l + 1 + 1) = l * (l + 1) + 2 * (l + 1) := by
        rw [Nat.mul_comm]
        exact Nat.add_mul l 2 (l + 1)
      rw [tallest, Nat.mul_add, ih, hnext, Nat.add_assoc]
  omega

theorem tallest_mono {l m : Nat} (h : l ≤ m) : tallest l ≤ tallest m := by
  induction h with
  | refl => exact Nat.le_refl _
  | step _ ih => exact Nat.le_trans ih (Nat.le_add_right _ _)

theorem tallest_pred_add (l : Nat) : tallest (l - 1) + l = tallest l := by
  cases l <;> rfl

/-- Expressions read with so many levels are no higher than the tallest. -/
def ExpressionBounded (stop : Position) (levels : Nat) : Prop :=
  ∀ ⦃power : Nat⦄ ⦃ts rest : List Token⦄ ⦃e : Expr⦄,
    readExpression stop levels power ts = .ok (e, rest) → e.height ≤ tallest levels

/-- Extending an operand adds one to its height for each level, once it is as high as anything
that can be read with one level less. -/
def ChainBounded (stop : Position) (levels : Nat) : Prop :=
  ∀ ⦃power h : Nat⦄ ⦃ts rest : List Token⦄ ⦃left e : Expr⦄,
    left.height ≤ h → tallest (levels - 1) ≤ h →
      readChain stop levels power left ts = .ok (e, rest) → e.height ≤ h + levels

theorem ExpressionBounded.heightAll_le {args : List Expr} (h : ExpressionBounded stop levels)
    (hread : readArguments stop levels ts = .ok (args, rest)) :
    Expr.heightAll args ≤ tallest levels :=
  Expr.heightAll_le (forall_mem_of_readArguments (fun hfirst => h hfirst) hread)

/-- One node is put on top of an operand, and it is extended further. -/
theorem ChainBounded.grow {l h : Nat} {node e : Expr} (hchain : ChainBounded stop l)
    (htallest : tallest l ≤ h) (hnode : node.height ≤ h + 1)
    (hread : readChain stop l power node ts = .ok (e, rest)) : e.height ≤ h + (l + 1) := by
  have hlower : tallest (l - 1) ≤ h + 1 :=
    Nat.le_trans (tallest_mono (Nat.sub_le l 1)) (Nat.le_succ_of_le htallest)
  have hbound := hchain hnode hlower hread
  omega

theorem chainBounded_of_lt (ih : ∀ l < levels, ExpressionBounded stop l ∧ ChainBounded stop l) :
    ChainBounded stop levels := by
  intro power h ts rest left e hleft htallest hread
  rcases readChain_cases hread with ⟨rfl, -, -⟩ |
    ⟨l, args, p, middle, behind, rfl, rfl, hargs, hnext⟩ |
    ⟨l, op, right, p, middle, behind, rfl, rfl, -, hright, hnext⟩
  · exact Nat.le_add_right_of_le hleft
  · obtain ⟨hexpression, hchain⟩ := ih l (Nat.lt_succ_self l)
    have hargs' : Expr.heightAll args ≤ h := Nat.le_trans (hexpression.heightAll_le hargs) htallest
    refine hchain.grow htallest ?_ hnext
    rw [Expr.height]
    exact Nat.succ_le_succ (Nat.max_le.mpr ⟨hleft, hargs'⟩)
  · obtain ⟨hexpression, hchain⟩ := ih l (Nat.lt_succ_self l)
    have hright' : right.height ≤ h := Nat.le_trans (hexpression hright) htallest
    refine hchain.grow htallest ?_ hnext
    rw [Expr.height]
    exact Nat.succ_le_succ (Nat.max_le.mpr ⟨hleft, hright'⟩)

theorem expressionBounded_of_lt
    (ih : ∀ l < levels, ExpressionBounded stop l ∧ ChainBounded stop l) :
    ExpressionBounded stop levels := by
  intro power ts rest e hread
  have hpos : 1 ≤ tallest (levels - 1) := tallest_mono (Nat.zero_le _)
  have hchain := chainBounded_of_lt ih
  rcases readExpression_cases hread with ⟨value, p, behind, rfl, hnext⟩ |
    ⟨word, p, behind, rfl, hnext⟩ | ⟨l, inner, p, q, middle, behind, rfl, rfl, hinner, hnext⟩ |
    ⟨l, op, u, operand, p, middle, behind, rfl, rfl, -, hoperand, hnext⟩
  · have hleft : (Expr.constant value).height ≤ tallest (levels - 1) := by rwa [Expr.height]
    rw [← tallest_pred_add]
    exact hchain hleft (Nat.le_refl _) hnext
  · have hleft : (Expr.name word).height ≤ tallest (levels - 1) := by rwa [Expr.height]
    rw [← tallest_pred_add]
    exact hchain hleft (Nat.le_refl _) hnext
  · obtain ⟨hexpression, hchain⟩ := ih l (Nat.lt_succ_self l)
    have hbound := hchain (hexpression hinner) (tallest_mono (Nat.sub_le l 1)) hnext
    rw [tallest]
    omega
  · obtain ⟨hexpression, hchain⟩ := ih l (Nat.lt_succ_self l)
    refine hchain.grow (Nat.le_refl _) ?_ hnext
    rw [Expr.height]
    exact Nat.succ_le_succ (hexpression hoperand)

theorem bounded (stop : Position) (levels : Nat) :
    ExpressionBounded stop levels ∧ ChainBounded stop levels := by
  induction levels using Nat.strongRecOn with
  | _ levels ih => exact ⟨expressionBounded_of_lt ih, chainBounded_of_lt ih⟩

theorem height_le_of_readStatement {s : Stmt} (h : readStatement stop ts = .ok (s, rest)) :
    s.value.height ≤ tallest maxNesting := by
  obtain ⟨hbounded, -⟩ := bounded stop maxNesting
  rcases readStatement_cases h with ⟨word, p, q, behind, value, -, rfl, hread⟩ |
    ⟨value, rfl, hread⟩
  · exact hbounded hread
  · exact hbounded hread

end Parser

/-! ## By tokens -/

namespace Grammar

mutual

/-- A tree is at most one higher than the number of its tokens that may take a level. -/
theorem height_sum : ∀ {ts : List Token} {e : Expr}, Sum ts e → e.height ≤ cost ts + 1
  | _, _, .product h => height_product h
  | _, _, .link left _ right => by
    have hleft := height_sum left
    have hright := height_product right
    simp only [Expr.height, cost_append, cost_cons, takesLevel, Bool.toNat_true]
    omega

theorem height_product : ∀ {ts : List Token} {e : Expr}, Product ts e → e.height ≤ cost ts + 1
  | _, _, .unary h => height_unary h
  | _, _, .link left _ right => by
    have hleft := height_product left
    have hright := height_unary right
    simp only [Expr.height, cost_append, cost_cons, takesLevel, Bool.toNat_true]
    omega

theorem height_unary : ∀ {ts : List Token} {e : Expr}, Unary ts e → e.height ≤ cost ts + 1
  | _, _, .primary h => height_primary h
  | _, _, .sign _ operand => by
    have hoperand := height_unary operand
    simp only [Expr.height, cost_cons, takesLevel, Bool.toNat_true]
    omega

theorem height_primary : ∀ {ts : List Token} {e : Expr}, Primary ts e → e.height ≤ cost ts + 1
  | _, _, .atom h => height_atom h
  | _, _, .call callee arguments => by
    have hcallee := height_primary callee
    have harguments := height_arguments arguments
    simp only [Expr.height, cost_append, cost_cons, takesLevel, Bool.toNat_true]
    omega

theorem height_arguments : ∀ {ts : List Token} {args : List Expr}, Arguments ts args →
    Expr.heightAll args ≤ cost ts + 1
  | _, _, .nil => Nat.zero_le _
  | _, _, .last h => by
    have hsum := height_sum h
    simp only [Expr.heightAll]
    omega
  | _, _, .cons head tail => by
    have hhead := height_sum head
    have htail := height_arguments tail
    simp only [Expr.heightAll, cost_append, cost_cons]
    omega

theorem height_atom : ∀ {ts : List Token} {e : Expr}, Atom ts e → e.height ≤ cost ts + 1
  | _, _, .literal => by simp [Expr.height]
  | _, _, .name => by simp [Expr.height]
  | _, _, .parentheses h => by
    have hsum := height_sum h
    simp only [cost_append, cost_cons]
    omega

end

theorem height_statement {ts : List Token} {s : Stmt} (h : Statement ts s) :
    s.value.height ≤ cost ts + 1 := by
  cases h with
  | assign h =>
    have hsum := height_sum h
    simpa [Stmt.value] using hsum
  | expr h => exact height_sum h

/-- Where no line has more than some number of tokens that may take a level, no tree is higher
than one more than that. -/
theorem height_le_of_lines {ts : List Token} {m : Script} (h : Module ts m) {n : Nat}
    (hlines : ∀ line ∈ lines ts, cost line ≤ n) : ∀ s ∈ m, s.value.height ≤ n + 1 := by
  have hline : ∀ {ts : List Token} {s : Stmt}, Statement ts s → cost ts ≤ n →
      s.value.height ≤ n + 1 :=
    fun h hcost => Nat.le_trans (height_statement h) (Nat.succ_le_succ hcost)
  induction h with
  | empty => exact fun _ hs => absurd hs List.not_mem_nil
  | blank _ ih =>
    rw [lines_newline] at hlines
    exact ih fun line hl => hlines line (List.mem_cons_of_mem _ hl)
  | last h =>
    rw [lines_statement h] at hlines
    exact List.forall_mem_singleton.mpr (hline h (hlines _ List.mem_cons_self))
  | cons head _ ih =>
    rw [lines_statement_append head] at hlines
    exact List.forall_mem_cons.mpr ⟨hline head (hlines _ List.mem_cons_self),
      ih fun line hl => hlines line (List.mem_cons_of_mem _ hl)⟩

end Grammar

/-! ## Trees that are as high as that -/

namespace Parser

variable {stop : Position} {levels power : Nat} {ts rest : List Token}

/-- An expression with minus signs in front of it. -/
def negated : Nat → Expr → Expr
  | 0, e => e
  | n + 1, e => .unary .neg (negated n e)

theorem height_negated (n : Nat) (e : Expr) : (negated n e).height = e.height + n := by
  induction n with
  | zero => rfl
  | succ n ih =>
    rw [negated, Expr.height, ih]
    rfl

/-- The tokens of a literal with minus signs in front of it. -/
def signs (n : Nat) (value : Constant) : List TokenKind :=
  List.replicate n (.operator .sub) ++ [.literal value]

/-- Each sign takes a level, and gives it back. -/
theorem readExpression_signs {n : Nat} {value : Constant} (hts : ts.map Token.kind = signs n value)
    (hlevels : n ≤ levels) (hends : Ends prefixPower rest) :
    readExpression stop levels prefixPower (ts ++ rest) =
      .ok (negated n (.constant value), rest) := by
  induction n generalizing ts levels with
  | zero =>
    obtain ⟨pos, us, rfl, hus⟩ := Token.exists_cons_of_map_kind hts
    rw [List.map_eq_nil_iff.mp hus, List.singleton_append, readExpression_literal,
      readChain_of_ends hends]
    rfl
  | succ n ih =>
    obtain ⟨pos, us, rfl, hus⟩ := Token.exists_cons_of_map_kind hts
    obtain ⟨l, rfl⟩ : ∃ l, levels = l + 1 := ⟨levels - 1, by omega⟩
    rw [List.cons_append, readExpression_sign rfl, ih hus (by omega)]
    exact readChain_of_ends hends

/-- Behind a signed literal, the levels of all its signs but the first are free again. -/
theorem readExpression_signs_add {n : Nat} {value : Constant}
    (hts : ts.map Token.kind = signs (n + 1) value ++ [.operator .add, .literal value])
    (hlevels : n + 1 ≤ levels) (htwo : 2 ≤ levels) :
    readExpression stop levels 0 ts =
      .ok (.binary .add (negated (n + 1) (.constant value)) (.constant value), []) := by
  obtain ⟨before, behind, rfl, hbefore, hbehind⟩ := List.map_eq_append_iff.mp hts
  obtain ⟨p, operand, rfl, hoperand⟩ := Token.exists_cons_of_map_kind hbefore
  obtain ⟨q, literal, rfl, hliteral⟩ := Token.exists_cons_of_map_kind hbehind
  obtain ⟨r, none, rfl, hnone⟩ := Token.exists_cons_of_map_kind hliteral
  obtain rfl := List.map_eq_nil_iff.mp hnone
  obtain ⟨l, rfl⟩ : ∃ l, levels = l + 1 + 1 := ⟨levels - 2, by omega⟩
  have hread : readExpression stop (l + 1) prefixPower
      (operand ++ [⟨.operator .add, q⟩, ⟨.literal value, r⟩]) =
        .ok (negated n (.constant value), [⟨.operator .add, q⟩, ⟨.literal value, r⟩]) :=
    readExpression_signs hoperand (by omega) (show leftPower .add < prefixPower by decide)
  rw [List.cons_append, readExpression_sign rfl, hread]
  show readChain stop (l + 1) 0 (negated (n + 1) (.constant value)) _ = _
  rw [readChain_operator (Nat.zero_le _), readExpression_literal, readChain_of_ends ends_nil]
  exact readChain_of_ends ends_nil

/-- The tokens of a sum whose left operand has minus signs in front of it. -/
def signedSum (n : Nat) : List TokenKind :=
  signs n (.int 1) ++ [.operator .add, .literal (.int 1)]

/-- The tree of `signedSum`. -/
def signedSumTree (n : Nat) : Expr :=
  .binary .add (negated n (.constant (.int 1))) (.constant (.int 1))

theorem height_signedSumTree (n : Nat) : (signedSumTree n).height = n + 2 := by
  rw [signedSumTree, Expr.height, height_negated, Expr.height]
  omega

theorem readStatement_signedSum {n : Nat} (hn : n + 1 ≤ maxNesting)
    (hts : ts.map Token.kind = signedSum (n + 1)) :
    readStatement stop ts = .ok (.expr (signedSumTree (n + 1)), []) := by
  have hread : readExpression stop maxNesting 0 ts = .ok (signedSumTree (n + 1), []) :=
    readExpression_signs_add hts hn (by decide)
  obtain ⟨p, us, rfl, -⟩ := Token.exists_cons_of_map_kind hts
  rw [readStatement_expr (by rintro word p q behind ⟨⟩), hread]
  rfl

/-- Calls without arguments, one behind the other. -/
def called : Nat → Expr → Expr
  | 0, e => e
  | n + 1, e => called n (.call e [])

theorem height_called (n : Nat) (e : Expr) : (called n e).height = e.height + n := by
  induction n generalizing e with
  | zero => rfl
  | succ n ih =>
    rw [called, ih, Expr.height, Expr.heightAll]
    omega

/-- The tokens of calls without arguments. -/
def emptyCalls : Nat → List TokenKind
  | 0 => []
  | n + 1 => .lparen :: .rparen :: emptyCalls n

theorem readChain_emptyCalls {n : Nat} {e : Expr} (hts : ts.map Token.kind = emptyCalls n)
    (hends : Ends power rest) :
    readChain stop n power e (ts ++ rest) = .ok (called n e, rest) := by
  induction n generalizing ts e with
  | zero =>
    rw [List.map_eq_nil_iff.mp hts]
    exact readChain_of_ends hends
  | succ n ih =>
    obtain ⟨p, closing, rfl, hclosing⟩ := Token.exists_cons_of_map_kind hts
    obtain ⟨q, us, rfl, hus⟩ := Token.exists_cons_of_map_kind hclosing
    rw [List.cons_append, List.cons_append, readChain_lparen, readArguments_rparen]
    exact ih hus

/-- The highest tree that can be read with so many levels: a call whose argument is as high as it
can be, called again and again. -/
def tallestTree : Nat → Expr
  | 0 => .name "f"
  | l + 1 => called l (.call (.name "f") [tallestTree l])

/-- The tokens of `tallestTree`. -/
def tallestKinds : Nat → List TokenKind
  | 0 => [.name "f"]
  | l + 1 => .name "f" :: .lparen :: (tallestKinds l ++ .rparen :: emptyCalls l)

theorem height_tallestTree (l : Nat) : (tallestTree l).height = tallest l := by
  induction l with
  | zero => rfl
  | succ l ih =>
    have hpos : 1 ≤ tallest l := tallest_mono (Nat.zero_le l)
    rw [tallestTree, height_called, tallest]
    simp only [Expr.height, Expr.heightAll, ih]
    omega

theorem readExpression_tallestKinds {l : Nat} (hts : ts.map Token.kind = tallestKinds l)
    (hends : Ends power rest) :
    readExpression stop l power (ts ++ rest) = .ok (tallestTree l, rest) := by
  induction l generalizing ts power rest with
  | zero =>
    obtain ⟨p, us, rfl, hus⟩ := Token.exists_cons_of_map_kind hts
    rw [List.map_eq_nil_iff.mp hus, List.singleton_append, readExpression_name]
    exact readChain_of_ends hends
  | succ l ih =>
    obtain ⟨p, us, rfl, hus⟩ := Token.exists_cons_of_map_kind hts
    obtain ⟨q, argument, r, calls, rfl, hargument, hcalls⟩ :=
      Token.exists_parentheses_of_map_kind hus
    have hread : readArguments stop l (argument ++ ⟨.rparen, r⟩ :: (calls ++ rest)) =
        .ok ([tallestTree l], calls ++ rest) :=
      readArguments_last (ih hargument ends_rparen)
    rw [List.cons_append, List.cons_append, List.append_assoc, List.cons_append,
      readExpression_name, readChain_lparen, hread]
    exact readChain_emptyCalls hcalls hends

theorem readStatement_tallestKinds (hts : ts.map Token.kind = tallestKinds maxNesting) :
    readStatement stop ts = .ok (.expr (tallestTree maxNesting), []) := by
  have hread : readExpression stop maxNesting 0 (ts ++ []) = .ok (tallestTree maxNesting, []) :=
    readExpression_tallestKinds hts ends_nil
  rw [List.append_nil] at hread
  obtain ⟨p, us, rfl, hus⟩ := Token.exists_cons_of_map_kind hts
  obtain ⟨q, us, rfl, -⟩ := Token.exists_cons_of_map_kind hus
  rw [readStatement_expr (by rintro word p q behind ⟨⟩), hread]
  rfl

end Parser

namespace Lexer

open TokenKind

theorem arranged_signedSum (n : Nat) : Arranged 0 (Parser.signedSum n) := by
  induction n with
  | zero =>
    have hlast : Arranged 0 [.literal (.int 1)] := arranged_operand rfl (by simp) trivial
    exact arranged_operand rfl (by simp [isOperand]) (arranged_of_standsAlone rfl hlast)
  | succ n ih => exact arranged_of_standsAlone rfl ih

theorem spellable_signedSum (n : Nat) : ∀ k ∈ Parser.signedSum n, k.Spellable := by
  intro k hk
  have hone : (0 : Int) ≤ (1 : Int64).toInt := by decide
  simp only [Parser.signedSum, Parser.signs, List.mem_append, List.mem_replicate, List.mem_cons,
    List.not_mem_nil, or_false] at hk
  rcases hk with (⟨-, rfl⟩ | rfl) | rfl | rfl
  · trivial
  · exact hone
  · trivial
  · exact hone

theorem spelling_signedSum (n : Nat) : (Parser.signedSum n).flatMap spelling =
    List.replicate n '-' ++ "1+1".toList := by
  have hsigns : (List.replicate n (TokenKind.operator .sub)).flatMap spelling =
      List.replicate n '-' := by
    rw [List.flatMap_replicate]
    exact List.flatten_replicate_singleton
  rw [Parser.signedSum, Parser.signs, List.append_assoc, List.flatMap_append, hsigns]
  rfl

theorem arranged_emptyCalls {n depth : Nat} {ks : List TokenKind} (h : Arranged depth ks) :
    Arranged depth (Parser.emptyCalls n ++ ks) := by
  induction n with
  | zero => exact h
  | succ n ih => exact arranged_of_standsAlone rfl (arranged_of_standsAlone rfl ih)

theorem arranged_tallestKinds {l depth : Nat} {ks : List TokenKind} (h : Arranged depth ks)
    (hks : ∀ next ∈ ks.head?, next.isOperand = false) :
    Arranged depth (Parser.tallestKinds l ++ ks) := by
  induction l generalizing depth ks with
  | zero => exact arranged_operand rfl hks h
  | succ l ih =>
    have hcalls : Arranged (depth + 1) (.rparen :: (Parser.emptyCalls l ++ ks)) :=
      arranged_of_standsAlone rfl (arranged_emptyCalls h)
    have hargument := ih hcalls (by simp [isOperand])
    rw [Parser.tallestKinds, List.cons_append, List.cons_append, List.append_assoc,
      List.cons_append]
    exact arranged_operand rfl (by simp [isOperand]) (arranged_of_standsAlone rfl hargument)

/-- All tokens of the highest trees are the name of a function and parentheses. -/
theorem spellable_tallestKinds (l : Nat) : ∀ k ∈ Parser.tallestKinds l, k.Spellable := by
  have hname : Spellable (.name "f") := ⟨⟨'f', [], rfl, by decide, by simp⟩, by decide⟩
  have hcalls : ∀ n, ∀ k ∈ Parser.emptyCalls n, k.Spellable := by
    intro n
    induction n with
    | zero => simp [Parser.emptyCalls]
    | succ n ih => simpa [Parser.emptyCalls, Spellable] using ih
  induction l with
  | zero => simpa [Parser.tallestKinds] using hname
  | succ l ih =>
    intro k hk
    simp only [Parser.tallestKinds, List.mem_cons, List.mem_append] at hk
    rcases hk with rfl | rfl | hk | rfl | hk
    · exact hname
    · trivial
    · exact ih k hk
    · trivial
    · exact hcalls l k hk

end Lexer

/-- A script of one statement is read from its spelling. -/
theorem Script.ofText_spelling {ks : List TokenKind} {s : Stmt} (hks : ∀ k ∈ ks, k.Spellable)
    (h : Lexer.Arranged 0 ks)
    (hread : ∀ {stop : Position} {ts : List Token}, ts.map Token.kind = ks →
      Parser.readStatement stop ts = .ok (s, [])) :
    Script.ofText (String.ofList (ks.flatMap TokenKind.spelling)) = .ok [s] := by
  obtain ⟨stream, hstream, hkinds⟩ := TokenStream.ofText_spelling hks h
  rw [Script.ofText, hstream]
  exact Parser.statements_last (hread hkinds)

/-- The bound is met: some script has a tree that is as high as a tree can be. -/
theorem exists_tallest : ∃ source m, Script.ofText source = .ok m ∧
    ∃ s ∈ m, s.value.height = 1 + maxNesting * (maxNesting + 1) / 2 := by
  have harranged : Lexer.Arranged 0 (Parser.tallestKinds maxNesting ++ []) :=
    Lexer.arranged_tallestKinds trivial (by simp)
  rw [List.append_nil] at harranged
  refine ⟨_, _, Script.ofText_spelling (Lexer.spellable_tallestKinds maxNesting) harranged
    Parser.readStatement_tallestKinds, _, List.mem_cons_self, ?_⟩
  rw [← Parser.tallest_eq]
  exact Parser.height_tallestTree maxNesting

/-- A sum with at most as many minus signs in front of it as there are levels is accepted. -/
theorem Script.ofText_signedSum {n : Nat} (hn : n + 1 ≤ maxNesting) :
    Script.ofText (String.ofList (List.replicate (n + 1) '-' ++ "1+1".toList)) =
      .ok [.expr (Parser.signedSumTree (n + 1))] := by
  rw [← Lexer.spelling_signedSum]
  exact Script.ofText_spelling (Lexer.spellable_signedSum _) (Lexer.arranged_signedSum _)
    (Parser.readStatement_signedSum hn)

/-! ## The trees of a script -/

theorem Script.eq_ok_of_ofText {source : String} {m : Script} (h : Script.ofText source = .ok m) :
    ∃ stream, TokenStream.ofText source = .ok stream ∧ stream.parse = .ok m := by
  unfold Script.ofText at h
  cases htokens : TokenStream.ofText source with
  | error e =>
    rw [htokens] at h
    cases h
  | ok stream =>
    rw [htokens] at h
    exact ⟨stream, rfl, h⟩

/-- **How high the trees of a script are.**  No tree is higher than `1 + l * (l + 1) / 2`, where
`l` is the number of levels.  If no statement has more tokens that may take a level than there
are levels, no tree is higher than `l + 1`. -/
theorem height_le_of_ofText {source : String} {m : Script} (h : Script.ofText source = .ok m) :
    (∀ s ∈ m, s.value.height ≤ 1 + maxNesting * (maxNesting + 1) / 2) ∧
    ∀ stream, TokenStream.ofText source = .ok stream →
      (∀ line ∈ Grammar.lines stream.tokens, line.countP Grammar.takesLevel ≤ maxNesting) →
        ∀ s ∈ m, s.value.height ≤ maxNesting + 1 := by
  obtain ⟨stream, htokens, hparse⟩ := Script.eq_ok_of_ofText h
  constructor
  · rw [← Parser.tallest_eq]
    exact Parser.forall_mem_of_statements (fun hread => Parser.height_le_of_readStatement hread)
      (fun _ hs => absurd hs List.not_mem_nil) hparse
  · intro stream' htokens' hlines
    obtain rfl : stream = stream' := Except.ok.inj (htokens.symm.trans htokens')
    obtain ⟨m', hm, hmodule⟩ := Parser.module_of_statements hparse
    obtain rfl : m = m' := hm
    exact Grammar.height_le_of_lines hmodule hlines

/-- Both bounds at work: the tree of `-1+1` is no higher than its tokens allow, that of a sum with
all levels used up in front of it no higher than the levels do. -/
theorem height_le_of_ofText_signedSum :
    (∃ m, Script.ofText "-1+1" = .ok m ∧ ∀ s ∈ m, s.value.height ≤ maxNesting + 1) ∧
    ∃ m, Script.ofText (String.ofList (List.replicate maxNesting '-' ++ "1+1".toList)) = .ok m ∧
      ∀ s ∈ m, s.value.height ≤ 20101 := by
  have hsource : String.ofList (List.replicate 1 '-' ++ "1+1".toList) = "-1+1" := rfl
  have hone : Script.ofText "-1+1" = .ok [.expr (Parser.signedSumTree 1)] := by
    rw [← hsource]
    exact Script.ofText_signedSum (by decide)
  have hall := Script.ofText_signedSum (Nat.le_refl maxNesting)
  obtain ⟨stream, hstream, hkinds⟩ :=
    TokenStream.ofText_spelling (Lexer.spellable_signedSum 1) (Lexer.arranged_signedSum 1)
  rw [Lexer.spelling_signedSum, hsource] at hstream
  have hlines : ∀ line ∈ Grammar.lines stream.tokens,
      line.countP Grammar.takesLevel ≤ maxNesting := by
    have hline : Grammar.lines stream.tokens = [stream.tokens] := by
      refine List.splitOnP_eq_singleton fun t ht => decide_eq_false fun hnewline => ?_
      have hmem : t.kind ∈ Parser.signedSum 1 := hkinds ▸ List.mem_map_of_mem ht
      rw [hnewline] at hmem
      exact absurd hmem (by decide)
    have hlength : stream.tokens.length = 4 := by
      rw [← List.length_map, hkinds]
      rfl
    rw [hline]
    refine List.forall_mem_singleton.mpr (Nat.le_trans List.countP_le_length ?_)
    rw [hlength]
    decide
  exact ⟨⟨_, hone, (height_le_of_ofText hone).2 stream hstream hlines⟩,
    ⟨_, hall, (height_le_of_ofText hall).1⟩⟩

/-- **A tree higher than the levels.**  With as many minus signs as there are levels in front, a
sum is accepted, and its tree is two higher than the number of levels. -/
theorem exists_height_gt_levels :
    ∃ m, Script.ofText (String.ofList (List.replicate maxNesting '-' ++ "1+1".toList)) = .ok m ∧
      ∃ s ∈ m, maxNesting + 1 < s.value.height := by
  refine ⟨_, Script.ofText_signedSum (Nat.le_refl maxNesting), _, List.mem_cons_self, ?_⟩
  show maxNesting + 1 < (Parser.signedSumTree maxNesting).height
  rw [Parser.height_signedSumTree]
  exact Nat.lt_succ_self _

end StackScript
