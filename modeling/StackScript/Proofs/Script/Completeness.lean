import StackScript.Proofs.Script.Grammar
import StackScript.Proofs.Script.Reading

/-!
# What the grammar derives is read

Reading by precedence takes every phrase of the layered grammar for what it is.  A phrase at
the head of the tokens is read up to its end, and then reading goes on behind it with the
phrase as its operand: that is `Advances`, and the chain that follows is the same whatever
phrase it was.  Which powers a phrase may be read with, and what may follow it, depends on its
layer (`advances_sum` and its like).

The one thing that can go wrong is that the levels run out, and then the phrase has more tokens
that take a level than there were levels.  With enough levels a phrase is read as what it
derives, so it derives one tree only (`eq_of_sum`).
-/

namespace StackScript

/-- Whether an error says that an expression has too many levels. -/
def SyntaxError.isNestingLimit (e : SyntaxError) : Bool :=
  match e.cause with
  | .tooManyParentheses => true
  | .nestedTooDeeply => true
  | _ => false

namespace Parser

open Grammar

variable {stop : Position} {levels power : Nat} {pos : Position} {ts us rest : List Token}

/-! ## Running out of levels -/

/-- The answer is that there are too many levels. -/
def Exceeds {α : Type} (r : Except SyntaxError α) : Prop :=
  ∃ e, r = .error e ∧ e.isNestingLimit = true

theorem exceeds_tooDeep {α : Type} (t : Token) :
    Exceeds (.error (tooDeep t) : Except SyntaxError α) := by
  refine ⟨_, rfl, ?_⟩
  unfold tooDeep SyntaxError.isNestingLimit
  split <;> simp_all

theorem Exceeds.bind {α β : Type} {r : Except SyntaxError α} (h : Exceeds r)
    (f : α → Except SyntaxError β) : Exceeds (r >>= f) := by
  obtain ⟨e, rfl, he⟩ := h
  exact ⟨e, rfl, he⟩

/-- What is not read as an expression, and for want of an expression, is not for want of
levels. -/
theorem not_exceeds_unexpected {α : Type} {found : List Token} :
    ¬Exceeds (.error (unexpected stop .expectedExpression found) : Except SyntaxError α) := by
  rintro ⟨e, he, hlimit⟩
  cases he
  cases found <;> simp [unexpected, SyntaxError.isNestingLimit] at hlimit

/-- The answer is the given one, unless the tokens take more levels than there are. -/
def Gives {α : Type} (levels : Nat) (ts : List Token) (r : Except SyntaxError α) (a : α) : Prop :=
  r = .ok a ∨ levels < cost ts ∧ Exceeds r

/-! ## What the grammar derives is read -/

/-- The answer is that of a chain with the given operand, unless there are fewer levels than
the given number. -/
def Continues (stop : Position) (levels power n : Nat)
    (r : Except SyntaxError (Expr × List Token)) (e : Expr) (rest : List Token) : Prop :=
  (∃ l, levels ≤ l + n ∧ r = readChain stop l power e rest) ∨ levels < n ∧ Exceeds r

/-- The tokens in front are read as an expression that is then extended, unless they take more
levels than there are. -/
def Advances (stop : Position) (levels power : Nat) (ts : List Token) (e : Expr)
    (rest : List Token) : Prop :=
  Continues stop levels power (cost ts) (readExpression stop levels power (ts ++ rest)) e rest

theorem continues_tooDeep {n : Nat} {e : Expr} (t : Token) (h : levels < n) :
    Continues stop levels power n (.error (tooDeep t)) e rest :=
  .inr ⟨h, exceeds_tooDeep t⟩

/-- One level is taken, a phrase is read with the levels that are left, and then the chain goes
on. -/
theorem Gives.continues {α : Type} {k m n : Nat} {r : Except SyntaxError (α × List Token)}
    {a : α × List Token} {next : α × List Token → Except SyntaxError (Expr × List Token)}
    {e : Expr} (h : Gives k us r a) (hnext : next a = readChain stop k power e rest)
    (hlevels : levels ≤ k + 1 + m) (hcost : n = m + 1 + cost us) :
    Continues stop levels power n (r >>= next) e rest := by
  rcases h with rfl | ⟨hk, hexceeds⟩
  · exact .inl ⟨k, by omega, hnext⟩
  · exact .inr ⟨by omega, hexceeds.bind next⟩

/-- What cannot be extended is what is read. -/
theorem Advances.gives {e : Expr} (h : Advances stop levels power ts e rest)
    (hends : Ends power rest) :
    Gives levels ts (readExpression stop levels power (ts ++ rest)) (e, rest) := by
  rcases h with ⟨l, -, hread⟩ | hexceeds
  · left
    rw [hread, readChain_of_ends hends]
  · exact .inr hexceeds

theorem Advances.link {op : BinaryOp} {l r : Expr}
    (h : Advances stop levels power ts l (⟨.operator op, pos⟩ :: (us ++ rest)))
    (hpower : power ≤ leftPower op)
    (hright : ∀ k, Gives k us (readExpression stop k (rightPower op) (us ++ rest)) (r, rest)) :
    Advances stop levels power (ts ++ ⟨.operator op, pos⟩ :: us) (.binary op l r) rest := by
  have hcost : cost (ts ++ ⟨.operator op, pos⟩ :: us) = cost ts + 1 + cost us := by
    simp
    omega
  unfold Advances
  rw [hcost, List.append_assoc, List.cons_append]
  rcases h with ⟨k, hk, hread⟩ | ⟨hk, hexceeds⟩
  · rw [hread]
    cases k with
    | zero =>
      rw [readChain_operator_zero hpower]
      exact continues_tooDeep _ (by omega)
    | succ k =>
      rw [readChain_operator hpower]
      exact (hright k).continues rfl hk rfl
  · exact .inr ⟨by omega, hexceeds⟩

theorem Advances.call {q : Position} {f : Expr} {args : List Expr}
    (h : Advances stop levels power ts f (⟨.lparen, pos⟩ :: (us ++ ⟨.rparen, q⟩ :: rest)))
    (hargs : ∀ k, Gives k us (readArguments stop k (us ++ ⟨.rparen, q⟩ :: rest)) (args, rest)) :
    Advances stop levels power (ts ++ ⟨.lparen, pos⟩ :: (us ++ [⟨.rparen, q⟩])) (.call f args)
      rest := by
  have hcost : cost (ts ++ ⟨.lparen, pos⟩ :: (us ++ [⟨.rparen, q⟩])) =
      cost ts + 1 + cost us := by
    simp
    omega
  unfold Advances
  rw [hcost, List.append_assoc, List.cons_append, List.append_assoc, List.singleton_append]
  rcases h with ⟨k, hk, hread⟩ | ⟨hk, hexceeds⟩
  · rw [hread]
    cases k with
    | zero =>
      rw [readChain_lparen_zero]
      exact continues_tooDeep _ (by omega)
    | succ k =>
      rw [readChain_lparen]
      exact (hargs k).continues rfl hk rfl
  · exact .inr ⟨by omega, hexceeds⟩

theorem Advances.sign {op : BinaryOp} {u : UnaryOp} {e : Expr} (hop : unary? op = some u)
    (h : ∀ k, Gives k ts (readExpression stop k prefixPower (ts ++ rest)) (e, rest)) :
    Advances stop levels power (⟨.operator op, pos⟩ :: ts) (.unary u e) rest := by
  have hcost : cost (⟨.operator op, pos⟩ :: ts) = 0 + 1 + cost ts := by
    simp
    omega
  unfold Advances
  rw [hcost, List.cons_append]
  cases levels with
  | zero =>
    rw [readExpression_sign_zero hop]
    exact continues_tooDeep _ (by omega)
  | succ k =>
    rw [readExpression_sign hop]
    exact (h k).continues rfl (Nat.le_refl _) rfl

theorem Advances.parentheses {q : Position} {e : Expr}
    (h : ∀ k, Gives k ts (readExpression stop k 0 (ts ++ ⟨.rparen, q⟩ :: rest))
      (e, ⟨.rparen, q⟩ :: rest)) :
    Advances stop levels power (⟨.lparen, pos⟩ :: (ts ++ [⟨.rparen, q⟩])) e rest := by
  have hcost : cost (⟨.lparen, pos⟩ :: (ts ++ [⟨.rparen, q⟩])) = 0 + 1 + cost ts := by
    simp
    omega
  unfold Advances
  rw [hcost, List.cons_append, List.append_assoc, List.singleton_append]
  cases levels with
  | zero =>
    rw [readExpression_lparen_zero]
    exact continues_tooDeep _ (by omega)
  | succ k =>
    rw [readExpression_lparen]
    exact (h k).continues rfl (Nat.le_refl _) rfl

/-- A token that starts no expression is not what an expression was read from. -/
theorem Gives.ne_of_other {found : List Token} {t : Token} {x : Expr × List Token}
    (h : Gives levels us (readExpression stop levels power ts) x)
    (hother : ∀ found, readExpression stop levels power (t :: found) =
      .error (unexpected stop .expectedExpression (t :: found))) : ts ≠ t :: found := by
  rintro rfl
  rw [hother] at h
  rcases h with h | ⟨-, h⟩
  · cases h
  · exact not_exceeds_unexpected h

theorem Gives.ne_rparen {found : List Token} {p : Position} {x : Expr × List Token}
    (h : Gives levels us (readExpression stop levels power ts) x) : ts ≠ ⟨.rparen, p⟩ :: found :=
  h.ne_of_other fun _ => readExpression_other (by simp) (by simp) (by simp) (by simp)

theorem Gives.last {q : Position} {e : Expr}
    (h : Gives levels ts (readExpression stop levels 0 (ts ++ ⟨.rparen, q⟩ :: rest))
      (e, ⟨.rparen, q⟩ :: rest)) :
    Gives levels ts (readArguments stop levels (ts ++ ⟨.rparen, q⟩ :: rest)) ([e], rest) := by
  unfold Gives
  rw [readArguments_first fun _ _ => h.ne_rparen]
  rcases h with hread | ⟨hlevels, hexceeds⟩
  · rw [hread]
    exact .inl rfl
  · exact .inr ⟨hlevels, hexceeds.bind _⟩

theorem Gives.cons {e : Expr} {args : List Expr} {behind : List Token}
    (h : Gives levels ts (readExpression stop levels 0 (ts ++ ⟨.comma, pos⟩ :: behind))
      (e, ⟨.comma, pos⟩ :: behind))
    (hmore : Gives levels us (readArguments stop levels behind) (args, rest)) :
    Gives levels (ts ++ ⟨.comma, pos⟩ :: us)
      (readArguments stop levels (ts ++ ⟨.comma, pos⟩ :: behind)) (e :: args, rest) := by
  have hcost : cost (ts ++ ⟨.comma, pos⟩ :: us) = cost ts + cost us := by simp
  unfold Gives
  rw [hcost, readArguments_first fun _ _ => h.ne_rparen]
  rcases h with hread | ⟨hlevels, hexceeds⟩
  · rw [hread]
    rcases hmore with hread | ⟨hlevels, hexceeds⟩
    · left
      show (readArguments stop levels behind >>= _) = _
      rw [hread]
      rfl
    · exact .inr ⟨by omega, hexceeds.bind _⟩
  · exact .inr ⟨by omega, hexceeds.bind _⟩

/-! The layers against the powers. -/

theorem leftPower_of_additive {op : BinaryOp} (h : Additive op) : leftPower op = 1 := by
  cases h <;> rfl

theorem leftPower_of_multiplicative {op : BinaryOp} (h : Multiplicative op) :
    leftPower op = 3 := by
  cases h <;> rfl

theorem unary?_of_sign {op : BinaryOp} {u : UnaryOp} (h : Sign op u) : unary? op = some u := by
  cases h <;> rfl

theorem Ends.mono {power' : Nat} (h : Ends power ts) (hle : power ≤ power') :
    Ends power' ts := by
  rcases ts with _ | ⟨⟨kind, p⟩, ts⟩
  · trivial
  · cases kind with
    | lparen => exact h
    | operator op => exact Nat.lt_of_lt_of_le h hle
    | literal | name | rparen | comma | equals | newline => trivial

theorem ends_nil : Ends power [] := trivial

theorem ends_rparen : Ends power (⟨.rparen, pos⟩ :: rest) := trivial

theorem ends_comma : Ends power (⟨.comma, pos⟩ :: rest) := trivial

mutual

theorem advances_sum : ∀ {ts : List Token} {e : Expr}, Sum ts e →
    ∀ {levels power : Nat} {rest : List Token}, power ≤ 1 → Ends 2 rest →
      Advances stop levels power ts e rest
  | _, _, .product h, _, _, _, hpower, hends =>
    advances_product h (by omega) (hends.mono (by omega))
  | _, _, .link left hop right, _, _, rest, hpower, hends => by
    have hleft := leftPower_of_additive hop
    have hright : rightPower _ = 2 := congrArg (· + 1) hleft
    refine (advances_sum left hpower (Nat.lt_of_le_of_lt (Nat.le_of_eq hleft) (by omega))).link
      (by omega) fun k => ?_
    rw [hright]
    exact (advances_product right (by omega) (hends.mono (by omega))).gives hends

theorem advances_product : ∀ {ts : List Token} {e : Expr}, Product ts e →
    ∀ {levels power : Nat} {rest : List Token}, power ≤ 3 → Ends 4 rest →
      Advances stop levels power ts e rest
  | _, _, .unary h, _, _, _, hpower, hends => advances_unary h hends
  | _, _, .link left hop right, _, _, rest, hpower, hends => by
    have hleft := leftPower_of_multiplicative hop
    have hright : rightPower _ = 4 := congrArg (· + 1) hleft
    refine (advances_product left hpower
      (Nat.lt_of_le_of_lt (Nat.le_of_eq hleft) (by omega))).link (by omega) fun k => ?_
    rw [hright]
    exact (advances_unary right hends).gives hends

theorem advances_unary : ∀ {ts : List Token} {e : Expr}, Unary ts e →
    ∀ {levels power : Nat} {rest : List Token}, Ends 4 rest →
      Advances stop levels power ts e rest
  | _, _, .primary h, _, _, _, hends => advances_primary h
  | _, _, .sign hop operand, _, _, _, hends =>
    .sign (unary?_of_sign hop) fun _ =>
      (advances_unary operand hends).gives (hends.mono (by decide))

theorem advances_primary : ∀ {ts : List Token} {e : Expr}, Primary ts e →
    ∀ {levels power : Nat} {rest : List Token}, Advances stop levels power ts e rest
  | _, _, .atom h, _, _, _ => advances_atom h
  | _, _, .call callee arguments, _, _, _ =>
    (advances_primary callee).call fun _ => gives_arguments arguments

theorem gives_arguments : ∀ {ts : List Token} {args : List Expr}, Arguments ts args →
    ∀ {levels : Nat} {rest : List Token} {q : Position},
      Gives levels ts (readArguments stop levels (ts ++ ⟨.rparen, q⟩ :: rest)) (args, rest)
  | _, _, .nil, _, _, _ => .inl readArguments_rparen
  | _, _, .last h, _, _, _ => ((advances_sum h (by omega) ends_rparen).gives ends_rparen).last
  | _, _, .cons head tail, _, _, _ => by
    rw [List.append_assoc, List.cons_append]
    exact ((advances_sum head (by omega) ends_comma).gives ends_comma).cons (gives_arguments tail)

theorem advances_atom : ∀ {ts : List Token} {e : Expr}, Atom ts e →
    ∀ {levels power : Nat} {rest : List Token}, Advances stop levels power ts e rest
  | _, _, .literal, levels, _, _ => .inl ⟨levels, by omega, readExpression_literal⟩
  | _, _, .name, levels, _, _ => .inl ⟨levels, by omega, readExpression_name⟩
  | _, _, .parentheses h, _, _, _ =>
    .parentheses fun _ => (advances_sum h (by omega) ends_rparen).gives ends_rparen

end

/-- With as many levels as its tokens can take, a sum is read as what it derives. -/
theorem readExpression_sum {e : Expr} (h : Sum ts e) (hlevels : cost ts ≤ levels)
    (hends : Ends 0 rest) : readExpression stop levels 0 (ts ++ rest) = .ok (e, rest) := by
  have hadvances : Advances stop levels 0 ts e rest :=
    advances_sum h (by omega) (hends.mono (by omega))
  rcases hadvances.gives hends with hread | ⟨hlt, -⟩
  · exact hread
  · omega

/-- Tokens derive at most one tree. -/
theorem eq_of_sum {e e' : Expr} (h : Sum ts e) (h' : Sum ts e') : e = e' := by
  have hread : ∀ {e : Expr}, Sum ts e →
      readExpression .start (cost ts) 0 (ts ++ []) = .ok (e, []) :=
    fun h => readExpression_sum h (Nat.le_refl _) trivial
  have heq := (hread h).symm.trans (hread h')
  cases heq
  rfl

end Parser

end StackScript
