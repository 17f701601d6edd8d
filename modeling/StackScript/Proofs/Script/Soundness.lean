import StackScript.Proofs.Script.Completeness

/-!
# What is read is derived

Whatever reading by precedence accepts is a phrase of the layered grammar.  An operand that is
being extended carries a derivation, and the layer it is of decides what may follow it.
Reading the right operand of an operator stops in front of anything that binds more tightly, so
a product is never asked to become the callee of a call, nor a sum the left operand of a
product (`Extensible`).

The proof follows the levels: what is read inside a level is read with fewer of them, and only
the arguments of a call, which all start at the same level, need a count of tokens besides.
-/

namespace StackScript

namespace Parser

open Grammar

variable {stop : Position} {levels power : Nat} {pos : Position} {ts us rest : List Token}

/-! ## Layers and powers -/

/-- Phrases whose operators bind at least with the given power. -/
def Binds (power : Nat) (ts : List Token) (e : Expr) : Prop :=
  if power ≤ 1 then Sum ts e else if power ≤ 3 then Product ts e else Unary ts e

theorem binds_of_product {e : Expr} (hpower : power ≤ 3) (h : Product ts e) :
    Binds power ts e := by
  unfold Binds
  split
  · exact .product h
  · exact h

theorem binds_of_unary {e : Expr} (h : Unary ts e) : Binds power ts e := by
  unfold Binds
  split
  · exact .product (.unary h)
  · split
    · exact .unary h
    · exact h

/-- The operand that was read from the tokens in front may be extended by what stands at the
head of the others: it is of the layer that this asks for. -/
structure Extensible (power : Nat) (before : List Token) (left : Expr) (ts : List Token) :
    Prop where
  /-- As it is, the operand is of the layer that is read. -/
  binds : Binds power before left
  /-- What is called is a primary. -/
  callee : ∀ {p : Position} {behind : List Token}, ts = ⟨.lparen, p⟩ :: behind →
    Primary before left
  /-- What is multiplied is a product. -/
  factor : ∀ {op : BinaryOp} {p : Position} {behind : List Token},
    ts = ⟨.operator op, p⟩ :: behind → Multiplicative op → Product before left

theorem Extensible.of_primary {before : List Token} {left : Expr} (h : Primary before left) :
    Extensible power before left ts where
  binds := binds_of_unary (.primary h)
  callee _ := h
  factor _ _ := .unary (.primary h)

theorem Extensible.of_unary {before : List Token} {left : Expr} (h : Unary before left)
    (hends : Ends power ts) {power' : Nat} : Extensible power' before left ts where
  binds := binds_of_unary h
  callee hts := by
    rw [hts] at hends
    exact hends.elim
  factor _ _ := .unary h

/-- The two kinds of operators, by their powers. -/
theorem additive_or_multiplicative (op : BinaryOp) :
    Additive op ∧ leftPower op = 1 ∨ Multiplicative op ∧ leftPower op = 3 := by
  cases op with
  | add => exact .inl ⟨.add, rfl⟩
  | sub => exact .inl ⟨.sub, rfl⟩
  | mul => exact .inr ⟨.mul, rfl⟩
  | div => exact .inr ⟨.div, rfl⟩
  | floorDiv => exact .inr ⟨.floorDiv, rfl⟩
  | mod => exact .inr ⟨.mod, rfl⟩

theorem Extensible.link {before behind used : List Token} {op : BinaryOp} {left right : Expr}
    (h : Extensible power before left (⟨.operator op, pos⟩ :: (used ++ behind)))
    (hpower : power ≤ leftPower op) (hright : Binds (rightPower op) used right)
    (hends : Ends (rightPower op) behind) :
    Extensible power (before ++ ⟨.operator op, pos⟩ :: used) (.binary op left right) behind := by
  have hcallee : ∀ {p : Position} {ts : List Token}, behind ≠ ⟨.lparen, p⟩ :: ts := by
    rintro p ts rfl
    exact hends.elim
  rcases additive_or_multiplicative op with ⟨hop, hleft⟩ | ⟨hop, hleft⟩
  · -- behind the right operand of a sum there is nothing left to multiply with
    have hsum : Sum before left := by
      have hbinds := h.binds
      rwa [Binds, if_pos (by omega)] at hbinds
    have hproduct : Product used right := by
      rwa [Binds, rightPower, hleft, if_neg (by omega), if_pos (by omega)] at hright
    refine ⟨?_, fun hts => absurd hts hcallee, ?_⟩
    · rw [Binds, if_pos (by omega)]
      exact .link hsum hop hproduct
    · rintro op' p ts rfl hop'
      have hlt : leftPower op' < rightPower op := hends
      rw [rightPower, hleft, leftPower_of_multiplicative hop'] at hlt
      omega
  · have hunary : Unary used right := by
      rwa [Binds, rightPower, hleft, if_neg (by omega), if_neg (by omega)] at hright
    have hlink : Product (before ++ ⟨.operator op, pos⟩ :: used) (.binary op left right) :=
      .link (h.factor rfl hop) hop hunary
    exact ⟨binds_of_product (by omega) hlink, fun hts => absurd hts hcallee, fun _ _ => hlink⟩

/-! ## Runs -/

/-- Expressions read with so many levels are derived. -/
def ExpressionSound (stop : Position) (levels : Nat) : Prop :=
  ∀ ⦃power : Nat⦄ ⦃ts rest : List Token⦄ ⦃e : Expr⦄,
    readExpression stop levels power ts = .ok (e, rest) →
      ∃ used, ts = used ++ rest ∧ Binds power used e ∧ Ends power rest

/-- Operands extended with so many levels are derived. -/
def ChainSound (stop : Position) (levels : Nat) : Prop :=
  ∀ ⦃power : Nat⦄ ⦃before ts rest : List Token⦄ ⦃left e : Expr⦄,
    Extensible power before left ts → readChain stop levels power left ts = .ok (e, rest) →
      ∃ used, ts = used ++ rest ∧ Binds power (before ++ used) e ∧ Ends power rest

/-- Arguments read with so many levels are derived. -/
def ArgumentsSound (stop : Position) (levels : Nat) : Prop :=
  ∀ ⦃ts rest : List Token⦄ ⦃args : List Expr⦄, readArguments stop levels ts = .ok (args, rest) →
    ∃ used p, ts = used ++ ⟨.rparen, p⟩ :: rest ∧ Arguments used args

theorem chainSound_of_lt
    (ih : ∀ l < levels, ExpressionSound stop l ∧ ChainSound stop l ∧ ArgumentsSound stop l) :
    ChainSound stop levels := by
  intro power before ts rest left e hleft h
  rcases readChain_cases h with ⟨rfl, rfl, hends⟩ |
    ⟨l, args, p, middle, behind, rfl, rfl, hargs, hnext⟩ |
    ⟨l, op, right, p, middle, behind, rfl, rfl, hpower, hright, hnext⟩
  · exact ⟨[], rfl, by rw [List.append_nil]; exact hleft.binds, hends⟩
  · obtain ⟨-, hchain, harguments⟩ := ih l (Nat.lt_succ_self l)
    obtain ⟨used, q, rfl, hderives⟩ := harguments hargs
    have hcall : Primary (before ++ ⟨.lparen, p⟩ :: (used ++ [⟨.rparen, q⟩])) (.call left args) :=
      .call (hleft.callee rfl) hderives
    obtain ⟨used', rfl, hbinds, hends⟩ := hchain (.of_primary hcall) hnext
    refine ⟨⟨.lparen, p⟩ :: (used ++ ⟨.rparen, q⟩ :: used'), by simp, ?_, hends⟩
    simpa using hbinds
  · obtain ⟨hexpression, hchain, -⟩ := ih l (Nat.lt_succ_self l)
    obtain ⟨used, rfl, hbinds, hends⟩ := hexpression hright
    obtain ⟨used', rfl, hbinds', hends'⟩ := hchain (hleft.link hpower hbinds hends) hnext
    refine ⟨⟨.operator op, p⟩ :: (used ++ used'), by simp, ?_, hends'⟩
    simpa using hbinds'

theorem sign_of_unary? {op : BinaryOp} {u : UnaryOp} (h : unary? op = some u) : Sign op u := by
  cases op with
  | add => cases h; exact .plus
  | sub => cases h; exact .minus
  | mul | div | floorDiv | mod => cases h

theorem expressionSound_of_lt
    (ih : ∀ l < levels, ExpressionSound stop l ∧ ChainSound stop l ∧ ArgumentsSound stop l) :
    ExpressionSound stop levels := by
  intro power ts rest e h
  have hchain := chainSound_of_lt ih
  rcases readExpression_cases h with ⟨value, p, behind, rfl, hnext⟩ |
    ⟨word, p, behind, rfl, hnext⟩ | ⟨l, inner, p, q, middle, behind, rfl, rfl, hinner, hnext⟩ |
    ⟨l, op, u, operand, p, middle, behind, rfl, rfl, hsign, hoperand, hnext⟩
  · have hatom : Atom [⟨.literal value, p⟩] (.constant value) := .literal
    obtain ⟨used, rfl, hbinds⟩ := hchain (.of_primary (.atom hatom)) hnext
    exact ⟨⟨.literal value, p⟩ :: used, rfl, hbinds⟩
  · have hatom : Atom [⟨.name word, p⟩] (.name word) := .name
    obtain ⟨used, rfl, hbinds⟩ := hchain (.of_primary (.atom hatom)) hnext
    exact ⟨⟨.name word, p⟩ :: used, rfl, hbinds⟩
  · obtain ⟨hexpression, hchain, -⟩ := ih l (Nat.lt_succ_self l)
    obtain ⟨used, rfl, hsum, -⟩ := hexpression hinner
    have hatom : Atom (⟨.lparen, p⟩ :: (used ++ [⟨.rparen, q⟩])) inner := .parentheses hsum
    obtain ⟨used', rfl, hbinds, hends⟩ := hchain (.of_primary (.atom hatom)) hnext
    refine ⟨⟨.lparen, p⟩ :: (used ++ ⟨.rparen, q⟩ :: used'), by simp, ?_, hends⟩
    simpa using hbinds
  · obtain ⟨hexpression, hchain, -⟩ := ih l (Nat.lt_succ_self l)
    obtain ⟨used, rfl, hunary, hends⟩ := hexpression hoperand
    have hderives : Unary (⟨.operator op, p⟩ :: used) (.unary u operand) :=
      .sign (sign_of_unary? hsign) hunary
    obtain ⟨used', rfl, hbinds, hends'⟩ := hchain (.of_unary hderives hends) hnext
    exact ⟨⟨.operator op, p⟩ :: (used ++ used'), by simp, by simpa using hbinds, hends'⟩

/-- Arguments all start with the same levels, so this goes by their number. -/
theorem argumentsSound_of_expressionSound (h : ExpressionSound stop levels) :
    ArgumentsSound stop levels := by
  intro ts
  induction hn : ts.length using Nat.strongRecOn generalizing ts with
  | _ n ih =>
    intro rest args hread
    rcases readArguments_cases hread with ⟨p, rfl, rfl⟩ |
      ⟨first, more, p, behind, rfl, hfirst, hmore⟩ | ⟨first, p, rfl, hfirst⟩
    · exact ⟨[], p, rfl, .nil⟩
    · have hlt := length_lt_of_readExpression hfirst
      obtain ⟨used, rfl, hsum, -⟩ := h hfirst
      obtain ⟨used', q, rfl, harguments⟩ :=
        ih behind.length (by rw [List.length_cons] at hlt; omega) rfl hmore
      exact ⟨used ++ ⟨.comma, p⟩ :: used', q, by simp, .cons hsum harguments⟩
    · obtain ⟨used, rfl, hsum, -⟩ := h hfirst
      exact ⟨used, p, rfl, .last hsum⟩

/-- Whatever is read is derived, however many levels there are. -/
theorem sound (stop : Position) (levels : Nat) :
    ExpressionSound stop levels ∧ ChainSound stop levels ∧ ArgumentsSound stop levels := by
  induction levels using Nat.strongRecOn with
  | _ levels ih =>
    have hexpression : ExpressionSound stop levels := expressionSound_of_lt ih
    exact ⟨hexpression, chainSound_of_lt ih, argumentsSound_of_expressionSound hexpression⟩

end Parser

end StackScript
