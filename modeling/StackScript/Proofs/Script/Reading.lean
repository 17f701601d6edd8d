import StackScript.Script.Parser

/-!
# What the parser does, equation by equation

The functions of `Parser` return, with what they read, a proof that tokens were used up.  Their
recursion needs that proof and nothing else does.  Here it is dropped: `readExpression`,
`readChain` and `readArguments` give the same answers as plain pairs, so that two runs on
different tokens can be compared.

For each of them there are two kinds of lemma.  Equations say what is done with a token at the
head.  Inversions (`readExpression_cases`, `readChain_cases`, `readArguments_cases`) say once,
for a run that succeeded, everything that it can have done; proofs about all runs are by
induction on the levels that are left, and use the inversions only.
-/

namespace StackScript

namespace Parser

/-- An answer without the bound on the number of tokens behind it. -/
def plain {α : Type} {bound : Nat} (r : Except SyntaxError (Parsed α bound)) :
    Except SyntaxError (α × List Token) :=
  r.map fun p => (p.value, p.rest)

/-- Read an expression: `expression` without its bound. -/
def readExpression (stop : Position) (levels power : Nat) (ts : List Token) :
    Except SyntaxError (Expr × List Token) :=
  plain (expression stop levels power ts)

/-- Extend an operand: `chain` without its bound. -/
def readChain (stop : Position) (levels power : Nat) (left : Expr) (ts : List Token) :
    Except SyntaxError (Expr × List Token) :=
  plain (chain stop levels power left ts)

/-- Read arguments: `arguments` without its bound. -/
def readArguments (stop : Position) (levels : Nat) (ts : List Token) :
    Except SyntaxError (List Expr × List Token) :=
  plain (arguments stop levels ts)

variable {stop : Position} {levels power : Nat} {pos : Position} {ts rest : List Token}

/-! ## Expressions -/

@[simp] theorem readExpression_nil : readExpression stop levels power [] =
    .error (unexpected stop .expectedExpression []) := by
  rw [readExpression, expression.eq_def]
  rfl

@[simp] theorem readExpression_literal {value : Constant} :
    readExpression stop levels power (⟨.literal value, pos⟩ :: ts) =
      readChain stop levels power (.constant value) ts := by
  rw [readExpression, expression.eq_def]
  rfl

@[simp] theorem readExpression_name {word : String} :
    readExpression stop levels power (⟨.name word, pos⟩ :: ts) =
      readChain stop levels power (.name word) ts := by
  rw [readExpression, expression.eq_def]
  rfl

@[simp] theorem readExpression_lparen_zero :
    readExpression stop 0 power (⟨.lparen, pos⟩ :: ts) = .error (tooDeep ⟨.lparen, pos⟩) := by
  rw [readExpression, expression.eq_def]
  rfl

/-- A parenthesis: an expression of any power, the closing parenthesis, and a chain. -/
theorem readExpression_lparen : readExpression stop (levels + 1) power (⟨.lparen, pos⟩ :: ts) =
    readExpression stop levels 0 ts >>= fun inner =>
      match inner.2 with
      | ⟨.rparen, _⟩ :: behind => readChain stop levels power inner.1 behind
      | found => .error (unexpected stop .expectedClosing found) := by
  rw [readExpression, expression.eq_def]
  unfold readExpression
  dsimp only
  cases expression stop levels 0 ts with
  | error e => rfl
  | ok inner =>
    obtain ⟨value, tokens, lt⟩ := inner
    rcases tokens with _ | ⟨⟨kind, p⟩, behind⟩
    · rfl
    · cases kind with
      | rparen =>
        show plain (chain stop levels power value behind >>= _) = plain _
        cases chain stop levels power value behind <;> rfl
      | _ => rfl

theorem readExpression_sign_zero {op : BinaryOp} {u : UnaryOp} (h : unary? op = some u) :
    readExpression stop 0 power (⟨.operator op, pos⟩ :: ts) =
      .error (tooDeep ⟨.operator op, pos⟩) := by
  rw [readExpression, expression.eq_def]
  dsimp only
  rw [h]
  rfl

/-- A prefix operator: its operand, and a chain. -/
theorem readExpression_sign {op : BinaryOp} {u : UnaryOp} (h : unary? op = some u) :
    readExpression stop (levels + 1) power (⟨.operator op, pos⟩ :: ts) =
      readExpression stop levels prefixPower ts >>= fun operand =>
        readChain stop levels power (.unary u operand.1) operand.2 := by
  rw [readExpression, expression.eq_def]
  unfold readExpression
  dsimp only
  rw [h]
  dsimp only
  cases expression stop levels prefixPower ts with
  | error e => rfl
  | ok operand =>
    show plain (chain stop levels power (.unary u operand.value) operand.rest >>= _) = plain _
    cases chain stop levels power (.unary u operand.value) operand.rest <;> rfl

/-- No other token starts an expression. -/
theorem readExpression_other {t : Token} (hliteral : ∀ value, t.kind ≠ .literal value)
    (hname : ∀ word, t.kind ≠ .name word) (hlparen : t.kind ≠ .lparen)
    (hsign : ∀ op, t.kind = .operator op → unary? op = none) :
    readExpression stop levels power (t :: ts) =
      .error (unexpected stop .expectedExpression (t :: ts)) := by
  rw [readExpression, expression.eq_def]
  obtain ⟨kind, p⟩ := t
  cases kind with
  | literal value => exact absurd rfl (hliteral value)
  | name word => exact absurd rfl (hname word)
  | lparen => exact absurd rfl hlparen
  | operator op =>
    dsimp only
    rw [hsign op rfl]
    rfl
  | rparen | comma | equals | newline => rfl

/-! ## Chains -/

/-- Nothing at the head of the tokens extends an operand that is read with the power. -/
def Ends (power : Nat) : List Token → Prop
  | [] => True
  | t :: _ =>
      match t.kind with
      | .lparen => False
      | .operator op => leftPower op < power
      | _ => True

/-- Where nothing extends an operand, it is complete. -/
theorem readChain_of_ends {left : Expr} (h : Ends power ts) :
    readChain stop levels power left ts = .ok (left, ts) := by
  rw [readChain, chain.eq_def]
  rcases ts with _ | ⟨⟨kind, p⟩, ts⟩
  · rfl
  · cases kind with
    | lparen => exact h.elim
    | operator op =>
      have hlt : leftPower op < power := h
      dsimp only
      rw [if_pos hlt]
      rfl
    | literal | name | rparen | comma | equals | newline => rfl

theorem readChain_lparen_zero {left : Expr} :
    readChain stop 0 power left (⟨.lparen, pos⟩ :: ts) = .error (tooDeep ⟨.lparen, pos⟩) := by
  rw [readChain, chain.eq_def]
  rfl

/-- A call: its arguments, and the rest of the chain. -/
theorem readChain_lparen {left : Expr} :
    readChain stop (levels + 1) power left (⟨.lparen, pos⟩ :: ts) =
      readArguments stop levels ts >>= fun args =>
        readChain stop levels power (.call left args.1) args.2 := by
  rw [readChain, chain.eq_def]
  unfold readArguments
  dsimp only
  cases arguments stop levels ts with
  | error e => rfl
  | ok args =>
    show plain (chain stop levels power (.call left args.value) args.rest >>= _) = plain _
    cases chain stop levels power (.call left args.value) args.rest <;> rfl

theorem readChain_operator_zero {left : Expr} {op : BinaryOp} (h : power ≤ leftPower op) :
    readChain stop 0 power left (⟨.operator op, pos⟩ :: ts) =
      .error (tooDeep ⟨.operator op, pos⟩) := by
  rw [readChain, chain.eq_def]
  dsimp only
  rw [if_neg (Nat.not_lt.mpr h)]
  rfl

/-- A link: its right operand, and the rest of the chain. -/
theorem readChain_operator {left : Expr} {op : BinaryOp} (h : power ≤ leftPower op) :
    readChain stop (levels + 1) power left (⟨.operator op, pos⟩ :: ts) =
      readExpression stop levels (rightPower op) ts >>= fun right =>
        readChain stop levels power (.binary op left right.1) right.2 := by
  rw [readChain, chain.eq_def]
  unfold readExpression
  dsimp only
  rw [if_neg (Nat.not_lt.mpr h)]
  cases expression stop levels (rightPower op) ts with
  | error e => rfl
  | ok right =>
    show plain (chain stop levels power (.binary op left right.value) right.rest >>= _) = plain _
    cases chain stop levels power (.binary op left right.value) right.rest <;> rfl

/-! ## Arguments -/

@[simp] theorem readArguments_rparen :
    readArguments stop levels (⟨.rparen, pos⟩ :: ts) = .ok ([], ts) := by
  rw [readArguments, arguments.eq_def]
  rfl

/-- Arguments that do not end at once: the first of them, and what separates or ends them. -/
theorem readArguments_first (h : ∀ p behind, ts ≠ ⟨.rparen, p⟩ :: behind) :
    readArguments stop levels ts = readExpression stop levels 0 ts >>= fun first =>
      match first.2 with
      | ⟨.comma, _⟩ :: behind =>
          readArguments stop levels behind >>= fun more => .ok (first.1 :: more.1, more.2)
      | ⟨.rparen, _⟩ :: behind => .ok ([first.1], behind)
      | found => .error (unexpected stop .inArguments found) := by
  rw [readArguments, arguments.eq_def]
  split
  · next p behind => exact absurd rfl (h p behind)
  · unfold readExpression
    cases expression stop levels 0 ts with
    | error e => rfl
    | ok first =>
      obtain ⟨value, tokens, lt⟩ := first
      rcases tokens with _ | ⟨⟨kind, p⟩, behind⟩
      · rfl
      · cases kind with
        | comma =>
          show plain (arguments stop levels behind >>= _) =
            plain (arguments stop levels behind) >>= _
          cases arguments stop levels behind <;> rfl
        | literal | name | operator | lparen | rparen | equals | newline => rfl

/-! ## Inversions -/

/-- If something was done with what was read, it was read. -/
theorem eq_ok_of_bind {α β : Type} {x : Except SyntaxError (α × List Token)}
    {next : α × List Token → Except SyntaxError β} {b : β} (h : (x >>= next) = .ok b) :
    ∃ a behind, x = .ok (a, behind) ∧ next (a, behind) = .ok b := by
  cases x with
  | error e => cases h
  | ok found => exact ⟨found.1, found.2, rfl, h⟩

/-- Everything that reading an expression can have done. -/
theorem readExpression_cases {e : Expr} (h : readExpression stop levels power ts = .ok (e, rest)) :
    (∃ value p behind, ts = ⟨.literal value, p⟩ :: behind ∧
      readChain stop levels power (.constant value) behind = .ok (e, rest)) ∨
    (∃ word p behind, ts = ⟨.name word, p⟩ :: behind ∧
      readChain stop levels power (.name word) behind = .ok (e, rest)) ∨
    (∃ l inner p q middle behind, levels = l + 1 ∧ ts = ⟨.lparen, p⟩ :: middle ∧
      readExpression stop l 0 middle = .ok (inner, ⟨.rparen, q⟩ :: behind) ∧
      readChain stop l power inner behind = .ok (e, rest)) ∨
    ∃ l op u operand p middle behind, levels = l + 1 ∧ ts = ⟨.operator op, p⟩ :: middle ∧
      unary? op = some u ∧ readExpression stop l prefixPower middle = .ok (operand, behind) ∧
      readChain stop l power (.unary u operand) behind = .ok (e, rest) := by
  rcases ts with _ | ⟨⟨kind, p⟩, ts⟩
  · rw [readExpression_nil] at h
    cases h
  · cases kind with
    | literal value =>
      rw [readExpression_literal] at h
      exact .inl ⟨value, p, ts, rfl, h⟩
    | name word =>
      rw [readExpression_name] at h
      exact .inr (.inl ⟨word, p, ts, rfl, h⟩)
    | lparen =>
      cases levels with
      | zero =>
        rw [readExpression_lparen_zero] at h
        cases h
      | succ l =>
        rw [readExpression_lparen] at h
        obtain ⟨inner, found, hinner, hnext⟩ := eq_ok_of_bind h
        dsimp only at hnext
        split at hnext
        · next q behind =>
          exact .inr (.inr (.inl ⟨l, inner, p, q, ts, behind, rfl, rfl, hinner, hnext⟩))
        · cases hnext
    | operator op =>
      cases hsign : unary? op with
      | none =>
        rw [readExpression_other (by simp) (by simp) (by simp) (by simpa using hsign)] at h
        cases h
      | some u =>
        cases levels with
        | zero =>
          rw [readExpression_sign_zero hsign] at h
          cases h
        | succ l =>
          rw [readExpression_sign hsign] at h
          obtain ⟨operand, behind, hoperand, hnext⟩ := eq_ok_of_bind h
          exact .inr (.inr (.inr
            ⟨l, op, u, operand, p, ts, behind, rfl, rfl, hsign, hoperand, hnext⟩))
    | rparen | comma | equals | newline =>
      rw [readExpression_other (by simp) (by simp) (by simp) (by simp)] at h
      cases h

/-- Everything that extending an operand can have done. -/
theorem readChain_cases {left e : Expr}
    (h : readChain stop levels power left ts = .ok (e, rest)) :
    (e = left ∧ rest = ts ∧ Ends power ts) ∨
    (∃ l args p middle behind, levels = l + 1 ∧ ts = ⟨.lparen, p⟩ :: middle ∧
      readArguments stop l middle = .ok (args, behind) ∧
      readChain stop l power (.call left args) behind = .ok (e, rest)) ∨
    ∃ l op right p middle behind, levels = l + 1 ∧ ts = ⟨.operator op, p⟩ :: middle ∧
      power ≤ leftPower op ∧
      readExpression stop l (rightPower op) middle = .ok (right, behind) ∧
      readChain stop l power (.binary op left right) behind = .ok (e, rest) := by
  by_cases hends : Ends power ts
  · rw [readChain_of_ends hends] at h
    cases h
    exact .inl ⟨rfl, rfl, hends⟩
  · right
    rcases ts with _ | ⟨⟨kind, p⟩, ts⟩
    · exact absurd trivial hends
    · cases kind with
      | lparen =>
        cases levels with
        | zero =>
          rw [readChain_lparen_zero] at h
          cases h
        | succ l =>
          rw [readChain_lparen] at h
          obtain ⟨args, behind, hargs, hnext⟩ := eq_ok_of_bind h
          exact .inl ⟨l, args, p, ts, behind, rfl, rfl, hargs, hnext⟩
      | operator op =>
        have hpower : power ≤ leftPower op := Nat.not_lt.mp hends
        cases levels with
        | zero =>
          rw [readChain_operator_zero hpower] at h
          cases h
        | succ l =>
          rw [readChain_operator hpower] at h
          obtain ⟨right, behind, hright, hnext⟩ := eq_ok_of_bind h
          exact .inr ⟨l, op, right, p, ts, behind, rfl, rfl, hpower, hright, hnext⟩
      | literal | name | rparen | comma | equals | newline => exact absurd trivial hends

/-- Everything that reading arguments can have done. -/
theorem readArguments_cases {args : List Expr}
    (h : readArguments stop levels ts = .ok (args, rest)) :
    (∃ p, ts = ⟨.rparen, p⟩ :: rest ∧ args = []) ∨
    (∃ first more p behind, args = first :: more ∧
      readExpression stop levels 0 ts = .ok (first, ⟨.comma, p⟩ :: behind) ∧
      readArguments stop levels behind = .ok (more, rest)) ∨
    ∃ first p, args = [first] ∧
      readExpression stop levels 0 ts = .ok (first, ⟨.rparen, p⟩ :: rest) := by
  by_cases hclosing : ∃ p behind, ts = ⟨.rparen, p⟩ :: behind
  · obtain ⟨p, behind, rfl⟩ := hclosing
    rw [readArguments_rparen] at h
    cases h
    exact .inl ⟨p, rfl, rfl⟩
  · right
    rw [readArguments_first fun p behind hts => hclosing ⟨p, behind, hts⟩] at h
    obtain ⟨first, found, hfirst, hnext⟩ := eq_ok_of_bind h
    dsimp only at hnext
    split at hnext
    · next p behind =>
      obtain ⟨more, behind', hmore, hdone⟩ := eq_ok_of_bind hnext
      cases hdone
      exact .inl ⟨first, more, p, behind, rfl, hfirst, hmore⟩
    · next p behind =>
      cases hnext
      exact .inr ⟨first, p, rfl, hfirst⟩
    · cases hnext

theorem length_lt_of_readExpression {e : Expr}
    (h : readExpression stop levels power ts = .ok (e, rest)) : rest.length < ts.length := by
  unfold readExpression at h
  cases hread : expression stop levels power ts with
  | error e => rw [hread] at h; cases h
  | ok p =>
    rw [hread] at h
    cases h
    exact p.lt

/-! ## Putting runs together -/

/-- An expression in parentheses is an operand, whatever power it is read with. -/
theorem readExpression_parentheses {e : Expr} {q : Position}
    (h : readExpression stop levels 0 (ts ++ ⟨.rparen, q⟩ :: rest) =
      .ok (e, ⟨.rparen, q⟩ :: rest)) :
    readExpression stop (levels + 1) power (⟨.lparen, pos⟩ :: (ts ++ ⟨.rparen, q⟩ :: rest)) =
      readChain stop levels power e rest := by
  rw [readExpression_lparen, h]
  rfl

theorem ne_rparen_of_readExpression {found : Expr × List Token} {p : Position}
    {behind : List Token} (h : readExpression stop levels power ts = .ok found) :
    ts ≠ ⟨.rparen, p⟩ :: behind := by
  rintro rfl
  rw [readExpression_other (by simp) (by simp) (by simp) (by simp)] at h
  cases h

theorem readArguments_last {e : Expr} {q : Position}
    (h : readExpression stop levels 0 ts = .ok (e, ⟨.rparen, q⟩ :: rest)) :
    readArguments stop levels ts = .ok ([e], rest) := by
  rw [readArguments_first fun _ _ => ne_rparen_of_readExpression h, h]
  rfl

theorem readArguments_cons {e : Expr} {args : List Expr} {q : Position} {behind : List Token}
    (h : readExpression stop levels 0 ts = .ok (e, ⟨.comma, q⟩ :: behind))
    (hmore : readArguments stop levels behind = .ok (args, rest)) :
    readArguments stop levels ts = .ok (e :: args, rest) := by
  rw [readArguments_first fun _ _ => ne_rparen_of_readExpression h, h]
  show readArguments stop levels behind >>= _ = _
  rw [hmore]
  rfl

/-- What holds of every expression that is read with some levels holds of arguments that are read
with them. -/
theorem forall_mem_of_readArguments {P : Expr → Prop} {args : List Expr}
    (hP : ∀ {ts rest : List Token} {e : Expr},
      readExpression stop levels 0 ts = .ok (e, rest) → P e)
    (h : readArguments stop levels ts = .ok (args, rest)) : ∀ e ∈ args, P e := by
  induction hn : ts.length using Nat.strongRecOn generalizing ts args with
  | _ n ih =>
    rcases readArguments_cases h with ⟨p, -, rfl⟩ |
      ⟨first, more, p, behind, rfl, hfirst, hmore⟩ | ⟨first, p, rfl, hfirst⟩
    · exact fun _ he => absurd he List.not_mem_nil
    · have hlt := length_lt_of_readExpression hfirst
      rw [List.length_cons] at hlt
      exact List.forall_mem_cons.mpr
        ⟨hP hfirst, ih behind.length (by omega) hmore rfl⟩
    · exact List.forall_mem_singleton.mpr (hP hfirst)

/-! ## Statements -/

/-- Read a statement: `statement` without its bound. -/
def readStatement (stop : Position) (ts : List Token) :
    Except SyntaxError (Stmt × List Token) :=
  plain (statement stop ts)

theorem readStatement_assign {word : String} {p q : Position} :
    readStatement stop (⟨.name word, p⟩ :: ⟨.equals, q⟩ :: ts) =
      readExpression stop maxNesting 0 ts >>= fun value =>
        .ok (.assign word value.1, value.2) := by
  unfold readStatement readExpression
  rw [statement.eq_def]
  dsimp only
  cases expression stop maxNesting 0 ts <;> rfl

theorem readStatement_expr
    (h : ∀ word p q behind, ts ≠ ⟨.name word, p⟩ :: ⟨.equals, q⟩ :: behind) :
    readStatement stop ts =
      readExpression stop maxNesting 0 ts >>= fun value => .ok (.expr value.1, value.2) := by
  unfold readStatement readExpression
  rw [statement.eq_def]
  split
  · next word p q behind => exact absurd rfl (h word p q behind)
  · cases expression stop maxNesting 0 ts <;> rfl

@[simp] theorem statements_nil {seen : List Stmt} :
    statements stop seen [] = .ok seen.reverse := by
  rw [statements.eq_def]

@[simp] theorem statements_newline {seen : List Stmt} :
    statements stop seen (⟨.newline, pos⟩ :: ts) = statements stop seen ts := by
  rw [statements.eq_def]
  rfl

/-- A statement, and what must follow it. -/
theorem statements_statement {seen : List Stmt} {t : Token} (h : t.kind ≠ .newline) :
    statements stop seen (t :: ts) = readStatement stop (t :: ts) >>= fun first =>
      match first.2 with
      | [] => .ok (first.1 :: seen).reverse
      | u :: behind =>
          if u.kind = .newline then statements stop (first.1 :: seen) behind
          else .error (unexpected stop .afterStatement (u :: behind)) := by
  rw [statements.eq_def]
  unfold readStatement
  dsimp only
  rw [if_neg h]
  cases statement stop (t :: ts) with
  | error e => rfl
  | ok p =>
    obtain ⟨value, tokens, lt⟩ := p
    cases tokens <;> rfl

/-- Everything that reading a statement can have done. -/
theorem readStatement_cases {s : Stmt} (h : readStatement stop ts = .ok (s, rest)) :
    (∃ word p q behind value, ts = ⟨.name word, p⟩ :: ⟨.equals, q⟩ :: behind ∧
      s = .assign word value ∧ readExpression stop maxNesting 0 behind = .ok (value, rest)) ∨
    ∃ value, s = .expr value ∧ readExpression stop maxNesting 0 ts = .ok (value, rest) := by
  by_cases hassign : ∃ word p q behind, ts = ⟨.name word, p⟩ :: ⟨.equals, q⟩ :: behind
  · obtain ⟨word, p, q, behind, rfl⟩ := hassign
    rw [readStatement_assign] at h
    obtain ⟨value, found, hread, hdone⟩ := eq_ok_of_bind h
    cases hdone
    exact .inl ⟨word, p, q, behind, value, rfl, rfl, hread⟩
  · rw [readStatement_expr fun word p q behind heq => hassign ⟨word, p, q, behind, heq⟩] at h
    obtain ⟨value, found, hread, hdone⟩ := eq_ok_of_bind h
    cases hdone
    exact .inr ⟨value, rfl, hread⟩

theorem length_lt_of_readStatement {s : Stmt} (h : readStatement stop ts = .ok (s, rest)) :
    rest.length < ts.length := by
  rcases readStatement_cases h with ⟨word, p, q, behind, value, rfl, -, hread⟩ | ⟨value, -, hread⟩
  · have hlt := length_lt_of_readExpression hread
    rw [List.length_cons, List.length_cons]
    omega
  · exact length_lt_of_readExpression hread

theorem ne_newline_of_readStatement {s : Stmt} {t : Token}
    (h : readStatement stop (t :: ts) = .ok (s, rest)) : t.kind ≠ .newline := by
  intro hkind
  rcases readStatement_cases h with ⟨word, p, q, behind, value, hts, -, -⟩ | ⟨value, -, hread⟩
  · cases hts
    cases hkind
  · rw [readExpression_other (by simp [hkind]) (by simp [hkind]) (by simp [hkind])
      (by simp [hkind])] at hread
    cases hread

/-- The last statement of a script. -/
theorem statements_last {seen : List Stmt} {s : Stmt} (h : readStatement stop ts = .ok (s, [])) :
    statements stop seen ts = .ok (s :: seen).reverse := by
  rcases ts with _ | ⟨t, ts⟩
  · exact absurd (length_lt_of_readStatement h) (Nat.lt_irrefl 0)
  · rw [statements_statement (ne_newline_of_readStatement h), h]
    rfl

/-- A statement with a line behind it. -/
theorem statements_line {seen : List Stmt} {s : Stmt}
    (h : readStatement stop ts = .ok (s, ⟨.newline, pos⟩ :: rest)) :
    statements stop seen ts = statements stop (s :: seen) rest := by
  rcases ts with _ | ⟨t, ts⟩
  · exact absurd (length_lt_of_readStatement h) (Nat.not_lt_zero _)
  · rw [statements_statement (ne_newline_of_readStatement h), h]
    rfl

/-- Everything that reading statements can have done. -/
theorem statements_cases {seen : List Stmt} {m : Script} (h : statements stop seen ts = .ok m) :
    (ts = [] ∧ m = seen.reverse) ∨
    (∃ p behind, ts = ⟨.newline, p⟩ :: behind ∧ statements stop seen behind = .ok m) ∨
    (∃ s, readStatement stop ts = .ok (s, []) ∧ m = (s :: seen).reverse) ∨
    ∃ s p behind, readStatement stop ts = .ok (s, ⟨.newline, p⟩ :: behind) ∧
      behind.length < ts.length ∧ statements stop (s :: seen) behind = .ok m := by
  rcases ts with _ | ⟨⟨kind, p⟩, ts⟩
  · rw [statements_nil] at h
    cases h
    exact .inl ⟨rfl, rfl⟩
  · by_cases hnewline : kind = .newline
    · subst hnewline
      rw [statements_newline] at h
      exact .inr (.inl ⟨p, ts, rfl, h⟩)
    · rw [statements_statement hnewline] at h
      obtain ⟨s, found, hread, hnext⟩ := eq_ok_of_bind h
      rcases found with _ | ⟨⟨kind', q⟩, behind⟩
      · cases hnext
        exact .inr (.inr (.inl ⟨s, hread, rfl⟩))
      · dsimp only at hnext
        split at hnext
        · next hkind =>
          subst hkind
          have hlt := length_lt_of_readStatement hread
          rw [List.length_cons] at hlt
          exact .inr (.inr (.inr ⟨s, q, behind, hread, by omega, hnext⟩))
        · cases hnext

/-- What holds of every statement that is read holds of all statements of a script. -/
theorem forall_mem_of_statements {P : Stmt → Prop} {seen : List Stmt} {m : Script}
    (hP : ∀ {ts rest : List Token} {s : Stmt}, readStatement stop ts = .ok (s, rest) → P s)
    (hseen : ∀ s ∈ seen, P s) (h : statements stop seen ts = .ok m) : ∀ s ∈ m, P s := by
  induction hn : ts.length using Nat.strongRecOn generalizing ts seen with
  | _ n ih =>
    rcases statements_cases h with ⟨-, rfl⟩ | ⟨p, behind, rfl, hnext⟩ | ⟨s, hread, rfl⟩ |
      ⟨s, p, behind, hread, hlt, hnext⟩
    · exact fun s hs => hseen s (List.mem_reverse.mp hs)
    · exact ih behind.length (by rw [← hn]; exact Nat.lt_succ_self _) hseen hnext rfl
    · exact fun t ht =>
        List.forall_mem_cons.mpr ⟨hP hread, hseen⟩ t (List.mem_reverse.mp ht)
    · exact ih behind.length (by omega) (List.forall_mem_cons.mpr ⟨hP hread, hseen⟩) hnext rfl

end Parser

end StackScript
