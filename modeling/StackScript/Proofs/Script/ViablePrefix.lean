import Mathlib
import StackScript.Proofs.Script.Locality
import StackScript.Proofs.Script.Nesting

/-!
# Errors point at the first impossible token

A syntax error of the parser points at the first token that rules the script out: no script at all
starts with the tokens up to this one, and some script starts with those before it
(`Script.error_first_impossible`).  The end of a script counts as its last token.

The tokens that a failing run was given fall into those that it *used* and those that it *found*,
and the error points at the first of the latter.  For each reader there are two things to say of
such a run.

* It does not fail too *late*: behind what was used, the first token found is enough for an error,
  whatever follows it.  Only the start of a statement needs a second token of lookahead, and that
  one is used by the time anything can go wrong.
* It does not fail too *early*: what was used can be completed.  Where an operand is missing, a
  literal will do, which takes no level; then whatever is open is closed.  So where a level is
  missing, either a literal could stand instead or nothing need stand at all.

Both are carried from the place of the error outwards, through every reader that is waiting for the
one that failed: one lemma for each way of waiting (`ExpressionFails.parentheses`,
`ChainFails.call` and so on).  What was read before without an error is read again in any
continuation, since the parser looks at one token behind a phrase only (`localities`).
-/

namespace StackScript

namespace Parser

variable {stop p : Position} {levels power l : Nat} {ts us vs used used' found : List Token}

/-! ## The first token found -/

/-- Two continuations start with tokens of one kind, or are both empty. -/
def SameHead (us vs : List Token) : Prop := us.head?.map Token.kind = vs.head?.map Token.kind

theorem SameHead.append (h : SameHead us vs) (ts : List Token) :
    SameHead (ts ++ us) (ts ++ vs) := by
  cases ts with
  | nil => exact h
  | cons t ts => rfl

theorem SameHead.eq_nil (h : SameHead us []) : us = [] := by
  cases us with
  | nil => rfl
  | cons u us => cases h

theorem SameHead.exists_cons {t : Token} (h : SameHead us (t :: ts)) :
    ∃ q behind, us = ⟨t.kind, q⟩ :: behind := by
  rcases us with _ | ⟨⟨kind, q⟩, us⟩
  · cases h
  · obtain rfl : kind = t.kind := Option.some.inj h
    exact ⟨q, us, rfl⟩

theorem SameHead.symm (h : SameHead us vs) : SameHead vs us := Eq.symm h

/-- If the one does not start with a token of some kind, the other does not. -/
theorem SameHead.ne_cons {kind : TokenKind} (h : SameHead us vs)
    (hvs : ∀ q behind, vs ≠ ⟨kind, q⟩ :: behind) : ∀ q behind, us ≠ ⟨kind, q⟩ :: behind := by
  rintro q behind rfl
  obtain ⟨q', behind', heq⟩ := h.symm.exists_cons
  exact hvs q' behind' heq

theorem SameHead.ends (h : SameHead us vs) (hends : Ends power vs) : Ends power us := by
  rcases vs with _ | ⟨t, vs⟩
  · rw [h.eq_nil]
    trivial
  · obtain ⟨q, behind, rfl⟩ := h.exists_cons
    exact hends

/-- Where the first of some tokens stands; the script ends behind the last. -/
def place (stop : Position) : List Token → Position
  | [] => stop
  | t :: _ => t.position

@[simp] theorem position_unexpected (cause : Option TokenKind → SyntaxError.Cause) :
    (unexpected stop cause ts).position = place stop ts := by
  cases ts <;> rfl

/-! ## Errors behind a phrase -/

theorem readExpression_unclosed {inner : Expr}
    (h : readExpression stop l 0 ts = .ok (inner, found))
    (hfound : ∀ q behind, found ≠ ⟨.rparen, q⟩ :: behind) :
    readExpression stop (l + 1) power (⟨.lparen, p⟩ :: ts) =
      .error (unexpected stop .expectedClosing found) := by
  rw [readExpression_lparen, h]
  rcases found with _ | ⟨⟨kind, q⟩, behind⟩
  · rfl
  · cases kind with
    | rparen => exact absurd rfl (hfound q behind)
    | literal | name | operator | lparen | comma | equals | newline => rfl

theorem readArguments_unseparated {first : Expr}
    (h : readExpression stop levels 0 ts = .ok (first, found))
    (hcomma : ∀ q behind, found ≠ ⟨.comma, q⟩ :: behind)
    (hclosing : ∀ q behind, found ≠ ⟨.rparen, q⟩ :: behind) :
    readArguments stop levels ts = .error (unexpected stop .inArguments found) := by
  rw [readArguments_first fun _ _ => ne_rparen_of_readExpression h, h]
  rcases found with _ | ⟨⟨kind, q⟩, behind⟩
  · rfl
  · cases kind with
    | comma => exact absurd rfl (hcomma q behind)
    | rparen => exact absurd rfl (hclosing q behind)
    | literal | name | operator | lparen | equals | newline => rfl

theorem readArguments_comma {first : Expr}
    (h : readExpression stop levels 0 ts = .ok (first, ⟨.comma, p⟩ :: us)) :
    readArguments stop levels ts =
      readArguments stop levels us >>= fun more => .ok (first :: more.1, more.2) := by
  rw [readArguments_first fun _ _ => ne_rparen_of_readExpression h, h]
  rfl

theorem statements_unended {seen : List Stmt} {s : Stmt} {u : Token}
    (h : readStatement stop ts = .ok (s, u :: us)) (hu : u.kind ≠ .newline) :
    statements stop seen ts = .error (unexpected stop .afterStatement (u :: us)) := by
  rcases ts with _ | ⟨t, ts⟩
  · exact absurd (length_lt_of_readStatement h) (Nat.not_lt_zero _)
  · rw [statements_statement (ne_newline_of_readStatement h), h]
    exact if_neg hu

/-! ## Neither too late nor too early -/

/-- Reading an expression fails behind the tokens used. -/
structure ExpressionFails (levels power : Nat) (used found : List Token) : Prop where
  /-- The first token found rules every continuation out. -/
  late : ∀ stop us, SameHead us found →
    ∃ e, readExpression stop levels power (used ++ us) = .error e
  /-- What was used can be completed. -/
  early : ∃ more a, ReadsAs levels power (used ++ more) a

/-- Extending an operand fails behind the tokens used. -/
structure ChainFails (levels power : Nat) (left : Expr) (used found : List Token) : Prop where
  /-- The first token found rules every continuation out. -/
  late : ∀ stop us, SameHead us found →
    ∃ e, readChain stop levels power left (used ++ us) = .error e
  /-- What was used can be completed; the operand alone is complete. -/
  early : ∃ more a, (used = [] → more = []) ∧ Extends levels power left (used ++ more) a

/-- Reading arguments fails behind the tokens used. -/
structure ArgumentsFails (levels : Nat) (used found : List Token) : Prop where
  /-- The first token found rules every continuation out. -/
  late : ∀ stop us, SameHead us found →
    ∃ e, readArguments stop levels (used ++ us) = .error e
  /-- What was used can be completed. -/
  early : ∃ more args, ReadsArguments levels (used ++ more) args

/-! ### Where an operand should start -/

/-- Where an operand is missing, a literal would do. -/
theorem ExpressionFails.operand
    (h : ∀ stop us, SameHead us found → ∃ e, readExpression stop levels power us = .error e) :
    ExpressionFails levels power [] found where
  late := h
  early := ⟨[⟨.literal .none, .start⟩], .constant .none, .literal .nil⟩

theorem ChainFails.literal {value : Constant}
    (h : ChainFails levels power (.constant value) used found) :
    ExpressionFails levels power (⟨.literal value, p⟩ :: used) found where
  late stop us hus := by
    rw [List.cons_append, readExpression_literal]
    exact h.late stop us hus
  early := by
    obtain ⟨more, a, -, hmore⟩ := h.early
    exact ⟨more, a, .literal hmore⟩

theorem ChainFails.name {word : String} (h : ChainFails levels power (.name word) used found) :
    ExpressionFails levels power (⟨.name word, p⟩ :: used) found where
  late stop us hus := by
    rw [List.cons_append, readExpression_name]
    exact h.late stop us hus
  early := by
    obtain ⟨more, a, -, hmore⟩ := h.early
    exact ⟨more, a, .name hmore⟩

/-! ### Behind an opening parenthesis -/

/-- Inside parentheses: they can be closed behind the completion. -/
theorem ExpressionFails.parentheses (h : ExpressionFails l 0 used found) :
    ExpressionFails (l + 1) power (⟨.lparen, p⟩ :: used) found where
  late stop us hus := by
    obtain ⟨e, he⟩ := h.late stop us hus
    rw [List.cons_append, readExpression_lparen, he]
    exact ⟨e, rfl⟩
  early := by
    obtain ⟨more, a, hmore⟩ := h.early
    refine ⟨more ++ [⟨.rparen, .start⟩], a, ?_⟩
    rw [List.cons_append, ← List.append_assoc]
    exact .parentheses hmore .nil

/-- Where parentheses should be closed. -/
theorem ReadsAs.unclosed {inner : Expr} (h : ReadsAs l 0 used inner) (hends : Ends 0 found)
    (hfound : ∀ q behind, found ≠ ⟨.rparen, q⟩ :: behind) :
    ExpressionFails (l + 1) power (⟨.lparen, p⟩ :: used) found where
  late stop us hus := by
    exact ⟨_, readExpression_unclosed (h stop us (hus.ends hends)) (hus.ne_cons hfound)⟩
  early := ⟨[⟨.rparen, .start⟩], inner, .parentheses h .nil⟩

/-- Behind parentheses. -/
theorem ChainFails.parentheses {inner : Expr} {q : Position} (hinner : ReadsAs l 0 used inner)
    (h : ChainFails l power inner used' found) :
    ExpressionFails (l + 1) power (⟨.lparen, p⟩ :: (used ++ ⟨.rparen, q⟩ :: used')) found where
  late stop us hus := by
    rw [List.cons_append, List.append_assoc, List.cons_append,
      readExpression_parentheses (hinner stop _ ends_rparen)]
    exact h.late stop us hus
  early := by
    obtain ⟨more, a, -, hmore⟩ := h.early
    refine ⟨more, a, ?_⟩
    rw [List.cons_append, List.append_assoc, List.cons_append]
    exact .parentheses hinner hmore

/-! ### Behind a sign -/

/-- In the operand of a sign. -/
theorem ExpressionFails.sign {op : BinaryOp} {u : UnaryOp} (hsign : unary? op = some u)
    (h : ExpressionFails l prefixPower used found) :
    ExpressionFails (l + 1) power (⟨.operator op, p⟩ :: used) found where
  late stop us hus := by
    obtain ⟨e, he⟩ := h.late stop us hus
    rw [List.cons_append, readExpression_sign hsign, he]
    exact ⟨e, rfl⟩
  early := by
    obtain ⟨more, a, hmore⟩ := h.early
    refine ⟨more, .unary u a, ?_⟩
    have hread : ReadsAs (l + 1) power (⟨.operator op, p⟩ :: (used ++ more ++ [])) (.unary u a) :=
      .sign hsign hmore (fun _ hends => hends.prefixPower) .nil
    rwa [List.append_nil] at hread

/-- Behind the operand of a sign. -/
theorem ChainFails.sign {op : BinaryOp} {u : UnaryOp} {operand : Expr}
    (hsign : unary? op = some u) (hoperand : ReadsAs l prefixPower used operand)
    (hstops : Ends prefixPower (used' ++ found))
    (h : ChainFails l power (.unary u operand) used' found) :
    ExpressionFails (l + 1) power (⟨.operator op, p⟩ :: (used ++ used')) found where
  late stop us hus := by
    rw [List.cons_append, List.append_assoc, readExpression_sign hsign,
      hoperand stop _ ((hus.append used').ends hstops)]
    exact h.late stop us hus
  early := by
    obtain ⟨more, a, hnil, hmore⟩ := h.early
    refine ⟨more, a, ?_⟩
    rw [List.cons_append, List.append_assoc]
    refine .sign hsign hoperand (fun rest hends => ?_) hmore
    rw [List.append_assoc]
    refine ends_append hstops fun hused => ?_
    rw [hnil hused]
    exact hends.prefixPower

/-! ### In a chain -/

/-- Where a level is missing, the operand is complete as it is. -/
theorem ChainFails.level {left : Expr}
    (h : ∀ stop us, SameHead us found → ∃ e, readChain stop levels power left us = .error e) :
    ChainFails levels power left [] found where
  late := h
  early := ⟨[], left, fun _ => rfl, .nil⟩

/-- In the arguments of a call. -/
theorem ArgumentsFails.call {left : Expr} (h : ArgumentsFails l used found) :
    ChainFails (l + 1) power left (⟨.lparen, p⟩ :: used) found where
  late stop us hus := by
    obtain ⟨e, he⟩ := h.late stop us hus
    rw [List.cons_append, readChain_lparen, he]
    exact ⟨e, rfl⟩
  early := by
    obtain ⟨more, args, hmore⟩ := h.early
    refine ⟨more, .call left args, fun hused => absurd hused (List.cons_ne_nil _ _), ?_⟩
    have hread : Extends (l + 1) power left (⟨.lparen, p⟩ :: (used ++ more ++ []))
        (.call left args) := .call hmore .nil
    rwa [List.append_nil] at hread

/-- Behind a call. -/
theorem ChainFails.call {left : Expr} {args : List Expr} (hargs : ReadsArguments l used args)
    (h : ChainFails l power (.call left args) used' found) :
    ChainFails (l + 1) power left (⟨.lparen, p⟩ :: (used ++ used')) found where
  late stop us hus := by
    rw [List.cons_append, List.append_assoc, readChain_lparen, hargs]
    exact h.late stop us hus
  early := by
    obtain ⟨more, a, -, hmore⟩ := h.early
    refine ⟨more, a, fun hused => absurd hused (List.cons_ne_nil _ _), ?_⟩
    rw [List.cons_append, List.append_assoc]
    exact .call hargs hmore

/-- In the right operand of an operator. -/
theorem ExpressionFails.link {op : BinaryOp} {left : Expr} (hpower : power ≤ leftPower op)
    (h : ExpressionFails l (rightPower op) used found) :
    ChainFails (l + 1) power left (⟨.operator op, p⟩ :: used) found where
  late stop us hus := by
    obtain ⟨e, he⟩ := h.late stop us hus
    rw [List.cons_append, readChain_operator hpower, he]
    exact ⟨e, rfl⟩
  early := by
    obtain ⟨more, a, hmore⟩ := h.early
    refine ⟨more, .binary op left a, fun hused => absurd hused (List.cons_ne_nil _ _), ?_⟩
    have hread : Extends (l + 1) power left (⟨.operator op, p⟩ :: (used ++ more ++ []))
        (.binary op left a) :=
      .link hpower hmore (fun _ hends => hends.mono (Nat.le_succ_of_le hpower)) .nil
    rwa [List.append_nil] at hread

/-- Behind the right operand of an operator. -/
theorem ChainFails.link {op : BinaryOp} {left right : Expr} (hpower : power ≤ leftPower op)
    (hright : ReadsAs l (rightPower op) used right) (hstops : Ends (rightPower op) (used' ++ found))
    (h : ChainFails l power (.binary op left right) used' found) :
    ChainFails (l + 1) power left (⟨.operator op, p⟩ :: (used ++ used')) found where
  late stop us hus := by
    rw [List.cons_append, List.append_assoc, readChain_operator hpower,
      hright stop _ ((hus.append used').ends hstops)]
    exact h.late stop us hus
  early := by
    obtain ⟨more, a, hnil, hmore⟩ := h.early
    refine ⟨more, a, fun hused => absurd hused (List.cons_ne_nil _ _), ?_⟩
    rw [List.cons_append, List.append_assoc]
    refine .link hpower hright (fun rest hends => ?_) hmore
    rw [List.append_assoc]
    refine ends_append hstops fun hused => ?_
    rw [hnil hused]
    exact hends.mono (Nat.le_succ_of_le hpower)

/-! ### In arguments -/

/-- In an argument. -/
theorem ExpressionFails.argument (h : ExpressionFails levels 0 used found)
    (hopen : ∀ q behind, used ++ found ≠ ⟨.rparen, q⟩ :: behind) :
    ArgumentsFails levels used found where
  late stop us hus := by
    obtain ⟨e, he⟩ := h.late stop us hus
    rw [readArguments_first ((hus.append used).ne_cons hopen), he]
    exact ⟨e, rfl⟩
  early := by
    obtain ⟨more, a, hmore⟩ := h.early
    refine ⟨more ++ [⟨.rparen, .start⟩], [a], ?_⟩
    rw [← List.append_assoc]
    exact hmore.argument

/-- Behind an argument, where there is nothing to separate or end it. -/
theorem ReadsAs.unseparated {first : Expr} (h : ReadsAs levels 0 used first) (hends : Ends 0 found)
    (hclosing : ∀ q behind, found ≠ ⟨.rparen, q⟩ :: behind)
    (hcomma : ∀ q behind, found ≠ ⟨.comma, q⟩ :: behind) :
    ArgumentsFails levels used found where
  late stop us hus := by
    exact ⟨_, readArguments_unseparated (h stop us (hus.ends hends)) (hus.ne_cons hcomma)
      (hus.ne_cons hclosing)⟩
  early := ⟨[⟨.rparen, .start⟩], [first], h.argument⟩

/-- In the arguments behind a comma. -/
theorem ArgumentsFails.cons {first : Expr} (hfirst : ReadsAs levels 0 used first)
    (h : ArgumentsFails levels used' found) :
    ArgumentsFails levels (used ++ ⟨.comma, p⟩ :: used') found where
  late stop us hus := by
    obtain ⟨e, he⟩ := h.late stop us hus
    rw [List.append_assoc, List.cons_append, readArguments_comma (hfirst stop _ ends_comma), he]
    exact ⟨e, rfl⟩
  early := by
    obtain ⟨more, args, hmore⟩ := h.early
    refine ⟨more, first :: args, ?_⟩
    rw [List.append_assoc, List.cons_append]
    exact .cons hfirst hmore

/-! ## Where a run fails -/

/-- Reading expressions with so many levels fails neither too late nor too early. -/
def ExpressionViable (levels : Nat) : Prop :=
  ∀ ⦃stop : Position⦄ ⦃power : Nat⦄ ⦃ts : List Token⦄ ⦃e : SyntaxError⦄,
    readExpression stop levels power ts = .error e →
      ∃ used found, ts = used ++ found ∧ e.position = place stop found ∧
        ExpressionFails levels power used found

/-- Extending operands with so many levels fails neither too late nor too early. -/
def ChainViable (levels : Nat) : Prop :=
  ∀ ⦃stop : Position⦄ ⦃power : Nat⦄ ⦃left : Expr⦄ ⦃ts : List Token⦄ ⦃e : SyntaxError⦄,
    readChain stop levels power left ts = .error e →
      ∃ used found, ts = used ++ found ∧ e.position = place stop found ∧
        ChainFails levels power left used found

/-- Reading arguments with so many levels fails neither too late nor too early. -/
def ArgumentsViable (levels : Nat) : Prop :=
  ∀ ⦃stop : Position⦄ ⦃ts : List Token⦄ ⦃e : SyntaxError⦄,
    readArguments stop levels ts = .error e →
      ∃ used found, ts = used ++ found ∧ e.position = place stop found ∧
        ArgumentsFails levels used found

/-- If doing something with what was read fails, it was not read, or what was done fails. -/
theorem eq_error_of_bind {α β : Type} {x : Except SyntaxError (α × List Token)}
    {next : α × List Token → Except SyntaxError β} {e : SyntaxError}
    (h : (x >>= next) = .error e) :
    x = .error e ∨ ∃ a behind, x = .ok (a, behind) ∧ next (a, behind) = .error e := by
  cases x with
  | error e' =>
    cases h
    exact .inl rfl
  | ok found => exact .inr ⟨found.1, found.2, rfl, h⟩

theorem chainViable_of_lt
    (ih : ∀ l < levels, ExpressionViable l ∧ ChainViable l ∧ ArgumentsViable l) :
    ChainViable levels := by
  intro stop power left ts e h
  by_cases hends : Ends power ts
  · rw [readChain_of_ends hends] at h
    cases h
  · rcases ts with _ | ⟨⟨kind, p⟩, ts⟩
    · exact absurd trivial hends
    · cases kind with
      | lparen =>
        cases levels with
        | zero =>
          rw [readChain_lparen_zero] at h
          cases h
          refine ⟨[], ⟨.lparen, p⟩ :: ts, rfl, rfl, .level fun stop' us hus => ?_⟩
          obtain ⟨q, behind, rfl⟩ := hus.exists_cons
          exact ⟨_, readChain_lparen_zero⟩
        | succ l =>
          obtain ⟨-, hchain, harguments⟩ := ih l (Nat.lt_succ_self l)
          rw [readChain_lparen] at h
          rcases eq_error_of_bind h with hargs | ⟨args, behind, hargs, hnext⟩
          · obtain ⟨used, found, rfl, hplace, hfails⟩ := harguments hargs
            exact ⟨⟨.lparen, p⟩ :: used, found, rfl, hplace, hfails.call⟩
          · obtain ⟨used, rfl, hargs'⟩ := (localities l).2.2 hargs
            obtain ⟨used', found, rfl, hplace, hfails⟩ := hchain hnext
            exact ⟨⟨.lparen, p⟩ :: (used ++ used'), found, by simp, hplace, hfails.call hargs'⟩
      | operator op =>
        have hpower : power ≤ leftPower op := Nat.not_lt.mp hends
        cases levels with
        | zero =>
          rw [readChain_operator_zero hpower] at h
          cases h
          refine ⟨[], ⟨.operator op, p⟩ :: ts, rfl, rfl, .level fun stop' us hus => ?_⟩
          obtain ⟨q, behind, rfl⟩ := hus.exists_cons
          exact ⟨_, readChain_operator_zero hpower⟩
        | succ l =>
          obtain ⟨hexpression, hchain, -⟩ := ih l (Nat.lt_succ_self l)
          rw [readChain_operator hpower] at h
          rcases eq_error_of_bind h with hright | ⟨right, behind, hright, hnext⟩
          · obtain ⟨used, found, rfl, hplace, hfails⟩ := hexpression hright
            exact ⟨⟨.operator op, p⟩ :: used, found, rfl, hplace, hfails.link hpower⟩
          · obtain ⟨hstops, used, rfl, hright'⟩ := (localities l).1 hright
            obtain ⟨used', found, rfl, hplace, hfails⟩ := hchain hnext
            exact ⟨⟨.operator op, p⟩ :: (used ++ used'), found, by simp, hplace,
              hfails.link hpower hright' hstops⟩
      | literal | name | rparen | comma | equals | newline => exact absurd trivial hends

theorem expressionViable_of_lt
    (ih : ∀ l < levels, ExpressionViable l ∧ ChainViable l ∧ ArgumentsViable l) :
    ExpressionViable levels := by
  intro stop power ts e h
  rcases ts with _ | ⟨⟨kind, p⟩, ts⟩
  · rw [readExpression_nil] at h
    cases h
    refine ⟨[], [], rfl, rfl, .operand fun stop' us hus => ?_⟩
    rw [hus.eq_nil]
    exact ⟨_, readExpression_nil⟩
  · cases kind with
    | literal value =>
      rw [readExpression_literal] at h
      obtain ⟨used, found, rfl, hplace, hfails⟩ := chainViable_of_lt ih h
      exact ⟨⟨.literal value, p⟩ :: used, found, rfl, hplace, hfails.literal⟩
    | name word =>
      rw [readExpression_name] at h
      obtain ⟨used, found, rfl, hplace, hfails⟩ := chainViable_of_lt ih h
      exact ⟨⟨.name word, p⟩ :: used, found, rfl, hplace, hfails.name⟩
    | lparen =>
      cases levels with
      | zero =>
        rw [readExpression_lparen_zero] at h
        cases h
        refine ⟨[], ⟨.lparen, p⟩ :: ts, rfl, rfl, .operand fun stop' us hus => ?_⟩
        obtain ⟨q, behind, rfl⟩ := hus.exists_cons
        exact ⟨_, readExpression_lparen_zero⟩
      | succ l =>
        obtain ⟨hexpression, hchain, -⟩ := ih l (Nat.lt_succ_self l)
        cases hinner : readExpression stop l 0 ts with
        | error e' =>
          rw [readExpression_lparen, hinner] at h
          cases h
          obtain ⟨used, found, rfl, hplace, hfails⟩ := hexpression hinner
          exact ⟨⟨.lparen, p⟩ :: used, found, rfl, hplace, hfails.parentheses⟩
        | ok inner =>
          obtain ⟨inner, behind⟩ := inner
          obtain ⟨hends, used, rfl, hinner'⟩ := (localities l).1 hinner
          by_cases hclosing : ∃ q rest, behind = ⟨.rparen, q⟩ :: rest
          · obtain ⟨q, rest, rfl⟩ := hclosing
            rw [readExpression_parentheses hinner] at h
            obtain ⟨used', found, rfl, hplace, hfails⟩ := hchain h
            exact ⟨⟨.lparen, p⟩ :: (used ++ ⟨.rparen, q⟩ :: used'), found, by simp, hplace,
              hfails.parentheses hinner'⟩
          · have hfound : ∀ q rest, behind ≠ ⟨.rparen, q⟩ :: rest :=
              fun q rest heq => hclosing ⟨q, rest, heq⟩
            rw [readExpression_unclosed hinner hfound] at h
            cases h
            exact ⟨⟨.lparen, p⟩ :: used, behind, rfl, position_unexpected _,
              hinner'.unclosed hends hfound⟩
    | operator op =>
      cases hsign : unary? op with
      | none =>
        rw [readExpression_other (by simp) (by simp) (by simp) (by simpa using hsign)] at h
        cases h
        refine ⟨[], ⟨.operator op, p⟩ :: ts, rfl, rfl, .operand fun stop' us hus => ?_⟩
        obtain ⟨q, behind, rfl⟩ := hus.exists_cons
        exact ⟨_, readExpression_other (by simp) (by simp) (by simp) (by simpa using hsign)⟩
      | some u =>
        cases levels with
        | zero =>
          rw [readExpression_sign_zero hsign] at h
          cases h
          refine ⟨[], ⟨.operator op, p⟩ :: ts, rfl, rfl, .operand fun stop' us hus => ?_⟩
          obtain ⟨q, behind, rfl⟩ := hus.exists_cons
          exact ⟨_, readExpression_sign_zero hsign⟩
        | succ l =>
          obtain ⟨hexpression, hchain, -⟩ := ih l (Nat.lt_succ_self l)
          rw [readExpression_sign hsign] at h
          rcases eq_error_of_bind h with hoperand | ⟨operand, behind, hoperand, hnext⟩
          · obtain ⟨used, found, rfl, hplace, hfails⟩ := hexpression hoperand
            exact ⟨⟨.operator op, p⟩ :: used, found, rfl, hplace, hfails.sign hsign⟩
          · obtain ⟨hstops, used, rfl, hoperand'⟩ := (localities l).1 hoperand
            obtain ⟨used', found, rfl, hplace, hfails⟩ := hchain hnext
            exact ⟨⟨.operator op, p⟩ :: (used ++ used'), found, by simp, hplace,
              hfails.sign hsign hoperand' hstops⟩
    | rparen | comma | equals | newline =>
      rw [readExpression_other (by simp) (by simp) (by simp) (by simp)] at h
      cases h
      refine ⟨[], _ :: ts, rfl, rfl, .operand fun stop' us hus => ?_⟩
      obtain ⟨q, behind, rfl⟩ := hus.exists_cons
      exact ⟨_, readExpression_other (by simp) (by simp) (by simp) (by simp)⟩

/-- Arguments all start with the same levels, so this goes by their number. -/
theorem argumentsViable_of_expressionViable (hexpression : ExpressionViable levels) :
    ArgumentsViable levels := by
  intro stop ts
  induction hn : ts.length using Nat.strongRecOn generalizing ts with
  | _ n ih =>
    intro e h
    cases hfirst : readExpression stop levels 0 ts with
    | error e' =>
      by_cases hclosing : ∃ q behind, ts = ⟨.rparen, q⟩ :: behind
      · obtain ⟨q, behind, rfl⟩ := hclosing
        rw [readArguments_rparen] at h
        cases h
      · have hopen : ∀ q behind, ts ≠ ⟨.rparen, q⟩ :: behind :=
          fun q behind heq => hclosing ⟨q, behind, heq⟩
        rw [readArguments_first hopen, hfirst] at h
        cases h
        obtain ⟨used, found, rfl, hplace, hfails⟩ := hexpression hfirst
        exact ⟨used, found, rfl, hplace, hfails.argument hopen⟩
    | ok first =>
      obtain ⟨first, behind⟩ := first
      have hlt := length_lt_of_readExpression hfirst
      obtain ⟨hends, used, rfl, hfirst'⟩ := (localities levels).1 hfirst
      by_cases hclosing : ∃ q rest, behind = ⟨.rparen, q⟩ :: rest
      · obtain ⟨q, rest, rfl⟩ := hclosing
        rw [readArguments_last hfirst] at h
        cases h
      · by_cases hcomma : ∃ q rest, behind = ⟨.comma, q⟩ :: rest
        · obtain ⟨q, rest, rfl⟩ := hcomma
          rw [readArguments_comma hfirst] at h
          rcases eq_error_of_bind h with hmore | ⟨more, rest', hmore, hdone⟩
          · obtain ⟨used', found, rfl, hplace, hfails⟩ :=
              ih rest.length (by rw [List.length_cons] at hlt; omega) rfl hmore
            exact ⟨used ++ ⟨.comma, q⟩ :: used', found, by simp, hplace, hfails.cons hfirst'⟩
          · cases hdone
        · have hclosing' : ∀ q rest, behind ≠ ⟨.rparen, q⟩ :: rest :=
            fun q rest heq => hclosing ⟨q, rest, heq⟩
          have hcomma' : ∀ q rest, behind ≠ ⟨.comma, q⟩ :: rest :=
            fun q rest heq => hcomma ⟨q, rest, heq⟩
          rw [readArguments_unseparated hfirst hcomma' hclosing'] at h
          cases h
          exact ⟨used, behind, rfl, position_unexpected _,
            hfirst'.unseparated hends hclosing' hcomma'⟩

/-- However many levels there are, errors come neither too late nor too early. -/
theorem viabilities (levels : Nat) :
    ExpressionViable levels ∧ ChainViable levels ∧ ArgumentsViable levels := by
  induction levels using Nat.strongRecOn with
  | _ levels ih =>
    have hexpression : ExpressionViable levels := expressionViable_of_lt ih
    exact ⟨hexpression, chainViable_of_lt ih, argumentsViable_of_expressionViable hexpression⟩

/-! ## Statements -/

/-- Reading a statement fails behind the tokens used. -/
structure StatementFails (used found : List Token) : Prop where
  /-- The first token found rules every continuation out. -/
  late : ∀ stop us, SameHead us found → ∃ e, readStatement stop (used ++ us) = .error e
  /-- What was used can be completed at the end of a script. -/
  early : ∃ more s, ∀ stop, readStatement stop (used ++ more) = .ok (s, [])

theorem ExpressionFails.assign {word : String} {q : Position}
    (h : ExpressionFails maxNesting 0 used found) :
    StatementFails (⟨.name word, p⟩ :: ⟨.equals, q⟩ :: used) found where
  late stop us hus := by
    obtain ⟨e, he⟩ := h.late stop us hus
    rw [List.cons_append, List.cons_append, readStatement_assign, he]
    exact ⟨e, rfl⟩
  early := by
    obtain ⟨more, a, hmore⟩ := h.early
    refine ⟨more, .assign word a, fun stop => ?_⟩
    have hread := hmore stop [] ends_nil
    rw [List.append_nil] at hread
    rw [List.cons_append, List.cons_append, readStatement_assign, hread]
    rfl

/-- A bare expression that fails is not the beginning of an assignment, and completing it makes no
assignment of it: the target of an assignment can be read, and the equals sign is left. -/
theorem ExpressionFails.expr (h : ExpressionFails maxNesting 0 used found) :
    StatementFails used found where
  late stop us hus := by
    obtain ⟨e, he⟩ := h.late stop us hus
    have hbare : ∀ word p q behind, used ++ us ≠ ⟨.name word, p⟩ :: ⟨.equals, q⟩ :: behind := by
      intro word p q behind heq
      rw [heq, readExpression_assignment] at he
      cases he
    rw [readStatement_expr hbare, he]
    exact ⟨e, rfl⟩
  early := by
    obtain ⟨more, a, hmore⟩ := h.early
    refine ⟨more, .expr a, fun stop => ?_⟩
    have hread := hmore stop [] ends_nil
    rw [List.append_nil] at hread
    have hbare : ∀ word p q behind, used ++ more ≠ ⟨.name word, p⟩ :: ⟨.equals, q⟩ :: behind := by
      intro word p q behind heq
      rw [heq, readExpression_assignment] at hread
      cases hread
    rw [readStatement_expr hbare, hread]
    rfl

theorem statementFails_of_readStatement {e : SyntaxError} (h : readStatement stop ts = .error e) :
    ∃ used found, ts = used ++ found ∧ e.position = place stop found ∧
      StatementFails used found := by
  obtain ⟨hexpression, -⟩ := viabilities maxNesting
  by_cases hassign : ∃ word p q behind, ts = ⟨.name word, p⟩ :: ⟨.equals, q⟩ :: behind
  · obtain ⟨word, p, q, behind, rfl⟩ := hassign
    rw [readStatement_assign] at h
    rcases eq_error_of_bind h with hvalue | ⟨value, rest, -, hdone⟩
    · obtain ⟨used, found, rfl, hplace, hfails⟩ := hexpression hvalue
      exact ⟨⟨.name word, p⟩ :: ⟨.equals, q⟩ :: used, found, rfl, hplace, hfails.assign⟩
    · cases hdone
  · rw [readStatement_expr fun word p q behind heq => hassign ⟨word, p, q, behind, heq⟩] at h
    rcases eq_error_of_bind h with hvalue | ⟨value, rest, -, hdone⟩
    · obtain ⟨used, found, rfl, hplace, hfails⟩ := hexpression hvalue
      exact ⟨used, found, rfl, hplace, hfails.expr⟩
    · cases hdone

/-! ## Scripts -/

/-- Reading a script fails behind the tokens used. -/
structure ScriptFails (used found : List Token) : Prop where
  /-- The first token found rules every continuation out. -/
  late : ∀ stop seen us, SameHead us found → ∃ e, statements stop seen (used ++ us) = .error e
  /-- What was used can be completed. -/
  early : ∃ more, ∀ stop seen, ∃ m, statements stop seen (used ++ more) = .ok m

theorem ScriptFails.blank (h : ScriptFails used found) :
    ScriptFails (⟨.newline, p⟩ :: used) found where
  late stop seen us hus := by
    rw [List.cons_append, statements_newline]
    exact h.late stop seen us hus
  early := by
    obtain ⟨more, hmore⟩ := h.early
    refine ⟨more, fun stop seen => ?_⟩
    rw [List.cons_append, statements_newline]
    exact hmore stop seen

/-- In a statement. -/
theorem StatementFails.script {t : Token} (h : StatementFails used found)
    (hstart : used ++ found = t :: ts) (ht : t.kind ≠ .newline) : ScriptFails used found where
  late stop seen us hus := by
    obtain ⟨e, he⟩ := h.late stop us hus
    have hhead := hus.append used
    rw [hstart] at hhead
    obtain ⟨q, behind, heq⟩ := hhead.exists_cons
    have hkind : (⟨t.kind, q⟩ : Token).kind ≠ .newline := ht
    rw [heq] at he ⊢
    rw [statements_statement hkind, he]
    exact ⟨e, rfl⟩
  early := by
    obtain ⟨more, s, hmore⟩ := h.early
    exact ⟨more, fun stop seen => ⟨(s :: seen).reverse, statements_last (hmore stop)⟩⟩

/-- Behind a statement and the end of its line. -/
theorem ScriptFails.line {s : Stmt}
    (hread : ∀ stop behind, readStatement stop (used ++ ⟨.newline, p⟩ :: behind) =
      .ok (s, ⟨.newline, p⟩ :: behind))
    (h : ScriptFails used' found) : ScriptFails (used ++ ⟨.newline, p⟩ :: used') found where
  late stop seen us hus := by
    rw [List.append_assoc, List.cons_append, statements_line (hread stop _)]
    exact h.late stop _ us hus
  early := by
    obtain ⟨more, hmore⟩ := h.early
    refine ⟨more, fun stop seen => ?_⟩
    rw [List.append_assoc, List.cons_append, statements_line (hread stop _)]
    exact hmore stop _

/-- Behind a statement, on its line. -/
theorem scriptFails_of_unended {s : Stmt} {u : Token}
    (hread : ∀ stop rest, Ends 0 rest → (StartsWithEquals rest → StartsWithEquals (u :: us)) →
      readStatement stop (used ++ rest) = .ok (s, rest))
    (hends : Ends 0 (u :: us)) (hu : u.kind ≠ .newline) : ScriptFails used (u :: us) where
  late stop seen vs hvs := by
    have hequals : StartsWithEquals vs → StartsWithEquals (u :: us) := by
      rintro ⟨q, behind, rfl⟩
      obtain ⟨q', behind', heq⟩ := hvs.symm.exists_cons
      exact ⟨q', behind', heq⟩
    have hstatement := hread stop vs (hvs.ends hends) hequals
    obtain ⟨q, behind, rfl⟩ := hvs.exists_cons
    exact ⟨_, statements_unended hstatement hu⟩
  early := by
    have hnil : ∀ stop, readStatement stop (used ++ []) = .ok (s, []) := by
      refine fun stop => hread stop [] ends_nil ?_
      rintro ⟨q, behind, heq⟩
      cases heq
    exact ⟨[], fun stop seen => ⟨(s :: seen).reverse, statements_last (hnil stop)⟩⟩

/-- **Scripts fail neither too late nor too early.** -/
theorem scriptFails_of_statements {seen : List Stmt} {e : SyntaxError}
    (h : statements stop seen ts = .error e) :
    ∃ used found, ts = used ++ found ∧ e.position = place stop found ∧ ScriptFails used found := by
  induction hn : ts.length using Nat.strongRecOn generalizing ts seen with
  | _ n ih =>
    rcases ts with _ | ⟨t, ts⟩
    · rw [statements_nil] at h
      cases h
    · by_cases hnewline : t.kind = .newline
      · obtain ⟨kind, p⟩ := t
        obtain rfl : kind = .newline := hnewline
        rw [statements_newline] at h
        obtain ⟨used, found, rfl, hplace, hfails⟩ :=
          ih ts.length (by rw [← hn]; exact Nat.lt_succ_self _) h rfl
        exact ⟨⟨.newline, p⟩ :: used, found, rfl, hplace, hfails.blank⟩
      · cases hread : readStatement stop (t :: ts) with
        | error e' =>
          rw [statements_statement hnewline, hread] at h
          cases h
          obtain ⟨used, found, heq, hplace, hfails⟩ := statementFails_of_readStatement hread
          exact ⟨used, found, heq, hplace, hfails.script heq.symm hnewline⟩
        | ok first =>
          obtain ⟨s, rest⟩ := first
          have hlt := length_lt_of_readStatement hread
          obtain ⟨hends, used, heq, hread'⟩ := exists_used_of_readStatement hread
          rcases rest with _ | ⟨u, behind⟩
          · rw [statements_last hread] at h
            cases h
          · by_cases hline : u.kind = .newline
            · obtain ⟨kind, p⟩ := u
              obtain rfl : kind = .newline := hline
              rw [statements_line hread] at h
              obtain ⟨used', found, rfl, hplace, hfails⟩ :=
                ih behind.length (by rw [List.length_cons] at hlt; omega) h rfl
              have hline : ∀ stop rest, readStatement stop (used ++ ⟨.newline, p⟩ :: rest) =
                  .ok (s, ⟨.newline, p⟩ :: rest) := fun stop rest =>
                hread' stop _ ends_newline fun h => absurd h not_startsWithEquals_newline
              exact ⟨used ++ ⟨.newline, p⟩ :: used', found, by simp [heq], hplace,
                hfails.line hline⟩
            · rw [statements_unended hread hline] at h
              cases h
              exact ⟨used, u :: behind, heq, rfl, scriptFails_of_unended hread' hends hline⟩

/-- Where tokens stand does not decide whether they are a script. -/
theorem exists_error_of_kinds {stop' : Position} {e : SyntaxError}
    (h : List.Forall₂ (Token.Alike fun _ _ => True) ts us)
    (herror : statements stop [] ts = .error e) : ∃ e', statements stop' [] us = .error e' := by
  have halike : Alike (fun _ _ => True) _ (statements stop [] ts) (statements stop' [] us) :=
    statements_alike trivial h
  rw [herror] at halike
  generalize statements stop' [] us = r at halike
  cases halike with
  | error => exact ⟨_, rfl⟩

end Parser

/-! ## Streams -/

namespace TokenStream

/-- The kinds of the tokens of a stream; the end is the last of them. -/
def kinds (s : TokenStream) : List (Option TokenKind) :=
  s.tokens.map (fun t => some t.kind) ++ [none]

/-- Where the tokens of a stream stand; the end is the last of them. -/
def places (s : TokenStream) : List Position :=
  s.tokens.map Token.position ++ [s.stop]

/-- Streams that agree up to some token agree in those before it, and are then at the same kind of
token. -/
theorem exists_used_of_take_kinds {used found ts : List Token} {stop stop' : Position}
    (h : (TokenStream.mk ts stop').kinds.take (used.length + 1) =
      (TokenStream.mk (used ++ found) stop).kinds.take (used.length + 1)) :
    ∃ used' us, ts = used' ++ us ∧ List.Forall₂ (Token.Alike fun _ _ => True) used used' ∧
      Parser.SameHead us found := by
  induction used generalizing ts with
  | nil =>
    refine ⟨[], ts, rfl, .nil, ?_⟩
    rw [Parser.SameHead]
    cases ts <;> cases found <;> simp_all [kinds]
  | cons t used ih =>
    cases ts with
    | nil => simp [kinds] at h
    | cons t' ts =>
      simp only [kinds, List.cons_append, List.map_cons, List.length_cons, List.take_succ_cons,
        List.cons.injEq, Option.some.injEq] at h
      obtain ⟨used', us, rfl, hused, hhead⟩ := ih h.2
      exact ⟨t' :: used', us, rfl, .cons ⟨h.1.symm, trivial⟩ hused, hhead⟩

end TokenStream

/-- **Syntax errors point at the first impossible token.**  If a text has tokens but is no script,
the error points at one of its tokens, or at its end, such that no stream of tokens which agrees
with those of the text up to this one can be parsed, while those before it can be continued to a
stream that can. -/
theorem Script.error_first_impossible {source : String} {s : TokenStream} {e : SyntaxError}
    (htokens : TokenStream.ofText source = .ok s) (h : Script.ofText source = .error e) :
    ∃ k, s.places[k]? = some e.position ∧
      (∀ s' : TokenStream, s'.kinds.take (k + 1) = s.kinds.take (k + 1) →
        ∀ m, s'.parse ≠ .ok m) ∧
      ∃ more stop m, (TokenStream.mk (s.tokens.take k ++ more) stop).parse = .ok m := by
  obtain ⟨tokens, stop⟩ := s
  rw [Script.ofText, htokens] at h
  obtain ⟨used, found, rfl, hplace, hfails⟩ := Parser.scriptFails_of_statements h
  refine ⟨used.length, ?_, ?_, ?_⟩
  · rw [hplace]
    cases found <;> simp [TokenStream.places, Parser.place]
  · rintro ⟨ts, stop'⟩ hkinds m hm
    obtain ⟨used', us, rfl, hused, hhead⟩ := TokenStream.exists_used_of_take_kinds hkinds
    obtain ⟨e', he⟩ := hfails.late stop' [] us hhead
    have hrest : List.Forall₂ (Token.Alike fun _ _ => True) us us :=
      List.forall₂_same.mpr fun _ _ => ⟨rfl, trivial⟩
    obtain ⟨e'', he'⟩ := Parser.exists_error_of_kinds (List.rel_append hused hrest) he
    cases he'.symm.trans hm
  · obtain ⟨more, hmore⟩ := hfails.early
    obtain ⟨m, hm⟩ := hmore stop []
    refine ⟨more, stop, m, ?_⟩
    rw [List.take_left]
    exact hm

/-- The tokens of `x = (1 +)`. -/
def unfinishedSum : TokenStream :=
  ⟨[⟨.name "x", ⟨1, 1⟩⟩, ⟨.equals, ⟨1, 3⟩⟩, ⟨.lparen, ⟨1, 5⟩⟩, ⟨.literal (.int 1), ⟨1, 6⟩⟩,
    ⟨.operator .add, ⟨1, 8⟩⟩, ⟨.rparen, ⟨1, 9⟩⟩], ⟨1, 10⟩⟩

theorem ofText_unfinishedSum : TokenStream.ofText "x = (1 +)" = .ok unfinishedSum := by cbv

theorem error_unfinishedSum :
    Script.ofText "x = (1 +)" = .error ⟨⟨1, 9⟩, .expectedExpression (some .rparen)⟩ := by cbv

/-- In `x = (1 +)` it is the closing parenthesis that comes too early. -/
theorem Script.error_first_impossible_unfinishedSum :
    TokenStream.ofText "x = (1 +)" = .ok unfinishedSum ∧
      Script.ofText "x = (1 +)" = .error ⟨⟨1, 9⟩, .expectedExpression (some .rparen)⟩ ∧
      ∃ k, unfinishedSum.places[k]? = some ⟨1, 9⟩ ∧
        (∀ s' : TokenStream, s'.kinds.take (k + 1) = unfinishedSum.kinds.take (k + 1) →
          ∀ m, s'.parse ≠ .ok m) ∧
        ∃ more stop m,
          (TokenStream.mk (unfinishedSum.tokens.take k ++ more) stop).parse = .ok m :=
  ⟨ofText_unfinishedSum, error_unfinishedSum,
    Script.error_first_impossible ofText_unfinishedSum error_unfinishedSum⟩

end StackScript
