import Mathlib.Data.List.Forall2
import StackScript.Proofs.Script.Completeness

/-!
# What the parser looks at

Two facts about runs of the parser, which make it possible to compare runs on different tokens.

## 1.  A phrase is read without regard to what follows it

What is read as an expression from the head of some tokens is read in the same way in front of
any other tokens, as long as these do not extend it (`ReadsAs`, `localities`).  One token
behind the phrase is looked at, and only to see whether it extends the phrase; levels that were
taken inside the phrase are of no account behind it.

## 2.  Places do not matter

Two token streams of the same kinds are read alike: both give the same tree, or both give an error
of the same cause at the same token (`alikes`, `statements_alike`).  This is stated for any
relation between the places of the one stream and those of the other, and the places of the two
errors are then so related.
-/

namespace StackScript

namespace Parser

variable {levels power : Nat} {pos : Position} {ts us rest : List Token}

/-! ## What may follow -/

/-- Whether something may follow is told by its first token. -/
theorem ends_append {used rest' : List Token} (h : Ends power (used ++ rest))
    (h' : used = [] → Ends power rest') : Ends power (used ++ rest') := by
  cases used with
  | nil => exact h' rfl
  | cons t used => exact h

/-- No operator binds as tightly as a sign. -/
theorem leftPower_lt_prefixPower (op : BinaryOp) : leftPower op < prefixPower := by
  cases op <;> decide

theorem Ends.prefixPower (h : Ends power ts) : Ends prefixPower ts := by
  rcases ts with _ | ⟨⟨kind, p⟩, ts⟩
  · trivial
  · cases kind with
    | lparen => exact h.elim
    | operator op => exact leftPower_lt_prefixPower op
    | literal | name | rparen | comma | equals | newline => trivial

theorem ends_newline : Ends power (⟨.newline, pos⟩ :: rest) := trivial

/-! ## Phrases -/

/-- The tokens are read as the expression in front of anything that does not extend it. -/
def ReadsAs (levels power : Nat) (ts : List Token) (e : Expr) : Prop :=
  ∀ stop rest, Ends power rest → readExpression stop levels power (ts ++ rest) = .ok (e, rest)

/-- The tokens extend the operand to the expression in front of anything that does not extend it
further. -/
def Extends (levels power : Nat) (left : Expr) (ts : List Token) (e : Expr) : Prop :=
  ∀ stop rest, Ends power rest → readChain stop levels power left (ts ++ rest) = .ok (e, rest)

/-- The tokens are read as the arguments, the closing parenthesis among them. -/
def ReadsArguments (levels : Nat) (ts : List Token) (args : List Expr) : Prop :=
  ∀ stop rest, readArguments stop levels (ts ++ rest) = .ok (args, rest)

theorem Extends.nil {e : Expr} : Extends levels power e [] e :=
  fun _ _ hends => readChain_of_ends hends

theorem Extends.call {l : Nat} {left e : Expr} {args : List Expr}
    (hargs : ReadsArguments l ts args) (h : Extends l power (.call left args) us e) :
    Extends (l + 1) power left (⟨.lparen, pos⟩ :: (ts ++ us)) e := by
  intro stop rest hends
  rw [List.cons_append, List.append_assoc, readChain_lparen, hargs]
  exact h stop rest hends

theorem Extends.link {l : Nat} {op : BinaryOp} {left right e : Expr} (hpower : power ≤ leftPower op)
    (hright : ReadsAs l (rightPower op) ts right)
    (hstops : ∀ rest, Ends power rest → Ends (rightPower op) (us ++ rest))
    (h : Extends l power (.binary op left right) us e) :
    Extends (l + 1) power left (⟨.operator op, pos⟩ :: (ts ++ us)) e := by
  intro stop rest hends
  rw [List.cons_append, List.append_assoc, readChain_operator hpower,
    hright stop _ (hstops rest hends)]
  exact h stop rest hends

theorem ReadsAs.literal {value : Constant} {e : Expr}
    (h : Extends levels power (.constant value) ts e) :
    ReadsAs levels power (⟨.literal value, pos⟩ :: ts) e := by
  intro stop rest hends
  rw [List.cons_append, readExpression_literal, h stop rest hends]

theorem ReadsAs.name {word : String} {e : Expr} (h : Extends levels power (.name word) ts e) :
    ReadsAs levels power (⟨.name word, pos⟩ :: ts) e := by
  intro stop rest hends
  rw [List.cons_append, readExpression_name, h stop rest hends]

theorem ReadsAs.parentheses {l : Nat} {q : Position} {inner e : Expr}
    (hinner : ReadsAs l 0 ts inner) (h : Extends l power inner us e) :
    ReadsAs (l + 1) power (⟨.lparen, pos⟩ :: (ts ++ ⟨.rparen, q⟩ :: us)) e := by
  intro stop rest hends
  rw [List.cons_append, List.append_assoc, List.cons_append,
    readExpression_parentheses (hinner stop _ ends_rparen), h stop rest hends]

theorem ReadsAs.sign {l : Nat} {op : BinaryOp} {u : UnaryOp} {operand e : Expr}
    (hsign : unary? op = some u) (hoperand : ReadsAs l prefixPower ts operand)
    (hstops : ∀ rest, Ends power rest → Ends prefixPower (us ++ rest))
    (h : Extends l power (.unary u operand) us e) :
    ReadsAs (l + 1) power (⟨.operator op, pos⟩ :: (ts ++ us)) e := by
  intro stop rest hends
  rw [List.cons_append, List.append_assoc, readExpression_sign hsign,
    hoperand stop _ (hstops rest hends)]
  exact h stop rest hends

theorem ReadsArguments.nil : ReadsArguments levels [⟨.rparen, pos⟩] [] :=
  fun _ _ => readArguments_rparen

theorem ReadsAs.argument {e : Expr} (h : ReadsAs levels 0 ts e) :
    ReadsArguments levels (ts ++ [⟨.rparen, pos⟩]) [e] := by
  intro stop rest
  rw [List.append_assoc, List.singleton_append]
  exact readArguments_last (h stop _ ends_rparen)

theorem ReadsArguments.cons {e : Expr} {args : List Expr} (h : ReadsAs levels 0 ts e)
    (hargs : ReadsArguments levels us args) :
    ReadsArguments levels (ts ++ ⟨.comma, pos⟩ :: us) (e :: args) := by
  intro stop rest
  rw [List.append_assoc, List.cons_append]
  exact readArguments_cons (h stop _ ends_comma) (hargs stop rest)

/-! ## What is read is a phrase -/

/-- Expressions read with so many levels do not depend on what follows them, nor on where the
script ends. -/
def ExpressionLocal (levels : Nat) : Prop :=
  ∀ ⦃stop : Position⦄ ⦃power : Nat⦄ ⦃ts rest : List Token⦄ ⦃e : Expr⦄,
    readExpression stop levels power ts = .ok (e, rest) →
      Ends power rest ∧ ∃ used, ts = used ++ rest ∧ ReadsAs levels power used e

/-- Operands extended with so many levels do not depend on what follows them. -/
def ChainLocal (levels : Nat) : Prop :=
  ∀ ⦃stop : Position⦄ ⦃power : Nat⦄ ⦃ts rest : List Token⦄ ⦃left e : Expr⦄,
    readChain stop levels power left ts = .ok (e, rest) →
      Ends power rest ∧ ∃ used, ts = used ++ rest ∧ Extends levels power left used e

/-- Arguments read with so many levels do not depend on what follows them. -/
def ArgumentsLocal (levels : Nat) : Prop :=
  ∀ ⦃stop : Position⦄ ⦃ts rest : List Token⦄ ⦃args : List Expr⦄,
    readArguments stop levels ts = .ok (args, rest) →
      ∃ used, ts = used ++ rest ∧ ReadsArguments levels used args

theorem chainLocal_of_lt
    (ih : ∀ l < levels, ExpressionLocal l ∧ ChainLocal l ∧ ArgumentsLocal l) :
    ChainLocal levels := by
  intro stop power ts rest left e h
  rcases readChain_cases h with ⟨rfl, rfl, hends⟩ |
    ⟨l, args, p, middle, behind, rfl, rfl, hargs, hnext⟩ |
    ⟨l, op, right, p, middle, behind, rfl, rfl, hpower, hright, hnext⟩
  · exact ⟨hends, [], rfl, .nil⟩
  · obtain ⟨-, hchain, harguments⟩ := ih l (Nat.lt_succ_self l)
    obtain ⟨used, rfl, hargs'⟩ := harguments hargs
    obtain ⟨hends, used', rfl, hnext'⟩ := hchain hnext
    exact ⟨hends, ⟨.lparen, p⟩ :: (used ++ used'), by simp, .call hargs' hnext'⟩
  · obtain ⟨hexpression, hchain, -⟩ := ih l (Nat.lt_succ_self l)
    obtain ⟨hstops, used, rfl, hright'⟩ := hexpression hright
    obtain ⟨hends, used', rfl, hnext'⟩ := hchain hnext
    have hstops' : ∀ rest', Ends power rest' → Ends (rightPower op) (used' ++ rest') :=
      fun rest' hends' => ends_append hstops fun _ => hends'.mono (Nat.le_succ_of_le hpower)
    exact ⟨hends, ⟨.operator op, p⟩ :: (used ++ used'), by simp,
      .link hpower hright' hstops' hnext'⟩

theorem expressionLocal_of_lt
    (ih : ∀ l < levels, ExpressionLocal l ∧ ChainLocal l ∧ ArgumentsLocal l) :
    ExpressionLocal levels := by
  intro stop power ts rest e h
  have hchain := chainLocal_of_lt ih
  rcases readExpression_cases h with ⟨value, p, behind, rfl, hnext⟩ |
    ⟨word, p, behind, rfl, hnext⟩ | ⟨l, inner, p, q, middle, behind, rfl, rfl, hinner, hnext⟩ |
    ⟨l, op, u, operand, p, middle, behind, rfl, rfl, hsign, hoperand, hnext⟩
  · obtain ⟨hends, used, rfl, hnext'⟩ := hchain hnext
    exact ⟨hends, ⟨.literal value, p⟩ :: used, rfl, .literal hnext'⟩
  · obtain ⟨hends, used, rfl, hnext'⟩ := hchain hnext
    exact ⟨hends, ⟨.name word, p⟩ :: used, rfl, .name hnext'⟩
  · obtain ⟨hexpression, hchain, -⟩ := ih l (Nat.lt_succ_self l)
    obtain ⟨-, used, rfl, hinner'⟩ := hexpression hinner
    obtain ⟨hends, used', rfl, hnext'⟩ := hchain hnext
    exact ⟨hends, ⟨.lparen, p⟩ :: (used ++ ⟨.rparen, q⟩ :: used'), by simp,
      .parentheses hinner' hnext'⟩
  · obtain ⟨hexpression, hchain, -⟩ := ih l (Nat.lt_succ_self l)
    obtain ⟨hstops, used, rfl, hoperand'⟩ := hexpression hoperand
    obtain ⟨hends, used', rfl, hnext'⟩ := hchain hnext
    have hstops' : ∀ rest', Ends power rest' → Ends prefixPower (used' ++ rest') :=
      fun rest' hends' => ends_append hstops fun _ => hends'.prefixPower
    exact ⟨hends, ⟨.operator op, p⟩ :: (used ++ used'), by simp,
      .sign hsign hoperand' hstops' hnext'⟩

/-- Arguments all start with the same levels, so this goes by their number. -/
theorem argumentsLocal_of_expressionLocal (h : ExpressionLocal levels) :
    ArgumentsLocal levels := by
  intro stop ts
  induction hn : ts.length using Nat.strongRecOn generalizing ts with
  | _ n ih =>
    intro rest args hread
    rcases readArguments_cases hread with ⟨p, rfl, rfl⟩ |
      ⟨first, more, p, behind, rfl, hfirst, hmore⟩ | ⟨first, p, rfl, hfirst⟩
    · exact ⟨[⟨.rparen, p⟩], rfl, .nil⟩
    · have hlt := length_lt_of_readExpression hfirst
      obtain ⟨-, used, rfl, hfirst'⟩ := h hfirst
      obtain ⟨used', rfl, hmore'⟩ :=
        ih behind.length (by rw [List.length_cons] at hlt; omega) rfl hmore
      exact ⟨used ++ ⟨.comma, p⟩ :: used', by simp, .cons hfirst' hmore'⟩
    · obtain ⟨-, used, rfl, hfirst'⟩ := h hfirst
      exact ⟨used ++ [⟨.rparen, p⟩], by simp, hfirst'.argument⟩

/-- **What is read does not depend on what follows it**, however many levels there are. -/
theorem localities (levels : Nat) :
    ExpressionLocal levels ∧ ChainLocal levels ∧ ArgumentsLocal levels := by
  induction levels using Nat.strongRecOn with
  | _ levels ih =>
    have hexpression : ExpressionLocal levels := expressionLocal_of_lt ih
    exact ⟨hexpression, chainLocal_of_lt ih, argumentsLocal_of_expressionLocal hexpression⟩

/-! ## Statements -/

/-- The tokens start with an equals sign. -/
def StartsWithEquals (ts : List Token) : Prop := ∃ p behind, ts = ⟨.equals, p⟩ :: behind

theorem not_startsWithEquals_newline : ¬StartsWithEquals (⟨.newline, pos⟩ :: ts) := by
  rintro ⟨p, behind, heq⟩
  cases heq

/-- If an assignment is read as an expression, that is its target only. -/
theorem readExpression_assignment {stop : Position} {word : String} {p q : Position} :
    readExpression stop levels power (⟨.name word, p⟩ :: ⟨.equals, q⟩ :: ts) =
      .ok (.name word, ⟨.equals, q⟩ :: ts) := by
  rw [readExpression_name]
  exact readChain_of_ends trivial

/-- A statement is read in the same way whatever follows it, if that does not extend it and makes
no assignment of it. -/
theorem exists_used_of_readStatement {stop : Position} {s : Stmt}
    (h : readStatement stop ts = .ok (s, rest)) :
    Ends 0 rest ∧ ∃ used, ts = used ++ rest ∧
      ∀ stop' rest', Ends 0 rest' → (StartsWithEquals rest' → StartsWithEquals rest) →
        readStatement stop' (used ++ rest') = .ok (s, rest') := by
  obtain ⟨hlocal, -⟩ := localities maxNesting
  by_cases hassign : ∃ word p q behind, ts = ⟨.name word, p⟩ :: ⟨.equals, q⟩ :: behind
  · obtain ⟨word, p, q, behind, rfl⟩ := hassign
    rw [readStatement_assign] at h
    obtain ⟨value, found, hread, hdone⟩ := eq_ok_of_bind h
    cases hdone
    obtain ⟨hends, used, rfl, hread'⟩ := hlocal hread
    refine ⟨hends, ⟨.name word, p⟩ :: ⟨.equals, q⟩ :: used, rfl, fun stop' rest' hends' _ => ?_⟩
    rw [List.cons_append, List.cons_append, readStatement_assign, hread' stop' rest' hends']
    rfl
  · have hbare : ∀ word p q behind, ts ≠ ⟨.name word, p⟩ :: ⟨.equals, q⟩ :: behind :=
      fun word p q behind heq => hassign ⟨word, p, q, behind, heq⟩
    rw [readStatement_expr hbare] at h
    obtain ⟨value, found, hread, hdone⟩ := eq_ok_of_bind h
    cases hdone
    obtain ⟨hends, used, rfl, hread'⟩ := hlocal hread
    refine ⟨hends, used, rfl, fun stop' rest' hends' hequals => ?_⟩
    rw [readStatement_expr, hread' stop' rest' hends']
    · rfl
    · intro word p q behind heq
      -- the expression is the target, so an equals sign follows it here and, by hypothesis, there
      have htarget := hread' stop' rest' hends'
      rw [heq, readExpression_assignment] at htarget
      cases htarget
      obtain ⟨r, behind', rfl⟩ := hequals ⟨q, behind, rfl⟩
      obtain rfl : used = [⟨.name word, p⟩] :=
        List.append_cancel_right (heq.trans (List.singleton_append).symm)
      exact hbare word p r behind' rfl

end Parser

/-! ## Where the tokens stand -/

section Alike

variable {R : Position → Position → Prop}

/-- Two tokens are of one kind, and their places are related. -/
structure Token.Alike (R : Position → Position → Prop) (t u : Token) : Prop where
  /-- They are of one kind. -/
  kind : t.kind = u.kind
  /-- Their places are related. -/
  position : R t.position u.position

theorem Token.Alike.flip {t u : Token} (h : Token.Alike R t u) : Token.Alike (flip R) u t :=
  ⟨h.kind.symm, h.position⟩

/-- Two answers agree: the results are related, or the errors have one cause and related places. -/
inductive Alike {α : Type} (R : Position → Position → Prop) (S : α → α → Prop) :
    Except SyntaxError α → Except SyntaxError α → Prop
  | ok {a b : α} (h : S a b) : Alike R S (.ok a) (.ok b)
  | error {p q : Position} {cause : SyntaxError.Cause} (h : R p q) :
      Alike R S (.error ⟨p, cause⟩) (.error ⟨q, cause⟩)

/-- One thing was read, and the tokens behind it are alike. -/
structure Parser.Rests {α : Type} (R : Position → Position → Prop) (x y : α × List Token) :
    Prop where
  /-- The same was read. -/
  value : x.1 = y.1
  /-- What follows is alike. -/
  rest : List.Forall₂ (Token.Alike R) x.2 y.2

/-- Going on alike from answers that agree. -/
theorem Alike.bind {α β : Type} {S : α → α → Prop} {S' : β → β → Prop}
    {x y : Except SyntaxError α} {f g : α → Except SyntaxError β} (h : Alike R S x y)
    (hnext : ∀ a b, x = .ok a → S a b → Alike R S' (f a) (g b)) :
    Alike R S' (x >>= f) (y >>= g) := by
  cases h with
  | ok h => exact hnext _ _ rfl h
  | error h => exact .error h

theorem Alike.mono {α : Type} {S S' : α → α → Prop} {x y : Except SyntaxError α}
    (h : Alike R S x y) (hS : ∀ a b, S a b → S' a b) : Alike R S' x y := by
  cases h with
  | ok h => exact .ok (hS _ _ h)
  | error h => exact .error h

namespace Parser

variable {stop stop' : Position} {levels power : Nat} {ts us : List Token}

theorem alike_unexpected {α : Type} {S : α → α → Prop}
    {cause : Option TokenKind → SyntaxError.Cause} (hstop : R stop stop')
    (h : List.Forall₂ (Token.Alike R) ts us) :
    Alike R S (.error (unexpected stop cause ts)) (.error (unexpected stop' cause us)) := by
  cases h with
  | nil => exact .error hstop
  | cons ht _ =>
    rw [unexpected, unexpected, ht.kind]
    exact .error ht.position

theorem alike_tooDeep {α : Type} {S : α → α → Prop} {t u : Token} (h : Token.Alike R t u) :
    Alike R S (.error (tooDeep t)) (.error (tooDeep u)) := by
  rw [tooDeep, tooDeep, h.kind]
  exact .error h.position

/-- Tokens alike start with a closing parenthesis both or neither. -/
theorem exists_rparen_of_alike {p : Position} {behind : List Token}
    (h : List.Forall₂ (Token.Alike R) ts (⟨.rparen, p⟩ :: behind)) :
    ∃ q behind', ts = ⟨.rparen, q⟩ :: behind' := by
  cases h with
  | @cons t u ts us ht _ =>
    obtain ⟨kind, q⟩ := t
    obtain rfl : kind = .rparen := ht.kind
    exact ⟨q, ts, rfl⟩

/-- Expressions are read alike with so many levels. -/
def ExpressionAlike (R : Position → Position → Prop) (levels : Nat) : Prop :=
  ∀ ⦃stop stop' : Position⦄ ⦃power : Nat⦄ ⦃ts us : List Token⦄, R stop stop' →
    List.Forall₂ (Token.Alike R) ts us →
      Alike R (Rests R) (readExpression stop levels power ts) (readExpression stop' levels power us)

/-- Operands are extended alike with so many levels. -/
def ChainAlike (R : Position → Position → Prop) (levels : Nat) : Prop :=
  ∀ ⦃stop stop' : Position⦄ ⦃power : Nat⦄ ⦃left : Expr⦄ ⦃ts us : List Token⦄, R stop stop' →
    List.Forall₂ (Token.Alike R) ts us →
      Alike R (Rests R) (readChain stop levels power left ts) (readChain stop' levels power left us)

/-- Arguments are read alike with so many levels. -/
def ArgumentsAlike (R : Position → Position → Prop) (levels : Nat) : Prop :=
  ∀ ⦃stop stop' : Position⦄ ⦃ts us : List Token⦄, R stop stop' →
    List.Forall₂ (Token.Alike R) ts us →
      Alike R (Rests R) (readArguments stop levels ts) (readArguments stop' levels us)

theorem Ends.alike (h : Ends power ts) (halike : List.Forall₂ (Token.Alike R) ts us) :
    Ends power us := by
  cases halike with
  | nil => trivial
  | cons ht _ =>
    rw [Ends] at h ⊢
    rwa [← ht.kind]

theorem chainAlike_of_lt
    (ih : ∀ l < levels, ExpressionAlike R l ∧ ChainAlike R l ∧ ArgumentsAlike R l) :
    ChainAlike R levels := by
  intro stop stop' power left ts us hstop h
  by_cases hends : Ends power ts
  · rw [readChain_of_ends hends, readChain_of_ends (hends.alike h)]
    exact .ok ⟨rfl, h⟩
  · cases h with
    | nil => exact absurd trivial hends
    | @cons t u ts us ht h =>
      obtain ⟨kind, p⟩ := t
      obtain ⟨kind', q⟩ := u
      obtain rfl : kind = kind' := ht.kind
      cases kind with
      | lparen =>
        cases levels with
        | zero =>
          rw [readChain_lparen_zero, readChain_lparen_zero]
          exact alike_tooDeep ht
        | succ l =>
          obtain ⟨-, hchain, harguments⟩ := ih l (Nat.lt_succ_self l)
          rw [readChain_lparen, readChain_lparen]
          refine (harguments hstop h).bind fun args args' _ hargs => ?_
          rw [hargs.value]
          exact hchain hstop hargs.rest
      | operator op =>
        have hpower : power ≤ leftPower op := Nat.not_lt.mp hends
        cases levels with
        | zero =>
          rw [readChain_operator_zero hpower, readChain_operator_zero hpower]
          exact alike_tooDeep ht
        | succ l =>
          obtain ⟨hexpression, hchain, -⟩ := ih l (Nat.lt_succ_self l)
          rw [readChain_operator hpower, readChain_operator hpower]
          refine (hexpression hstop h).bind fun right right' _ hright => ?_
          rw [hright.value]
          exact hchain hstop hright.rest
      | literal | name | rparen | comma | equals | newline => exact absurd trivial hends

theorem expressionAlike_of_lt
    (ih : ∀ l < levels, ExpressionAlike R l ∧ ChainAlike R l ∧ ArgumentsAlike R l) :
    ExpressionAlike R levels := by
  intro stop stop' power ts us hstop h
  cases h with
  | nil =>
    rw [readExpression_nil, readExpression_nil]
    exact .error hstop
  | @cons t u ts us ht h =>
    have hall := List.Forall₂.cons ht h
    obtain ⟨kind, p⟩ := t
    obtain ⟨kind', q⟩ := u
    obtain rfl : kind = kind' := ht.kind
    cases kind with
    | literal value =>
      rw [readExpression_literal, readExpression_literal]
      exact chainAlike_of_lt ih hstop h
    | name word =>
      rw [readExpression_name, readExpression_name]
      exact chainAlike_of_lt ih hstop h
    | lparen =>
      cases levels with
      | zero =>
        rw [readExpression_lparen_zero, readExpression_lparen_zero]
        exact alike_tooDeep ht
      | succ l =>
        obtain ⟨hexpression, hchain, -⟩ := ih l (Nat.lt_succ_self l)
        rw [readExpression_lparen, readExpression_lparen]
        refine (hexpression hstop h).bind fun inner inner' _ hinner => ?_
        obtain ⟨e, behind⟩ := inner
        obtain ⟨e', behind'⟩ := inner'
        obtain ⟨rfl, hbehind⟩ := hinner
        dsimp only at hbehind ⊢
        cases hbehind with
        | nil => exact .error hstop
        | @cons t u ts us ht hbehind =>
          have hfound := List.Forall₂.cons ht hbehind
          obtain ⟨kind, p⟩ := t
          obtain ⟨kind', q⟩ := u
          obtain rfl : kind = kind' := ht.kind
          cases kind with
          | rparen => exact hchain hstop hbehind
          | literal | name | operator | lparen | comma | equals | newline =>
            exact alike_unexpected hstop hfound
    | operator op =>
      cases hsign : unary? op with
      | none =>
        rw [readExpression_other (by simp) (by simp) (by simp) (by simpa using hsign),
          readExpression_other (by simp) (by simp) (by simp) (by simpa using hsign)]
        exact alike_unexpected hstop hall
      | some u =>
        cases levels with
        | zero =>
          rw [readExpression_sign_zero hsign, readExpression_sign_zero hsign]
          exact alike_tooDeep ht
        | succ l =>
          obtain ⟨hexpression, hchain, -⟩ := ih l (Nat.lt_succ_self l)
          rw [readExpression_sign hsign, readExpression_sign hsign]
          refine (hexpression hstop h).bind fun operand operand' _ hoperand => ?_
          rw [hoperand.value]
          exact hchain hstop hoperand.rest
    | rparen | comma | equals | newline =>
      rw [readExpression_other (by simp) (by simp) (by simp) (by simp),
        readExpression_other (by simp) (by simp) (by simp) (by simp)]
      exact alike_unexpected hstop hall

/-- Arguments all start with the same levels, so this goes by their number. -/
theorem argumentsAlike_of_expressionAlike (hexpression : ExpressionAlike R levels) :
    ArgumentsAlike R levels := by
  intro stop stop' ts us hstop h
  induction hn : ts.length using Nat.strongRecOn generalizing ts us with
  | _ n ih =>
    by_cases hclosing : ∃ p behind, ts = ⟨.rparen, p⟩ :: behind
    · obtain ⟨p, behind, rfl⟩ := hclosing
      cases h with
      | @cons t u ts us ht h =>
        obtain ⟨kind, q⟩ := u
        obtain rfl : .rparen = kind := ht.kind
        rw [readArguments_rparen, readArguments_rparen]
        exact .ok ⟨rfl, h⟩
    · have hts : ∀ p behind, ts ≠ ⟨.rparen, p⟩ :: behind :=
        fun p behind heq => hclosing ⟨p, behind, heq⟩
      have hus : ∀ p behind, us ≠ ⟨.rparen, p⟩ :: behind := by
        rintro p behind rfl
        exact hclosing (exists_rparen_of_alike h)
      rw [readArguments_first hts, readArguments_first hus]
      refine (hexpression hstop h).bind fun first first' hread hfirst => ?_
      obtain ⟨e, behind⟩ := first
      obtain ⟨e', behind'⟩ := first'
      obtain ⟨rfl, hbehind⟩ := hfirst
      have hlt := length_lt_of_readExpression hread
      dsimp only at hbehind ⊢
      cases hbehind with
      | nil => exact .error hstop
      | @cons t u behind behind' ht hbehind =>
        have hfound := List.Forall₂.cons ht hbehind
        rw [List.length_cons] at hlt
        obtain ⟨kind, p⟩ := t
        obtain ⟨kind', q⟩ := u
        obtain rfl : kind = kind' := ht.kind
        cases kind with
        | comma =>
          refine (ih behind.length (by omega) hbehind rfl).bind fun more more' _ hmore => ?_
          rw [hmore.value]
          exact .ok ⟨rfl, hmore.rest⟩
        | rparen => exact .ok ⟨rfl, hbehind⟩
        | literal | name | operator | lparen | equals | newline =>
          exact alike_unexpected hstop hfound

/-- However many levels there are, tokens alike are read alike. -/
theorem alikes (R : Position → Position → Prop) (levels : Nat) :
    ExpressionAlike R levels ∧ ChainAlike R levels ∧ ArgumentsAlike R levels := by
  induction levels using Nat.strongRecOn with
  | _ levels ih =>
    have hexpression : ExpressionAlike R levels := expressionAlike_of_lt ih
    exact ⟨hexpression, chainAlike_of_lt ih, argumentsAlike_of_expressionAlike hexpression⟩

/-- If tokens are those of an assignment, so are tokens alike. -/
theorem exists_assignment_of_alike {word : String} {p q : Position} {behind : List Token}
    (h : List.Forall₂ (Token.Alike R) (⟨.name word, p⟩ :: ⟨.equals, q⟩ :: behind) us) :
    ∃ p' q' behind', us = ⟨.name word, p'⟩ :: ⟨.equals, q'⟩ :: behind' ∧
      List.Forall₂ (Token.Alike R) behind behind' := by
  obtain ⟨⟨kind, p'⟩, others, hname, htail, rfl⟩ := List.forall₂_cons_left_iff.mp h
  obtain ⟨⟨kind', q'⟩, behind', hequals, hbehind, rfl⟩ := List.forall₂_cons_left_iff.mp htail
  obtain rfl : .name word = kind := hname.kind
  obtain rfl : .equals = kind' := hequals.kind
  exact ⟨p', q', behind', rfl, hbehind⟩

theorem readStatement_alike (hstop : R stop stop') (h : List.Forall₂ (Token.Alike R) ts us) :
    Alike R (Rests R) (readStatement stop ts) (readStatement stop' us) := by
  obtain ⟨hexpression, -⟩ := alikes R maxNesting
  by_cases hassign : ∃ word p q behind, ts = ⟨.name word, p⟩ :: ⟨.equals, q⟩ :: behind
  · obtain ⟨word, p, q, behind, rfl⟩ := hassign
    obtain ⟨p', q', behind', rfl, hbehind⟩ := exists_assignment_of_alike h
    rw [readStatement_assign, readStatement_assign]
    refine (hexpression hstop hbehind).bind fun value value' _ hvalue => ?_
    rw [hvalue.value]
    exact .ok ⟨rfl, hvalue.rest⟩
  · have hts : ∀ word p q behind, ts ≠ ⟨.name word, p⟩ :: ⟨.equals, q⟩ :: behind :=
      fun word p q behind heq => hassign ⟨word, p, q, behind, heq⟩
    have hus : ∀ word p q behind, us ≠ ⟨.name word, p⟩ :: ⟨.equals, q⟩ :: behind := by
      rintro word p q behind rfl
      have hback := (List.Forall₂.flip h).imp fun _ _ ht => ht.flip
      obtain ⟨p', q', behind', heq, -⟩ := exists_assignment_of_alike hback
      exact hts word p' q' behind' heq
    rw [readStatement_expr hts, readStatement_expr hus]
    refine (hexpression hstop h).bind fun value value' _ hvalue => ?_
    rw [hvalue.value]
    exact .ok ⟨rfl, hvalue.rest⟩

/-- **Scripts are read alike** from tokens of the same kinds, wherever these stand and whatever
was read before them. -/
theorem statements_alike {seen seen' : List Stmt} (hstop : R stop stop')
    (h : List.Forall₂ (Token.Alike R) ts us) :
    Alike R (fun m m' => ∃ more, m = seen.reverse ++ more ∧ m' = seen'.reverse ++ more)
      (statements stop seen ts) (statements stop' seen' us) := by
  induction hn : ts.length using Nat.strongRecOn generalizing ts us seen seen' with
  | _ n ih =>
    cases h with
    | nil =>
      rw [statements_nil, statements_nil]
      exact .ok ⟨[], by simp⟩
    | @cons t u ts us ht h =>
      have hall := List.Forall₂.cons ht h
      rw [List.length_cons] at hn
      by_cases hnewline : t.kind = .newline
      · obtain ⟨kind, p⟩ := t
        obtain ⟨kind', q⟩ := u
        obtain rfl : kind = kind' := ht.kind
        obtain rfl : kind = .newline := hnewline
        rw [statements_newline, statements_newline]
        exact ih ts.length (by omega) h rfl
      · rw [statements_statement hnewline, statements_statement (ht.kind ▸ hnewline)]
        refine (readStatement_alike hstop hall).bind fun first first' hread hfirst => ?_
        obtain ⟨s, behind⟩ := first
        obtain ⟨s', behind'⟩ := first'
        obtain ⟨rfl, hbehind⟩ := hfirst
        have hlt := length_lt_of_readStatement hread
        dsimp only at hbehind ⊢
        cases hbehind with
        | nil => exact .ok ⟨[s], by simp⟩
        | @cons t u behind behind' ht hbehind =>
          have hfound := List.Forall₂.cons ht hbehind
          rw [List.length_cons, List.length_cons] at hlt
          dsimp only
          rw [← ht.kind]
          split
          · refine (ih behind.length (by omega) hbehind rfl).mono ?_
            rintro m m' ⟨more, rfl, rfl⟩
            exact ⟨s :: more, by simp⟩
          · exact alike_unexpected hstop hfound

end Parser

end Alike

end StackScript
