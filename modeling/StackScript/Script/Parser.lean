import StackScript.Script.Lexer
import StackScript.Script.Tree

/-!
# From tokens to a syntax tree

Expressions are read by precedence: `expression` reads an operand and hands it to `chain`,
which extends it to the right by calls and operators as long as they bind at least as
tightly as the caller asked for.  The right operand of an operator is read with the
operator's right power, which is above its left power, so chains associate to the left.

## Levels

An expression may use at most `maxNesting` levels.  A parenthesis, a prefix operator, a
call and a link of a chain each take one, and what is taken stays taken until the
innermost enclosing expression is complete; arguments of one call all start at the same
level.  So the number of levels that are left is a parameter that only ever decreases on
the way in, and it is what the recursion is founded on: between two functions at the same
level the order is `chain`, `expression`, `arguments`, and only `arguments` repeats itself
at one level, each time with fewer tokens.  No input can make the recursion deeper than
the limit, and no separate count of steps is needed.

Every result records that it used up at least one token, which is what the repetition in
`arguments` needs.
-/

namespace StackScript

/-- Something that was read, and the tokens behind it, fewer than some bound. -/
structure Parsed (α : Type) (bound : Nat) where
  /-- What was read. -/
  value : α
  /-- The tokens behind it. -/
  rest : List Token
  /-- They are fewer than the bound. -/
  lt : rest.length < bound

namespace Parser

/-- The powers with which an operator binds its left and its right operand. -/
def leftPower : BinaryOp → Nat
  | .add | .sub => 1
  | .mul | .div | .floorDiv | .mod => 3

/-- The power that the right operand of an operator is read with. -/
def rightPower (op : BinaryOp) : Nat := leftPower op + 1

/-- The power that the operand of a prefix operator is read with. -/
def prefixPower : Nat := 5

/-- The prefix operator that an operator sign is, if it can be one. -/
def unary? : BinaryOp → Option UnaryOp
  | .sub => some .neg
  | .add => some .pos
  | _ => none

/-- The report that a token opens one level too many. -/
def tooDeep (t : Token) : SyntaxError :=
  ⟨t.position, if t.kind = .lparen then .tooManyParentheses else .nestedTooDeeply⟩

/-- The report of what stands at the head of some tokens, or of the end of the script. -/
def unexpected (stop : Position) (cause : Option TokenKind → SyntaxError.Cause) :
    List Token → SyntaxError
  | [] => ⟨stop, cause none⟩
  | t :: _ => ⟨t.position, cause (some t.kind)⟩

mutual

/-- Read an expression whose operators bind at least with the given power. -/
def expression (stop : Position) (levels power : Nat) (ts : List Token) :
    Except SyntaxError (Parsed Expr ts.length) :=
  match ts with
  | [] => .error (unexpected stop .expectedExpression [])
  | t :: rest =>
      match t.kind with
      | .literal value => chain stop levels power (.constant value) rest
      | .name word => chain stop levels power (.name word) rest
      | .lparen =>
          match levels with
          | 0 => .error (tooDeep t)
          | l + 1 => do
              let inner ← expression stop l 0 rest
              match _h : inner.rest with
              | ⟨.rparen, _⟩ :: behind =>
                  let p ← chain stop l power inner.value behind
                  .ok ⟨p.value, p.rest, by
                    have h₁ := inner.lt
                    have h₂ := p.lt
                    simp only [_h, List.length_cons] at h₁ ⊢
                    omega⟩
              | found => .error (unexpected stop .expectedClosing found)
      | .operator op =>
          match unary? op, levels with
          | none, _ => .error (unexpected stop .expectedExpression (t :: rest))
          | some _, 0 => .error (tooDeep t)
          | some u, l + 1 => do
              let operand ← expression stop l prefixPower rest
              let p ← chain stop l power (.unary u operand.value) operand.rest
              .ok ⟨p.value, p.rest, by
                have h₁ := operand.lt
                have h₂ := p.lt
                simp only [List.length_cons]
                omega⟩
      | _ => .error (unexpected stop .expectedExpression (t :: rest))
termination_by (levels, 1, ts.length)

/-- Extend an operand to the right by calls and operators. -/
def chain (stop : Position) (levels power : Nat) (left : Expr) (ts : List Token) :
    Except SyntaxError (Parsed Expr (ts.length + 1)) :=
  match ts with
  | [] => .ok ⟨left, [], by simp⟩
  | t :: rest =>
      match t.kind with
      | .lparen =>
          match levels with
          | 0 => .error (tooDeep t)
          | l + 1 => do
              let args ← arguments stop l rest
              let p ← chain stop l power (.call left args.value) args.rest
              .ok ⟨p.value, p.rest, by
                have h₁ := args.lt
                have h₂ := p.lt
                simp only [List.length_cons]
                omega⟩
      | .operator op =>
          if leftPower op < power then
            .ok ⟨left, t :: rest, by simp⟩
          else
            match levels with
            | 0 => .error (tooDeep t)
            | l + 1 => do
                let right ← expression stop l (rightPower op) rest
                let p ← chain stop l power (.binary op left right.value) right.rest
                .ok ⟨p.value, p.rest, by
                  have h₁ := right.lt
                  have h₂ := p.lt
                  simp only [List.length_cons]
                  omega⟩
      | _ => .ok ⟨left, t :: rest, by simp⟩
termination_by (levels, 0, ts.length)

/-- Read the arguments of a call behind its opening parenthesis, and the closing one. -/
def arguments (stop : Position) (levels : Nat) (ts : List Token) :
    Except SyntaxError (Parsed (List Expr) ts.length) :=
  match ts with
  | ⟨.rparen, _⟩ :: rest => .ok ⟨[], rest, by simp⟩
  | ts => do
      let first ← expression stop levels 0 ts
      match _h : first.rest with
      | ⟨.comma, _⟩ :: behind =>
          let more ← arguments stop levels behind
          .ok ⟨first.value :: more.value, more.rest, by
            have h₁ := first.lt
            have h₂ := more.lt
            simp only [_h, List.length_cons] at h₁
            omega⟩
      | ⟨.rparen, _⟩ :: behind =>
          .ok ⟨[first.value], behind, by
            have h₁ := first.lt
            simp only [_h, List.length_cons] at h₁
            omega⟩
      | found => .error (unexpected stop .inArguments found)
termination_by (levels, 2, ts.length)
decreasing_by
  · decreasing_tactic
  · have h₁ := first.lt
    simp only [_h, List.length_cons] at h₁
    exact Prod.Lex.right _ (Prod.Lex.right _ (by omega))

end

/-- Read one statement. -/
def statement (stop : Position) (ts : List Token) :
    Except SyntaxError (Parsed Stmt ts.length) :=
  match ts with
  | ⟨.name target, _⟩ :: ⟨.equals, _⟩ :: rest => do
      let p ← expression stop maxNesting 0 rest
      .ok ⟨.assign target p.value, p.rest, by
        have h := p.lt
        simp only [List.length_cons]
        omega⟩
  | ts => do
      let p ← expression stop maxNesting 0 ts
      .ok ⟨.expr p.value, p.rest, p.lt⟩

/-- Read statements up to the end; `seen` holds those before, last one first. -/
def statements (stop : Position) (seen : List Stmt) (ts : List Token) :
    Except SyntaxError Script :=
  match ts with
  | [] => .ok seen.reverse
  | t :: rest =>
      if t.kind = .newline then
        statements stop seen rest
      else do
        let p ← statement stop (t :: rest)
        match _h : p.rest with
        | [] => .ok (p.value :: seen).reverse
        | u :: behind =>
            if u.kind = .newline then
              statements stop (p.value :: seen) behind
            else
              .error (unexpected stop .afterStatement (u :: behind))
termination_by ts.length
decreasing_by
  · simp
  · have h₁ := p.lt
    simp only [_h, List.length_cons] at h₁ ⊢
    omega

end Parser

/-- The syntax tree of a token stream. -/
def TokenStream.parse (s : TokenStream) : Except SyntaxError Script :=
  Parser.statements s.stop [] s.tokens

/-- The syntax tree of a script. -/
def Script.ofText (source : String) : Except SyntaxError Script := do
  (← TokenStream.ofText source).parse

end StackScript
