import Mathlib.Data.List.Forall2
import StackScript.Script.Token
import StackScript.Script.Tree

/-!
# The grammar of scripts

The layered grammar that scripts are written in, over tokens and without regard to where they
stand:

* a script is statements with ends of lines between them, in front of them and behind them;
* a statement is a name, an equals sign and a sum, or a sum alone;
* a *sum* is a chain of products, joined by `+` and `-`;
* a *product* is a chain of unaries, joined by `*`, `/`, `//` and `%`;
* a *unary* is a sign in front of a unary, or a primary;
* a *primary* is an atom with any number of argument lists behind it;
* *arguments* are sums with commas between them, and possibly one behind the last;
* an *atom* is a literal, a name, or a sum in parentheses.

Chains associate to the left.  Nothing here knows of binding powers or of levels.
-/

namespace StackScript

namespace Grammar

/-- The operators of sums. -/
inductive Additive : BinaryOp → Prop
  | add : Additive .add
  | sub : Additive .sub

/-- The operators of products. -/
inductive Multiplicative : BinaryOp → Prop
  | mul : Multiplicative .mul
  | div : Multiplicative .div
  | floorDiv : Multiplicative .floorDiv
  | mod : Multiplicative .mod

/-- The operators that may stand in front of an operand. -/
inductive Sign : BinaryOp → UnaryOp → Prop
  | minus : Sign .sub .neg
  | plus : Sign .add .pos

mutual

/-- Sums. -/
inductive Sum : List Token → Expr → Prop
  | product {ts : List Token} {e : Expr} (h : Product ts e) : Sum ts e
  | link {ts us : List Token} {pos : Position} {op : BinaryOp} {l r : Expr} (left : Sum ts l)
      (hop : Additive op) (right : Product us r) :
      Sum (ts ++ ⟨.operator op, pos⟩ :: us) (.binary op l r)

/-- Products. -/
inductive Product : List Token → Expr → Prop
  | unary {ts : List Token} {e : Expr} (h : Unary ts e) : Product ts e
  | link {ts us : List Token} {pos : Position} {op : BinaryOp} {l r : Expr} (left : Product ts l)
      (hop : Multiplicative op) (right : Unary us r) :
      Product (ts ++ ⟨.operator op, pos⟩ :: us) (.binary op l r)

/-- Unaries. -/
inductive Unary : List Token → Expr → Prop
  | primary {ts : List Token} {e : Expr} (h : Primary ts e) : Unary ts e
  | sign {ts : List Token} {pos : Position} {op : BinaryOp} {u : UnaryOp} {e : Expr}
      (hop : Sign op u) (operand : Unary ts e) : Unary (⟨.operator op, pos⟩ :: ts) (.unary u e)

/-- Primaries. -/
inductive Primary : List Token → Expr → Prop
  | atom {ts : List Token} {e : Expr} (h : Atom ts e) : Primary ts e
  | call {ts us : List Token} {p q : Position} {f : Expr} {args : List Expr}
      (callee : Primary ts f) (arguments : Arguments us args) :
      Primary (ts ++ ⟨.lparen, p⟩ :: (us ++ [⟨.rparen, q⟩])) (.call f args)

/-- Argument lists. -/
inductive Arguments : List Token → List Expr → Prop
  | nil : Arguments [] []
  | last {ts : List Token} {e : Expr} (h : Sum ts e) : Arguments ts [e]
  | cons {ts us : List Token} {pos : Position} {e : Expr} {args : List Expr} (head : Sum ts e)
      (tail : Arguments us args) : Arguments (ts ++ ⟨.comma, pos⟩ :: us) (e :: args)

/-- Atoms. -/
inductive Atom : List Token → Expr → Prop
  | literal {value : Constant} {pos : Position} : Atom [⟨.literal value, pos⟩] (.constant value)
  | name {word : String} {pos : Position} : Atom [⟨.name word, pos⟩] (.name word)
  | parentheses {ts : List Token} {p q : Position} {e : Expr} (h : Sum ts e) :
      Atom (⟨.lparen, p⟩ :: (ts ++ [⟨.rparen, q⟩])) e

end

/-- Statements. -/
inductive Statement : List Token → Stmt → Prop
  | assign {ts : List Token} {word : String} {p q : Position} {e : Expr} (h : Sum ts e) :
      Statement (⟨.name word, p⟩ :: ⟨.equals, q⟩ :: ts) (.assign word e)
  | expr {ts : List Token} {e : Expr} (h : Sum ts e) : Statement ts (.expr e)

/-- Whole scripts. -/
inductive Module : List Token → Script → Prop
  | empty : Module [] []
  | blank {ts : List Token} {pos : Position} {m : Script} (h : Module ts m) :
      Module (⟨.newline, pos⟩ :: ts) m
  | last {ts : List Token} {s : Stmt} (h : Statement ts s) : Module ts [s]
  | cons {ts us : List Token} {pos : Position} {s : Stmt} {m : Script} (head : Statement ts s)
      (tail : Module us m) : Module (ts ++ ⟨.newline, pos⟩ :: us) (s :: m)

/-! ## Lines -/

/-- Whether a token ends a statement. -/
def isNewline (t : Token) : Bool := t.kind = .newline

/-- The lines of a script: what stands between the ends of statements. -/
def lines (ts : List Token) : List (List Token) := ts.splitOnP isNewline

/-- Tokens of which none ends a statement and none is an equals sign. -/
def Inner (ts : List Token) : Prop := ∀ t ∈ ts, t.kind ≠ .newline ∧ t.kind ≠ .equals

@[simp] theorem inner_nil : Inner [] := by simp [Inner]

@[simp] theorem inner_append {ts us : List Token} : Inner (ts ++ us) ↔ Inner ts ∧ Inner us := by
  simp only [Inner, List.mem_append, or_imp, forall_and]
  tauto

@[simp] theorem inner_cons {t : Token} {ts : List Token} :
    Inner (t :: ts) ↔ (t.kind ≠ .newline ∧ t.kind ≠ .equals) ∧ Inner ts := by
  simp [Inner]

mutual

/-- A phrase of a statement has neither ends of lines nor equals signs in it. -/
theorem Sum.inner : ∀ {ts : List Token} {e : Expr}, Sum ts e → Inner ts
  | _, _, .product h => h.inner
  | _, _, .link left _ right => by simp [left.inner, right.inner]

theorem Product.inner : ∀ {ts : List Token} {e : Expr}, Product ts e → Inner ts
  | _, _, .unary h => h.inner
  | _, _, .link left _ right => by simp [left.inner, right.inner]

theorem Unary.inner : ∀ {ts : List Token} {e : Expr}, Unary ts e → Inner ts
  | _, _, .primary h => h.inner
  | _, _, .sign _ operand => by simp [operand.inner]

theorem Primary.inner : ∀ {ts : List Token} {e : Expr}, Primary ts e → Inner ts
  | _, _, .atom h => h.inner
  | _, _, .call callee arguments => by simp [callee.inner, arguments.inner]

theorem Arguments.inner : ∀ {ts : List Token} {args : List Expr}, Arguments ts args → Inner ts
  | _, _, .nil => inner_nil
  | _, _, .last h => h.inner
  | _, _, .cons head tail => by simp [head.inner, tail.inner]

theorem Atom.inner : ∀ {ts : List Token} {e : Expr}, Atom ts e → Inner ts
  | _, _, .literal => by simp
  | _, _, .name => by simp
  | _, _, .parentheses h => by simp [h.inner]

end

/-- A statement stands on one line. -/
theorem Statement.isNewline_eq_false {ts : List Token} {s : Stmt} (h : Statement ts s) :
    ∀ t ∈ ts, isNewline t = false := by
  have hinner : ∀ {us : List Token}, Inner us → ∀ t ∈ us, isNewline t = false :=
    fun h t ht => decide_eq_false (h t ht).1
  cases h with
  | assign h =>
    rintro t (_ | ⟨_, _ | ⟨_, ht⟩⟩)
    · rfl
    · rfl
    · exact hinner h.inner t ht
  | expr h => exact hinner h.inner

/-! ## Levels -/

/-- Whether a token may take a level: an operator or an opening parenthesis. -/
@[simp] def takesLevel (t : Token) : Bool :=
  match t.kind with
  | .operator _ => true
  | .lparen => true
  | _ => false

/-- The number of tokens that may take a level. -/
def cost (ts : List Token) : Nat := ts.countP takesLevel

@[simp] theorem cost_nil : cost [] = 0 := rfl

@[simp] theorem cost_append (ts us : List Token) : cost (ts ++ us) = cost ts + cost us :=
  List.countP_append

@[simp] theorem cost_cons (t : Token) (ts : List Token) :
    cost (t :: ts) = cost ts + (takesLevel t).toNat := by
  rw [cost, List.countP_cons]
  cases takesLevel t <;> rfl

end Grammar

end StackScript
