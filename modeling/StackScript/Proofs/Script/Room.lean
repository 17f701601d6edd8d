import Mathlib.Data.String.Basic
import StackScript.Proofs.Script.Nesting
import StackScript.Wire.Payload

/-!
# How much room a script needs

What a reader of compiled code sets aside depends on the code object.  This module bounds it from
the other end, by the text of the script.  The room of a tree (`Script.room`) is what its code takes
if no constant and no name is used twice, so it can be added up over the tree, over the tokens that
were read and over the characters that they were spelled with:

* every node is paid for by tokens of its own (`Grammar.room_module`);
* a token is paid for by its characters, at twenty bytes of room for each byte of text
  (`Lexeme.room_cut`).  The worst case is a number of one digit, which is an instruction and a
  constant.

One thing is not paid for by the text, the value of a product: a text times a number is as long as
the number says.  What is set aside for a product is therefore a parameter, and each star in the
text is charged with it.
-/

namespace StackScript

open Payload

/-! ## The room of a tree -/

/-- What is set aside for the value of an operator, if `product` is set aside for a product. -/
def BinaryOp.room (product : Nat) : BinaryOp → Nat
  | .mul => product
  | _ => 0

mutual

/-- The room of an expression: its instructions, and the entries that they point to. -/
def Expr.room (product : Nat) : Expr → Nat
  | .constant value => 8 + constantRoom value
  | .name word => 8 + strRoom word
  | .unary _ operand => 8 + operand.room product
  | .binary op left right => 8 + op.room product + left.room product + right.room product
  | .call callee arguments => 8 + callee.room product + Expr.roomAll product arguments

/-- The room of some expressions. -/
def Expr.roomAll (product : Nat) : List Expr → Nat
  | [] => 0
  | e :: es => e.room product + Expr.roomAll product es

end

/-- The room of a statement. -/
def Stmt.room (product : Nat) : Stmt → Nat
  | .assign target value => 8 + strRoom target + value.room product
  | .expr value => 4 + value.room product

/-- The room of a script. -/
def Script.room (product : Nat) : Script → Nat
  | [] => 0
  | t :: ts => t.room product + Script.room product ts

/-! ## By tokens -/

/-- The room that a token pays for. -/
def TokenKind.room (product : Nat) : TokenKind → Nat
  | .literal value => 8 + constantRoom value
  | .name word => 8 + strRoom word
  | .operator op => 8 + op.room product
  | .lparen => 8
  | .newline => 4
  | .rparen | .comma | .equals => 0

namespace Grammar

/-- The room that some tokens pay for. -/
def room (product : Nat) : List Token → Nat
  | [] => 0
  | t :: ts => t.kind.room product + room product ts

variable {product : Nat}

@[simp] theorem room_nil : room product [] = 0 := rfl

@[simp] theorem room_cons (t : Token) (ts : List Token) :
    room product (t :: ts) = t.kind.room product + room product ts := rfl

@[simp] theorem room_append (ts us : List Token) :
    room product (ts ++ us) = room product ts + room product us := by
  induction ts with
  | nil => exact (Nat.zero_add _).symm
  | cons t ts ih => rw [List.cons_append, room_cons, room_cons, ih, Nat.add_assoc]

@[simp] theorem room_reverse (ts : List Token) :
    room product ts.reverse = room product ts := by
  induction ts with
  | nil => rfl
  | cons t ts ih =>
    rw [List.reverse_cons, room_append, ih, room_cons, room_cons, room_nil]
    omega

mutual

/-- The tokens of an expression pay for its tree. -/
theorem room_sum : ∀ {ts : List Token} {e : Expr}, Sum ts e → e.room product ≤ room product ts
  | _, _, .product h => room_product h
  | _, _, .link left _ right => by
    have hleft := room_sum left
    have hright := room_product right
    simp only [Expr.room, room_append, room_cons, TokenKind.room]
    omega

theorem room_product : ∀ {ts : List Token} {e : Expr}, Product ts e →
    e.room product ≤ room product ts
  | _, _, .unary h => room_unary h
  | _, _, .link left _ right => by
    have hleft := room_product left
    have hright := room_unary right
    simp only [Expr.room, room_append, room_cons, TokenKind.room]
    omega

theorem room_unary : ∀ {ts : List Token} {e : Expr}, Unary ts e →
    e.room product ≤ room product ts
  | _, _, .primary h => room_primary h
  | _, _, .sign _ operand => by
    have hoperand := room_unary operand
    simp only [Expr.room, room_cons, TokenKind.room]
    omega

theorem room_primary : ∀ {ts : List Token} {e : Expr}, Primary ts e →
    e.room product ≤ room product ts
  | _, _, .atom h => room_atom h
  | _, _, .call callee arguments => by
    have hcallee := room_primary callee
    have harguments := room_arguments arguments
    simp only [Expr.room, room_append, room_cons, room_nil, TokenKind.room]
    omega

theorem room_arguments : ∀ {ts : List Token} {args : List Expr}, Arguments ts args →
    Expr.roomAll product args ≤ room product ts
  | _, _, .nil => Nat.le_refl 0
  | _, _, .last h => by
    have hlast := room_sum h
    simp only [Expr.roomAll]
    omega
  | _, _, .cons head tail => by
    have hhead := room_sum head
    have htail := room_arguments tail
    simp only [Expr.roomAll, room_append, room_cons, TokenKind.room]
    omega

theorem room_atom : ∀ {ts : List Token} {e : Expr}, Atom ts e → e.room product ≤ room product ts
  | _, _, .literal => Nat.le_refl _
  | _, _, .name => Nat.le_refl _
  | _, _, .parentheses h => by
    have hinner := room_sum h
    simp only [room_cons, room_append, room_nil, TokenKind.room]
    omega

end

/-- A statement needs four bytes more than its tokens pay for: a bare expression is dropped by an
instruction that no token stands for. -/
theorem room_statement {ts : List Token} {s : Stmt} (h : Statement ts s) :
    s.room product ≤ room product ts + 4 := by
  cases h with
  | assign h =>
    have hvalue : _ ≤ room product _ := room_sum h
    simp only [Stmt.room, room_cons, TokenKind.room]
    omega
  | expr h =>
    have hvalue : _ ≤ room product _ := room_sum h
    simp only [Stmt.room]
    omega

/-- The ends of lines pay for what statements need more, except behind the last one. -/
theorem room_module {ts : List Token} {m : Script} (h : Module ts m) :
    m.room product ≤ room product ts + 4 := by
  induction h with
  | empty => exact Nat.zero_le 4
  | blank h ih =>
    simp only [room_cons, TokenKind.room]
    omega
  | last h =>
    have hlast : _ ≤ room product _ + 4 := room_statement h
    simp only [Script.room]
    omega
  | cons head tail ih =>
    have hhead : _ ≤ room product _ + 4 := room_statement head
    simp only [Script.room, room_append, room_cons, TokenKind.room]
    omega

end Grammar

/-! ## By characters -/

namespace Lexeme

theorem utf8Len_pos {cs : List Char} (h : cs ≠ []) : 0 < String.utf8Len cs :=
  Nat.pos_of_ne_zero fun hzero => h (String.utf8Len_eq_zero.mp hzero)

theorem utf8Size_of_escape? {c d : Char} (h : escape? c = some d) : d.utf8Size = 1 := by
  unfold escape? at h
  split at h <;> cases h <;> rfl

/-- Resolving escapes makes no text longer. -/
theorem utf8Len_unescape_le (cs : List Char) :
    String.utf8Len (unescape cs) ≤ String.utf8Len cs := by
  fun_induction unescape cs with
  | case1 => exact Nat.le_refl _
  | case2 c => exact Nat.le_refl _
  | case3 d cs e he ih =>
    have hsize := utf8Size_of_escape? he
    have hpos := d.utf8Size_pos
    simp only [String.utf8Len_cons]
    omega
  | case4 d cs he ih =>
    simp only [String.utf8Len_cons]
    omega
  | case5 c d cs hc ih =>
    simp only [String.utf8Len_cons] at ih ⊢
    omega

variable {product : Nat}

/-- What the characters of a lexeme pay for. -/
def pays (product : Nat) (cs : List Char) : Nat :=
  20 * String.utf8Len cs + product * cs.count '*'

theorem pays_append (cs ds : List Char) :
    pays product (cs ++ ds) = pays product cs + pays product ds := by
  simp only [pays, String.utf8Len_append, List.count_append, Nat.mul_add]
  omega

theorem le_pays {cs : List Char} {n : Nat} (hcs : cs ≠ []) (hn : n ≤ 20) :
    n ≤ pays product cs := by
  have hpos := utf8Len_pos hcs
  unfold pays
  omega

theorem room_numberKind {taken : List Char} {kind : TokenKind} (htaken : taken ≠ [])
    (h : numberKind taken = .ok kind) : kind.room product ≤ pays product taken := by
  have hroom : kind.room product = 20 := by
    unfold numberKind at h
    dsimp only at h
    split at h
    · split at h <;> cases h
      rfl
    · split at h <;> cases h
      rfl
  rw [hroom]
  exact le_pays htaken (Nat.le_refl 20)

theorem room_wordKind {taken : List Char} (htaken : taken ≠ []) :
    (wordKind taken).room product ≤ pays product taken := by
  unfold wordKind
  dsimp only
  cases hkeyword : TokenKind.keyword? (String.ofList taken) with
  | none =>
    have hpos := utf8Len_pos htaken
    rw [Option.getD_none, TokenKind.room, strRoom, String.utf8ByteSize_ofList, pays]
    omega
  | some kind =>
    have hroom : kind.room product ≤ 20 := by
      unfold TokenKind.keyword? at hkeyword
      split at hkeyword
      · cases hkeyword
        exact Nat.le_add_right 13 7
      · split at hkeyword
        · cases hkeyword
          exact Nat.le_add_right 13 7
        · split at hkeyword <;> cases hkeyword
          exact Nat.le_add_right 12 8
    exact le_pays htaken hroom

theorem room_textKind (quote : Char) (taken : List Char) :
    (textKind taken).room product ≤ pays product (quote :: taken) := by
  have hpos := quote.utf8Size_pos
  have hunescape := utf8Len_unescape_le taken.dropLast
  have hdrop : String.utf8Len taken.dropLast ≤ String.utf8Len taken :=
    String.utf8Len_le_of_prefix (List.dropLast_prefix taken)
  simp only [textKind, TokenKind.room, constantRoom, strRoom, String.utf8ByteSize_ofList, pays,
    String.utf8Len_cons]
  omega

/-- Only the star stands for a product. -/
theorem room_symbol? {c : Char} {kind : TokenKind} (h : symbol? c = some kind) :
    kind.room product ≤ 20 + product * [c].count '*' := by
  unfold symbol? at h
  split at h <;> cases h <;> simp [TokenKind.room, BinaryOp.room]

theorem room_cutSymbol {c : Char} {cs : List Char} {l : Lexeme} (h : cutSymbol c cs = .ok l) :
    l.kind.room product ≤ pays product l.taken := by
  unfold cutSymbol at h
  split at h
  · cases h
    exact le_pays (List.cons_ne_nil _ _) (Nat.le_add_right 8 12)
  · split at h
    · next kind hkind =>
      cases h
      have hroom : kind.room product ≤ 20 + product * [c].count '*' := room_symbol? hkind
      have hpos := c.utf8Size_pos
      show kind.room product ≤ pays product [c]
      rw [pays, String.utf8Len_cons, String.utf8Len_nil]
      omega
    · cases h

/-- The characters of a lexeme pay for its token. -/
theorem room_cut {c : Char} {cs : List Char} {l : Lexeme} (h : cut c cs = .ok l) :
    l.kind.room product ≤ pays product l.taken := by
  have htaken := cut_taken_ne_nil h
  unfold cut at h
  split at h
  · cases hkind : numberKind (cutNumber false (c :: cs)).1 with
    | error e => simp [hkind, Except.map] at h
    | ok kind =>
      simp only [hkind, Except.map, Except.ok.injEq] at h
      subst h
      exact room_numberKind htaken hkind
  · split at h
    · cases h
      exact room_wordKind htaken
    · split at h
      · split at h
        · cases h
          exact room_textKind _ _
        · cases h
      · exact room_cutSymbol h

end Lexeme

namespace Lexer

/-- The characters of a script pay for its tokens. -/
theorem room_scan {product depth : Nat} {here : Position} {seen : List Token} {cs : List Char}
    {stream : TokenStream} (h : scan depth here seen cs = .ok stream) :
    Grammar.room product stream.tokens ≤ Grammar.room product seen + Lexeme.pays product cs := by
  induction hn : cs.length using Nat.strongRecOn generalizing depth here seen cs with
  | _ n ih =>
    have hgap := congrArg (Lexeme.pays product) (gap_append depth false cs)
    rw [Lexeme.pays_append] at hgap
    rcases scan_cases h with ⟨hend, rfl⟩ | ⟨c, rest, l, hrest, hcut, hshorter, hnext⟩
    · rw [Grammar.room_reverse]
      exact Nat.le_add_right _ _
    · have hlexeme := congrArg (Lexeme.pays product) (Lexeme.cut_append hcut)
      have htoken : l.kind.room product ≤ Lexeme.pays product l.taken := Lexeme.room_cut hcut
      have hlater := ih l.rest.length (by omega) hnext rfl
      rw [Lexeme.pays_append] at hlexeme
      rw [Grammar.room_cons] at hlater
      dsimp only at hlater
      rw [hrest] at hgap
      omega

end Lexer

/-- **The room of a script is bounded by its text**: by twenty bytes for each byte, and what is set
aside for a product for each star. -/
theorem Script.room_le_of_ofText {product : Nat} {source : String} {m : Script}
    (h : Script.ofText source = .ok m) :
    m.room product ≤ 20 * source.utf8ByteSize + product * source.toList.count '*' + 4 := by
  obtain ⟨stream, htokens, hparse⟩ := Script.eq_ok_of_ofText h
  obtain ⟨m', hm, hmodule⟩ := Parser.module_of_statements hparse
  obtain rfl : m = m' := hm
  have htree : m.room product ≤ Grammar.room product stream.tokens + 4 :=
    Grammar.room_module hmodule
  have htext : Grammar.room product stream.tokens ≤ Grammar.room product [] +
      Lexeme.pays product source.toList := Lexer.room_scan htokens
  rw [Grammar.room_nil, Lexeme.pays, String.utf8Len_toList] at htext
  omega

end StackScript
