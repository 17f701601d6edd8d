import StackScript.Proofs.Script.Nesting

/-!
# Parsing undoes printing

A tree is printed with every operand in parentheses, so that its text says how it is built without
regard to precedence, and a script with one statement on each line.  Printed trees take at most
three levels for each step down: from a binary operator to its right operand, one for the
parentheses of the left operand, one for the operator and one for the parentheses of the right
operand.  So trees of height sixty fit into the levels that there are.

The proof goes through the tokens of the printed tree twice.  They are `Arranged`, so they are read
back from their spellings; and they are read as the tree that they were made from.
-/

namespace StackScript

/-! ## Printing -/

/-- The sign of a prefix operator. -/
def UnaryOp.sign : UnaryOp → BinaryOp
  | .neg => .sub
  | .pos => .add

mutual

/-- The tokens of a printed expression. -/
def Expr.kinds : Expr → List TokenKind
  | .constant value => [.literal value]
  | .name word => [.name word]
  | .unary op operand => .operator op.sign :: .lparen :: (operand.kinds ++ [.rparen])
  | .binary op left right =>
      .lparen :: (left.kinds ++ .rparen :: .operator op :: .lparen :: (right.kinds ++ [.rparen]))
  | .call callee arguments =>
      .lparen :: (callee.kinds ++ .rparen :: .lparen :: (Expr.kindsAll arguments ++ [.rparen]))

/-- The tokens of printed arguments, with commas between them. -/
def Expr.kindsAll : List Expr → List TokenKind
  | [] => []
  | [e] => e.kinds
  | e :: es => e.kinds ++ .comma :: Expr.kindsAll es

end

/-- The tokens of a printed statement. -/
def Stmt.kinds : Stmt → List TokenKind
  | .assign target value => .name target :: .equals :: value.kinds
  | .expr value => value.kinds

/-- The tokens of a printed script: each statement and the end of its line. -/
def Script.kinds : Script → List TokenKind
  | [] => []
  | s :: m => s.kinds ++ .newline :: Script.kinds m

/-- The text of a script. -/
def Script.render (m : Script) : String :=
  String.ofList (m.kinds.flatMap TokenKind.spelling)

/-! ## The tokens are read back from their spellings -/

namespace Lexer

open TokenKind

theorem arranged_lparen {depth : Nat} {ks : List TokenKind} (h : Arranged (depth + 1) ks) :
    Arranged depth (.lparen :: ks) :=
  arranged_of_standsAlone rfl h

theorem arranged_rparen {depth : Nat} {ks : List TokenKind} (h : Arranged depth ks) :
    Arranged (depth + 1) (.rparen :: ks) :=
  arranged_of_standsAlone rfl h

theorem arranged_operator (op : BinaryOp) {depth : Nat} {ks : List TokenKind}
    (h : Arranged (depth + 1) ks) : Arranged depth (.operator op :: .lparen :: ks) := by
  have hseparate : Separate (.operator op) .lparen := ⟨fun _ => rfl, fun _ => rfl⟩
  exact ⟨by simp, by simpa using hseparate, arranged_lparen h⟩

mutual

/-- A printed expression may stand wherever no operand follows. -/
theorem arranged_kinds : ∀ (e : Expr) {depth : Nat} {ks : List TokenKind},
    (∀ next ∈ ks.head?, next.isOperand = false) → Arranged depth ks →
      Arranged depth (e.kinds ++ ks)
  | .constant _, _, _, hks, h => arranged_operand rfl hks h
  | .name _, _, _, hks, h => arranged_operand rfl hks h
  | .unary op operand, _, ks, _, h => by
    have hoperand := arranged_kinds operand (by simp [isOperand]) (arranged_rparen h)
    simpa [Expr.kinds] using arranged_operator op.sign hoperand
  | .binary op left right, _, ks, _, h => by
    have hright := arranged_kinds right (by simp [isOperand]) (arranged_rparen h)
    have hleft := arranged_kinds left (by simp [isOperand])
      (arranged_rparen (arranged_operator op hright))
    simpa [Expr.kinds] using arranged_lparen hleft
  | .call callee arguments, _, ks, _, h => by
    have harguments := arranged_kindsAll arguments (by simp [isOperand]) (arranged_rparen h)
    have hcallee := arranged_kinds callee (by simp [isOperand])
      (arranged_rparen (arranged_lparen harguments))
    simpa [Expr.kinds] using arranged_lparen hcallee

theorem arranged_kindsAll : ∀ (es : List Expr) {depth : Nat} {ks : List TokenKind},
    (∀ next ∈ ks.head?, next.isOperand = false) → Arranged depth ks →
      Arranged depth (Expr.kindsAll es ++ ks)
  | [], _, _, _, h => h
  | [e], _, _, hks, h => arranged_kinds e hks h
  | e :: f :: es, depth, ks, hks, h => by
    have hmore : Arranged depth (.comma :: (Expr.kindsAll (f :: es) ++ ks)) :=
      arranged_of_standsAlone rfl (arranged_kindsAll (f :: es) hks h)
    have hfirst := arranged_kinds e (by simp [isOperand]) hmore
    simpa [Expr.kindsAll] using hfirst

end

theorem arranged_stmt (s : Stmt) {ks : List TokenKind} (h : Arranged 0 (.newline :: ks)) :
    Arranged 0 (s.kinds ++ .newline :: ks) := by
  have hnewline : ∀ next ∈ (TokenKind.newline :: ks).head?, next.isOperand = false := by
    simp [isOperand]
  cases s with
  | assign target value =>
    exact arranged_operand rfl (by simp [isOperand])
      (arranged_of_standsAlone rfl (arranged_kinds value hnewline h))
  | expr value => exact arranged_kinds value hnewline h

/-- The tokens of a printed script do not run together. -/
theorem arranged_script (m : Script) : Arranged 0 m.kinds := by
  induction m with
  | nil => trivial
  | cons s m ih =>
    have hseparate : ∀ next, Separate .newline next :=
      fun _ => ⟨fun h => (nomatch h), fun h => (nomatch h)⟩
    exact arranged_stmt s ⟨fun _ => rfl, fun next _ => hseparate next, ih⟩

end Lexer

/-! ## The tokens are read as the tree -/

namespace Parser

variable {stop : Position} {levels power : Nat} {ts rest : List Token}

theorem unary?_sign (op : UnaryOp) : unary? op.sign = some op := by
  cases op <;> rfl

mutual

/-- With three levels for each step down, a printed expression is read as what it was. -/
theorem readExpression_kinds : ∀ (e : Expr) {levels : Nat} {ts rest : List Token},
    ts.map Token.kind = e.kinds → 3 * e.height ≤ levels + 3 → Ends 0 rest →
      readExpression stop levels 0 (ts ++ rest) = .ok (e, rest)
  | .constant value, levels, ts, rest, hts, _, hends => by
    obtain ⟨p, us, rfl, hus⟩ := Token.exists_cons_of_map_kind hts
    rw [List.map_eq_nil_iff.mp hus, List.singleton_append, readExpression_literal]
    exact readChain_of_ends hends
  | .name word, levels, ts, rest, hts, _, hends => by
    obtain ⟨p, us, rfl, hus⟩ := Token.exists_cons_of_map_kind hts
    rw [List.map_eq_nil_iff.mp hus, List.singleton_append, readExpression_name]
    exact readChain_of_ends hends
  | .unary op operand, levels, ts, rest, hts, hheight, hends => by
    obtain ⟨p, us, rfl, hus⟩ := Token.exists_cons_of_map_kind hts
    obtain ⟨q, inner, r, behind, rfl, hinner, hbehind⟩ := Token.exists_parentheses_of_map_kind hus
    obtain rfl := List.map_eq_nil_iff.mp hbehind
    have hpos := operand.height_pos
    rw [Expr.height] at hheight
    obtain ⟨l, rfl⟩ : ∃ l, levels = l + 1 + 1 := ⟨levels - 2, by omega⟩
    have hread : readExpression stop l 0 (inner ++ ⟨.rparen, r⟩ :: rest) =
        .ok (operand, ⟨.rparen, r⟩ :: rest) :=
      readExpression_kinds operand hinner (by omega) ends_rparen
    rw [List.cons_append, List.cons_append, List.append_assoc, List.singleton_append,
      readExpression_sign (unary?_sign op), readExpression_parentheses hread,
      readChain_of_ends (hends.mono (Nat.zero_le _))]
    exact readChain_of_ends hends
  | .binary op left right, levels, ts, rest, hts, hheight, hends => by
    obtain ⟨p, lefts, q, us, rfl, hlefts, hus⟩ := Token.exists_parentheses_of_map_kind hts
    obtain ⟨r, vs, rfl, hvs⟩ := Token.exists_cons_of_map_kind hus
    obtain ⟨s, rights, t, behind, rfl, hrights, hbehind⟩ :=
      Token.exists_parentheses_of_map_kind hvs
    obtain rfl := List.map_eq_nil_iff.mp hbehind
    have hpos := right.height_pos
    rw [Expr.height] at hheight
    obtain ⟨l, rfl⟩ : ∃ l, levels = l + 1 + 1 + 1 := ⟨levels - 3, by omega⟩
    have hright : readExpression stop l 0 (rights ++ ⟨.rparen, t⟩ :: rest) =
        .ok (right, ⟨.rparen, t⟩ :: rest) :=
      readExpression_kinds right hrights (by omega) ends_rparen
    have hleft : readExpression stop (l + 1 + 1) 0 (lefts ++ ⟨.rparen, q⟩ ::
        ⟨.operator op, r⟩ :: ⟨.lparen, s⟩ :: (rights ++ ⟨.rparen, t⟩ :: rest)) = .ok (left, _) :=
      readExpression_kinds left hlefts (by omega) ends_rparen
    simp only [List.cons_append, List.append_assoc, List.nil_append]
    rw [readExpression_parentheses hleft, readChain_operator (Nat.zero_le _),
      readExpression_parentheses hright, readChain_of_ends (hends.mono (Nat.zero_le _))]
    exact readChain_of_ends hends
  | .call callee arguments, levels, ts, rest, hts, hheight, hends => by
    obtain ⟨p, callees, q, us, rfl, hcallees, hus⟩ := Token.exists_parentheses_of_map_kind hts
    obtain ⟨r, args, s, behind, rfl, hargs, hbehind⟩ := Token.exists_parentheses_of_map_kind hus
    obtain rfl := List.map_eq_nil_iff.mp hbehind
    have hpos := callee.height_pos
    rw [Expr.height] at hheight
    obtain ⟨l, rfl⟩ : ∃ l, levels = l + 1 + 1 := ⟨levels - 2, by omega⟩
    have harguments : readArguments stop l (args ++ ⟨.rparen, s⟩ :: rest) =
        .ok (arguments, rest) :=
      readArguments_kindsAll arguments hargs (by omega)
    have hcallee : readExpression stop (l + 1) 0 (callees ++ ⟨.rparen, q⟩ ::
        ⟨.lparen, r⟩ :: (args ++ ⟨.rparen, s⟩ :: rest)) = .ok (callee, _) :=
      readExpression_kinds callee hcallees (by omega) ends_rparen
    simp only [List.cons_append, List.append_assoc, List.nil_append]
    rw [readExpression_parentheses hcallee, readChain_lparen, harguments]
    exact readChain_of_ends hends

theorem readArguments_kindsAll : ∀ (es : List Expr) {levels : Nat} {ts rest : List Token}
    {q : Position}, ts.map Token.kind = Expr.kindsAll es → 3 * Expr.heightAll es ≤ levels + 3 →
      readArguments stop levels (ts ++ ⟨.rparen, q⟩ :: rest) = .ok (es, rest)
  | [], levels, ts, rest, q, hts, _ => by
    rw [List.map_eq_nil_iff.mp hts, List.nil_append]
    exact readArguments_rparen
  | [e], levels, ts, rest, q, hts, hheight => by
    simp only [Expr.heightAll] at hheight
    exact readArguments_last (readExpression_kinds e hts (by omega) ends_rparen)
  | e :: f :: es, levels, ts, rest, q, hts, hheight => by
    obtain ⟨first, us, rfl, hfirst, hus⟩ := List.map_eq_append_iff.mp hts
    obtain ⟨p, more, rfl, hmore⟩ := Token.exists_cons_of_map_kind hus
    rw [Expr.heightAll] at hheight
    rw [List.append_assoc, List.cons_append]
    exact readArguments_cons (readExpression_kinds e hfirst (by omega) ends_comma)
      (readArguments_kindsAll (f :: es) hmore (by omega))

end

/-- Sixty is a height at which printed trees still fit into the levels. -/
theorem readExpression_printed {e : Expr} (hts : ts.map Token.kind = e.kinds)
    (hheight : e.height ≤ 60) (hends : Ends 0 rest) :
    readExpression stop maxNesting 0 (ts ++ rest) = .ok (e, rest) := by
  have hlevels : maxNesting = 200 := rfl
  exact readExpression_kinds e hts (by omega) hends

/-- A printed expression on a line of its own is not taken for an assignment. -/
theorem ne_assignment_of_kinds {e : Expr} (hts : ts.map Token.kind = e.kinds)
    (hrest : AtLineEnd rest) {word : String} {p q : Position} {behind : List Token} :
    ts ++ rest ≠ ⟨.name word, p⟩ :: ⟨.equals, q⟩ :: behind := by
  intro heq
  cases e with
  | name word' =>
    obtain ⟨r, us, rfl, hus⟩ := Token.exists_cons_of_map_kind hts
    rw [List.map_eq_nil_iff.mp hus] at heq
    cases heq
    rcases hrest with hrest | ⟨p, behind, hrest⟩ <;> cases hrest
  | constant | unary | binary | call =>
    obtain ⟨r, us, rfl, -⟩ := Token.exists_cons_of_map_kind hts
    cases heq

theorem readStatement_kinds {s : Stmt} (hts : ts.map Token.kind = s.kinds)
    (hheight : s.value.height ≤ 60) (hrest : AtLineEnd rest) :
    readStatement stop (ts ++ rest) = .ok (s, rest) := by
  cases s with
  | assign target value =>
    obtain ⟨p, us, rfl, hus⟩ := Token.exists_cons_of_map_kind hts
    obtain ⟨q, values, rfl, hvalues⟩ := Token.exists_cons_of_map_kind hus
    rw [List.cons_append, List.cons_append, readStatement_assign,
      readExpression_printed hvalues hheight hrest.ends]
    rfl
  | expr value =>
    rw [readStatement_expr fun _ _ _ _ => ne_assignment_of_kinds hts hrest,
      readExpression_printed hts hheight hrest.ends]
    rfl

/-- Printed statements are read one after the other. -/
theorem statements_kinds {m : Script} (seen : List Stmt) (hts : ts.map Token.kind = m.kinds)
    (hheight : ∀ s ∈ m, s.value.height ≤ 60) :
    statements stop seen ts = .ok (seen.reverse ++ m) := by
  induction m generalizing seen ts with
  | nil =>
    rw [List.map_eq_nil_iff.mp hts, statements_nil, List.append_nil]
  | cons s m ih =>
    obtain ⟨line, us, rfl, hline, hus⟩ := List.map_eq_append_iff.mp hts
    obtain ⟨p, behind, rfl, hbehind⟩ := Token.exists_cons_of_map_kind hus
    have hread : readStatement stop (line ++ ⟨.newline, p⟩ :: behind) =
        .ok (s, ⟨.newline, p⟩ :: behind) :=
      readStatement_kinds hline (hheight s List.mem_cons_self) (.inr ⟨p, behind, rfl⟩)
    rw [statements_line hread, ih _ hbehind fun t ht => hheight t (List.mem_cons_of_mem s ht),
      List.reverse_cons, List.append_assoc, List.singleton_append]

end Parser

/-! ## Parsing undoes printing -/

/-- **Parsing undoes printing.**  A script whose integers have no sign, whose doubles are finite
and have none either, whose names are identifiers and whose trees are at most sixty high is read
back from its text, if the decimals of its doubles read back.  The literals and names of a script
are those among the tokens that it is printed with; its texts may be any. -/
theorem ofText_render (m : Script)
    (hint : ∀ n, TokenKind.literal (.int n) ∈ m.kinds → 0 ≤ n.toInt)
    (hfloat : ∀ x, TokenKind.literal (.float x) ∈ m.kinds → TokenKind.IsUnsigned x)
    (hname : ∀ word, TokenKind.name word ∈ m.kinds → TokenKind.IsIdentifier word)
    (hheight : ∀ s ∈ m, s.value.height ≤ 60)
    (hread : ∀ x, TokenKind.literal (.float x) ∈ m.kinds →
      FloatText.read? (FloatText.render x) = some x) :
    Script.ofText m.render = .ok m := by
  have hspellable : ∀ k ∈ m.kinds, k.Spellable := by
    intro k hk
    cases k with
    | literal value =>
      cases value with
      | int n => exact hint n hk
      | float x => exact ⟨hfloat x hk, hread x hk⟩
      | none | bool | str => trivial
    | name word => exact hname word hk
    | operator | lparen | rparen | comma | equals | newline => trivial
  obtain ⟨stream, hstream, hkinds⟩ :=
    TokenStream.ofText_spelling hspellable (Lexer.arranged_script m)
  rw [Script.ofText, Script.render, hstream]
  exact Parser.statements_kinds [] hkinds hheight

/-- The double nearest to one tenth. -/
def tenth : Double := ⟨0x3fb999999999999a⟩

/-- An assignment with a double in it, and a call with texts that need escapes. -/
def assortedScript : Script :=
  [.assign "naïve" (.binary .floorDiv (.unary .neg (.constant (.float tenth))) (.constant (.int 7))),
    .expr (.call (.name "print")
      [.constant (.str "it's \\ a\nline #1"), .name "naïve", .constant .none])]

theorem ofText_render_assorted :
    Script.ofText
      "naïve=(-(0.1))//(7)\n(print)('it\\'s \\\\ a\\nline #1',naïve,None)\n" =
        .ok assortedScript := by
  have hkinds : assortedScript.kinds =
      [.name "naïve", .equals, .lparen, .operator .sub, .lparen, .literal (.float tenth), .rparen,
        .rparen, .operator .floorDiv, .lparen, .literal (.int 7), .rparen, .newline, .lparen,
        .name "print", .rparen, .lparen, .literal (.str "it's \\ a\nline #1"), .comma,
        .name "naïve", .comma, .literal .none, .rparen, .newline] := rfl
  have hrender : assortedScript.render =
      "naïve=(-(0.1))//(7)\n(print)('it\\'s \\\\ a\\nline #1',naïve,None)\n" := by
    decide +kernel
  have hfloat : ∀ x, TokenKind.literal (.float x) ∈ assortedScript.kinds → x = tenth := by
    simp [hkinds]
  rw [← hrender]
  refine ofText_render assortedScript ?_ ?_ ?_ ?_ ?_
  · simp [hkinds]
  · intro x hx
    rw [hfloat x hx]
    exact ⟨7205759403792794, -56, by decide +kernel⟩
  · have hname : ∀ word, TokenKind.name word ∈ assortedScript.kinds →
        word = "naïve" ∨ word = "print" := by
      simp [hkinds]
    intro word hword
    rcases hname word hword with rfl | rfl
    · exact ⟨⟨'n', ['a', 'ï', 'v', 'e'], rfl, by decide, by decide⟩, by decide⟩
    · exact ⟨⟨'p', ['r', 'i', 'n', 't'], rfl, by decide, by decide⟩, by decide⟩
  · decide
  · intro x hx
    rw [hfloat x hx]
    decide +kernel

end StackScript
