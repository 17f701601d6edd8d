import Mathlib
import StackScript.Proofs.Script.Nesting
import StackScript.Proofs.Script.Shapes
import StackScript.Proofs.Folding
import StackScript.Proofs.Lowering.Tables

/-!
# The words of a script

A name keeps its spelling all the way from the text of a script to the name table of its code.  It
is cut off as a word, which has only characters that may stand in one (`Lexer.isWord_scan`); it
becomes one node of the tree or one target (`Grammar.words_module`); the passes fold literals,
which have no words in them, and so leave the words of a tree as they were
(`Script.words_optimize`); and lowering enters no name that is not a word of the tree
(`Lower.names_of_stmts`).

So what is known about words is known about name tables (`Script.isWord_of_compile`).  What is
needed of it elsewhere is that no name has the end of a line in it.
-/

namespace StackScript

/-! ## Words -/

/-- Every character may stand in a word. -/
def IsWord (word : String) : Prop := ∀ c ∈ word.toList, Lexeme.continuesWord c = true

/-- A word is on one line. -/
theorem IsWord.newline_not_mem {word : String} (h : IsWord word) : '\n' ∉ word.toList := by
  intro hmem
  have hnewline : Lexeme.continuesWord '\n' = false := by decide
  rw [h _ hmem] at hnewline
  cases hnewline

mutual

/-- The names in an expression, in order. -/
def Expr.words : Expr → List String
  | .constant _ => []
  | .name word => [word]
  | .unary _ operand => operand.words
  | .binary _ left right => left.words ++ right.words
  | .call callee arguments => callee.words ++ Expr.wordsAll arguments

/-- The names in some expressions. -/
def Expr.wordsAll : List Expr → List String
  | [] => []
  | e :: es => e.words ++ Expr.wordsAll es

end

/-- The names in a statement. -/
def Stmt.words : Stmt → List String
  | .assign target value => target :: value.words
  | .expr value => value.words

/-- The names in a script. -/
def Script.words (s : Script) : List String := s.flatMap Stmt.words

/-! ## By tokens -/

/-- The word of a token. -/
def TokenKind.word? : TokenKind → Option String
  | .name word => some word
  | _ => none

namespace Grammar

/-- The words of some tokens. -/
def words (ts : List Token) : List String := ts.filterMap fun t => t.kind.word?

@[simp] theorem words_nil : words [] = [] := rfl

@[simp] theorem words_append (ts us : List Token) : words (ts ++ us) = words ts ++ words us :=
  List.filterMap_append

@[simp] theorem words_cons_name (word : String) (p : Position) (ts : List Token) :
    words (⟨.name word, p⟩ :: ts) = word :: words ts := rfl

@[simp] theorem words_cons_of_none {kind : TokenKind} (h : kind.word? = none) (p : Position)
    (ts : List Token) : words (⟨kind, p⟩ :: ts) = words ts :=
  List.filterMap_cons_none h

mutual

/-- The words of an expression are those of its tokens. -/
theorem words_sum : ∀ {ts : List Token} {e : Expr}, Sum ts e → e.words = words ts
  | _, _, .product h => words_product h
  | _, _, .link left _ right => by
    rw [words_append, words_cons_of_none rfl, ← words_sum left, ← words_product right, Expr.words]

theorem words_product : ∀ {ts : List Token} {e : Expr}, Product ts e → e.words = words ts
  | _, _, .unary h => words_unary h
  | _, _, .link left _ right => by
    rw [words_append, words_cons_of_none rfl, ← words_product left, ← words_unary right, Expr.words]

theorem words_unary : ∀ {ts : List Token} {e : Expr}, Unary ts e → e.words = words ts
  | _, _, .primary h => words_primary h
  | _, _, .sign _ operand => by
    rw [words_cons_of_none rfl, ← words_unary operand, Expr.words]

theorem words_primary : ∀ {ts : List Token} {e : Expr}, Primary ts e → e.words = words ts
  | _, _, .atom h => words_atom h
  | _, _, .call callee arguments => by
    rw [words_append, words_cons_of_none rfl, words_append, words_cons_of_none rfl, words_nil,
      List.append_nil, ← words_primary callee, ← words_arguments arguments, Expr.words]

theorem words_arguments : ∀ {ts : List Token} {args : List Expr}, Arguments ts args →
    Expr.wordsAll args = words ts
  | _, _, .nil => rfl
  | _, _, .last h => by
    rw [← words_sum h, Expr.wordsAll, Expr.wordsAll, List.append_nil]
  | _, _, .cons head tail => by
    rw [words_append, words_cons_of_none rfl, ← words_sum head, ← words_arguments tail,
      Expr.wordsAll]

theorem words_atom : ∀ {ts : List Token} {e : Expr}, Atom ts e → e.words = words ts
  | _, _, .literal => rfl
  | _, _, .name => rfl
  | _, _, .parentheses h => by
    rw [words_cons_of_none rfl, words_append, words_cons_of_none rfl, words_nil, List.append_nil,
      ← words_sum h]

end

theorem words_statement {ts : List Token} {s : Stmt} (h : Statement ts s) :
    s.words = words ts := by
  cases h with
  | assign h => rw [words_cons_name, words_cons_of_none rfl, ← words_sum h, Stmt.words]
  | expr h => rw [← words_sum h, Stmt.words]

theorem words_module {ts : List Token} {m : Script} (h : Module ts m) : m.words = words ts := by
  induction h with
  | empty => rfl
  | blank _ ih => rw [words_cons_of_none rfl, ih]
  | last h =>
    rw [← words_statement h, Script.words, List.flatMap_cons, List.flatMap_nil, List.append_nil]
  | cons head _ ih =>
    rw [words_append, words_cons_of_none rfl, ← words_statement head, ← ih, Script.words,
      List.flatMap_cons, Script.words]

end Grammar

/-! ## By characters -/

namespace Lexer

open Lexeme

theorem eq_of_wordKind {taken : List Char} {word : String} (h : wordKind taken = .name word) :
    word = String.ofList taken := by
  unfold wordKind TokenKind.keyword? at h
  dsimp only at h
  split at h
  · cases h
  · split at h
    · cases h
    · split at h <;> cases h
      rfl

theorem ne_name_of_numberKind {taken : List Char} {word : String} :
    numberKind taken ≠ .ok (.name word) := by
  unfold numberKind
  dsimp only
  split <;> split <;> simp

theorem ne_name_of_symbol? {c : Char} {word : String} : symbol? c ≠ some (.name word) := by
  unfold symbol?
  split <;> simp

/-- What means a name is a word. -/
theorem isWord_of_means {shape : Shape} {taken : List Char} {word : String}
    (h : Means shape taken (.ok (.name word))) : IsWord word := by
  generalize hresult : (Except.ok (.name word) : Except SyntaxError.Cause TokenKind) = result at h
  cases h with
  | number _ _ => exact absurd hresult.symm ne_name_of_numberKind
  | word hc h =>
    rw [eq_of_wordKind (Except.ok.inj hresult).symm, IsWord, String.toList_ofList]
    exact List.forall_mem_cons.mpr ⟨by rw [continuesWord, hc, Bool.true_or], h⟩
  | text => cases hresult
  | symbol h =>
    rw [← Except.ok.inj hresult] at h
    exact absurd h ne_name_of_symbol?
  | slashes => cases hresult

/-- The name that a lexeme is a token of is a word. -/
theorem isWord_cut {c : Char} {cs : List Char} {l : Lexeme} (h : cut c cs = .ok l)
    {word : String} (hword : l.kind = .name word) : IsWord word := by
  have hanswers := answers_cut c cs
  rw [h] at hanswers
  obtain ⟨-, ⟨shape, hmeans⟩, -⟩ := hanswers
  rw [hword] at hmeans
  exact isWord_of_means hmeans

theorem isWord_scan {depth : Nat} {here : Position} {seen : List Token} {cs : List Char}
    {stream : TokenStream} (h : scan depth here seen cs = .ok stream)
    (hseen : ∀ word ∈ Grammar.words seen, IsWord word) :
    ∀ word ∈ Grammar.words stream.tokens, IsWord word := by
  induction hn : cs.length using Nat.strongRecOn generalizing depth here seen cs with
  | _ n ih =>
    rcases scan_cases h with ⟨-, rfl⟩ | ⟨c, rest, l, -, hcut, hshorter, hnext⟩
    · intro word hword
      rw [Grammar.words, List.filterMap_reverse] at hword
      exact hseen word (List.mem_reverse.mp hword)
    · refine ih l.rest.length (by omega) hnext ?_ rfl
      intro word hword
      cases hkind : l.kind with
      | name taken =>
        rw [hkind, Grammar.words_cons_name] at hword
        rcases List.mem_cons.mp hword with rfl | hmem
        · exact isWord_cut hcut hkind
        · exact hseen word hmem
      | literal | operator | lparen | rparen | comma | equals | newline =>
        rw [hkind, Grammar.words_cons_of_none rfl] at hword
        exact hseen word hword

end Lexer

/-- The names in the tree of a script are words. -/
theorem Script.isWord_of_ofText {source : String} {m : Script} (h : Script.ofText source = .ok m) :
    ∀ word ∈ m.words, IsWord word := by
  obtain ⟨stream, htokens, hparse⟩ := Script.eq_ok_of_ofText h
  obtain ⟨m', hm, hmodule⟩ := Parser.module_of_statements hparse
  obtain rfl : m = m' := hm
  rw [Grammar.words_module hmodule]
  exact Lexer.isWord_scan htokens fun word hword => absurd hword List.not_mem_nil

/-! ## Through the passes -/

namespace Expr

theorem words_foldUnary (op : UnaryOp) (e : Expr) : (foldUnary op e).1.words = e.words := by
  unfold foldUnary
  split
  · next a ha =>
    split
    · rw [eq_constant_of_constant? ha, words, words]
    · rw [words]
  · rw [words]

theorem words_foldBinary (op : BinaryOp) (left right : Expr) :
    (foldBinary op left right).1.words = left.words ++ right.words := by
  unfold foldBinary
  split
  · next a b ha hb =>
    split
    · rw [eq_constant_of_constant? ha, eq_constant_of_constant? hb, words, words, words,
        List.append_nil]
    · rw [words]
  · rw [words]

mutual

/-- The thorough pass leaves the words as they are. -/
theorem words_foldDeep : ∀ e : Expr, e.foldDeep.1.words = e.words
  | .constant _ => rfl
  | .name _ => rfl
  | .unary op e => by
      rw [foldDeep, words_foldUnary, words_foldDeep e, words]
  | .binary op left right => by
      rw [foldDeep, words_foldBinary, words_foldDeep left, words_foldDeep right, words]
  | .call callee arguments => by
      rw [foldDeep, words, words_foldDeep callee, wordsAll_foldDeepAll arguments, words]

theorem wordsAll_foldDeepAll : ∀ es : List Expr, wordsAll (foldDeepAll es).1 = wordsAll es
  | [] => rfl
  | e :: es => by
      rw [foldDeepAll, wordsAll, words_foldDeep e, wordsAll_foldDeepAll es, wordsAll]

end

/-- The cheap pass answers a node by one with the same words. -/
theorem words_of_foldPair? {e d : Expr} (h : foldPair? e = some d) : d.words = e.words := by
  cases e with
  | constant | name | unary | call => cases h
  | binary op left right =>
    simp only [foldPair?] at h
    split at h
    · next c hc =>
      obtain ⟨-, a, b, rfl, rfl, -⟩ := Pair.inspect_eq_value_iff.mp hc
      cases h
      rfl
    · cases h
      rfl

section Replace

variable {answer : Expr → Option Expr}

mutual

/-- A replacement that leaves the words of every node leaves those of every tree. -/
theorem words_replace (h : ∀ e d, answer e = some d → d.words = e.words) :
    ∀ e : Expr, (e.replace answer).words = e.words
  | .constant k => by
      cases hd : answer (.constant k) with
      | some d => rw [replace_of_some hd, h _ _ hd]
      | none => rw [replace, hd, Option.getD_none]
  | .name word => by
      cases hd : answer (.name word) with
      | some d => rw [replace_of_some hd, h _ _ hd]
      | none => rw [replace, hd, Option.getD_none]
  | .unary op e => by
      cases hd : answer (.unary op e) with
      | some d => rw [replace_of_some hd, h _ _ hd]
      | none => simp only [replace, hd, words, words_replace h e]
  | .binary op left right => by
      cases hd : answer (.binary op left right) with
      | some d => rw [replace_of_some hd, h _ _ hd]
      | none => simp only [replace, hd, words, words_replace h left, words_replace h right]
  | .call callee arguments => by
      cases hd : answer (.call callee arguments) with
      | some d => rw [replace_of_some hd, h _ _ hd]
      | none =>
        simp only [replace, hd, words, words_replace h callee, wordsAll_replaceAll h arguments]

theorem wordsAll_replaceAll (h : ∀ e d, answer e = some d → d.words = e.words) :
    ∀ es : List Expr, wordsAll (replaceAll answer es) = wordsAll es
  | [] => rfl
  | e :: es => by
      rw [replaceAll, wordsAll, words_replace h e, wordsAll_replaceAll h es, wordsAll]

end

end Replace

end Expr

theorem Stmt.words_optimize (options : OptimizeOptions) (t : Stmt) :
    (t.optimize options).words = t.words := by
  have hcheap : (t.replace foldPair?).words = t.words := by
    cases t with
    | assign target value =>
      rw [Stmt.replace, words, words, Expr.words_replace fun e d => Expr.words_of_foldPair?]
    | expr value =>
      rw [Stmt.replace, words, words, Expr.words_replace fun e d => Expr.words_of_foldPair?]
  have hdeep : ∀ u : Stmt, u.foldDeep.1.words = u.words := by
    intro u
    cases u with
    | assign target value => rw [Stmt.foldDeep, words, words, Expr.words_foldDeep]
    | expr value => rw [Stmt.foldDeep, words, words, Expr.words_foldDeep]
  unfold Stmt.optimize
  cases options.constantFolding <;> cases options.deepFolding
  · rfl
  · exact hdeep t
  · exact hcheap
  · exact (hdeep _).trans hcheap

/-- **No pass changes the words of a script.** -/
theorem Script.words_optimize (options : OptimizeOptions) (s : Script) :
    Script.words (s.optimize options) = Script.words s := by
  rw [Script.optimize_eq_map]
  induction s with
  | nil => rfl
  | cons t ts ih =>
    rw [List.map_cons, Script.words, List.flatMap_cons, Stmt.words_optimize]
    exact congrArg (t.words ++ ·) ih

/-! ## Into the name table -/

namespace Lower

variable {filename : String} {t t' : Tables} {code : List Instr}

theorem mem_of_mem_intern {α : Type} [DecidableEq α] {table : List α} {a b : α}
    (h : b ∈ (intern table a).2) : b ∈ table ∨ b = a := by
  unfold intern at h
  split at h
  · exact .inl h
  · simpa using h

/-- Between two states of the tables no names were entered but these. -/
def Names (t : Tables) (words : List String) (t' : Tables) : Prop :=
  ∀ w ∈ t'.names, w ∈ t.names ∨ w ∈ words

theorem Names.nil : Names t [] t := fun _ hw => .inl hw

theorem Names.append {t'' : Tables} {words words' : List String} (h : Names t words t')
    (h' : Names t' words' t'') : Names t (words ++ words') t'' := by
  intro w hw
  rcases h' w hw with hw | hw
  · exact (h w hw).imp_right (List.mem_append_left words')
  · exact .inr (List.mem_append_right words hw)

theorem names_of_constant {c : Constant} {i : UInt32} (h : constant filename c t = .ok (i, t')) :
    Names t [] t' := by
  obtain ⟨-, rfl⟩ := constant_iff.mp h
  exact .nil

theorem names_of_name {word : String} {i : UInt32} (h : name filename word t = .ok (i, t')) :
    Names t [word] t' := by
  obtain ⟨-, rfl⟩ := name_iff.mp h
  exact fun w hw => (mem_of_mem_intern hw).imp_right List.mem_singleton.mpr

mutual

/-- Lowering an expression enters no names but those in it. -/
theorem names_of_expr : ∀ {e : Expr} {t t' : Tables} {code : List Instr},
    expr filename t e = .ok (code, t') → Names t e.words t'
  | .constant _, _, _, _, h => by
      obtain ⟨i, hentry, rfl⟩ := expr_constant_iff.mp h
      exact names_of_constant hentry
  | .name _, _, _, _, h => by
      obtain ⟨i, hentry, rfl⟩ := expr_name_iff.mp h
      exact names_of_name hentry
  | .unary _ e, _, _, _, h => by
      obtain ⟨code₁, h₁, rfl⟩ := expr_unary_iff.mp h
      rw [Expr.words]
      exact names_of_expr h₁
  | .binary _ e₁ e₂, _, _, _, h => by
      obtain ⟨code₁, t₁, code₂, h₁, h₂, rfl⟩ := expr_binary_iff.mp h
      rw [Expr.words]
      exact (names_of_expr h₁).append (names_of_expr h₂)
  | .call e es, _, _, _, h => by
      obtain ⟨code₁, t₁, code₂, n, h₁, h₂, -, rfl⟩ := expr_call_iff.mp h
      rw [Expr.words]
      exact (names_of_expr h₁).append (names_of_exprs h₂)

theorem names_of_exprs : ∀ {es : List Expr} {t t' : Tables} {code : List Instr},
    exprs filename t es = .ok (code, t') → Names t (Expr.wordsAll es) t'
  | [], _, _, _, h => by
      obtain ⟨rfl, rfl⟩ := exprs_nil_iff.mp h
      exact .nil
  | e :: es, _, _, _, h => by
      obtain ⟨code₁, t₁, code₂, h₁, h₂, rfl⟩ := exprs_cons_iff.mp h
      rw [Expr.wordsAll]
      exact (names_of_expr h₁).append (names_of_exprs h₂)

end

theorem names_of_stmt {u : Stmt} (h : stmt filename t u = .ok (code, t')) :
    Names t u.words t' := by
  cases u with
  | assign target value =>
    obtain ⟨code₁, t₁, i, h₁, h₂, rfl⟩ := stmt_assign_iff.mp h
    have hboth := (names_of_expr h₁).append (names_of_name h₂)
    exact fun w hw => (hboth w hw).imp_right fun hmem =>
      (List.perm_append_singleton target value.words).mem_iff.mp hmem
  | expr value =>
    obtain ⟨code₁, h₁, rfl⟩ := stmt_expr_iff.mp h
    exact names_of_expr h₁

theorem names_of_stmts {us : Script} (h : stmts filename t us = .ok (code, t')) :
    Names t us.words t' := by
  induction us generalizing t code with
  | nil =>
    obtain ⟨rfl, rfl⟩ := stmts_nil_iff.mp h
    exact .nil
  | cons u us ih =>
    obtain ⟨code₁, t₁, code₂, h₁, h₂, rfl⟩ := stmts_cons_iff.mp h
    exact (names_of_stmt h₁).append (ih h₂)

end Lower

/-- The names of lowered code are words of the tree. -/
theorem Script.mem_words_of_lower {filename : String} {s : Script} {c : Code}
    (h : s.lower filename = .ok c) : ∀ w ∈ c.names, w ∈ s.words := by
  obtain ⟨code, t, i, hcode, hnone, -, -⟩ := Lower.lower_iff.mp h
  have hnames := (Lower.names_of_stmts hcode).append (Lower.names_of_constant hnone)
  rw [List.append_nil] at hnames
  exact fun w hw => (hnames w hw).resolve_left List.not_mem_nil

/-- **The names of compiled code are words.** -/
theorem Script.isWord_of_compile {source filename : String} {m : Script} {options : OptimizeOptions}
    {c : Code} (h : Script.ofText source = .ok m) (hcompile : m.compile options filename = .ok c) :
    ∀ word ∈ c.names, IsWord word := by
  intro word hword
  have hmem := Script.mem_words_of_lower (Script.lower_optimize_of_compile hcompile) word hword
  rw [Script.words_optimize] at hmem
  exact Script.isWord_of_ofText h word hmem

end StackScript
