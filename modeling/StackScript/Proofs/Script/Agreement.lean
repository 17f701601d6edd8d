import StackScript.Proofs.Script.Soundness

/-!
# The parser implements the grammar

Expressions are put together to statements and statements to scripts, where nothing can go
wrong any more: a statement stands on one line, so the ends of lines divide a script in one way
only (`Grammar.Module.forall₂_lines`), and each statement starts with all the levels there are.
-/

namespace StackScript

namespace Parser

open Grammar

variable {stop : Position} {pos : Position} {ts us rest : List Token}

/-! ## Statements -/

/-- What may stand behind a statement: nothing, or the end of its line. -/
def AtLineEnd (ts : List Token) : Prop := ts = [] ∨ ∃ p behind, ts = ⟨.newline, p⟩ :: behind

theorem AtLineEnd.ends (h : AtLineEnd ts) : Ends 0 ts := by
  rcases h with rfl | ⟨p, behind, rfl⟩ <;> trivial

theorem ne_nil_of_sum {e : Expr} (h : Sum ts e) : ts ≠ [] := by
  rintro rfl
  have hread : readExpression .start 0 0 ([] ++ []) = .ok (e, []) :=
    readExpression_sum h (Nat.le_refl _) trivial
  rw [List.append_nil, readExpression_nil] at hread
  cases hread

theorem ne_nil_of_statement {s : Stmt} (h : Statement ts s) : ts ≠ [] := by
  cases h with
  | assign => exact List.cons_ne_nil _ _
  | expr h => exact ne_nil_of_sum h

/-- No expression has an equals sign behind a name. -/
theorem not_sum_assignment {word : String} {p q : Position} {e : Expr} :
    ¬Sum (⟨.name word, p⟩ :: ⟨.equals, q⟩ :: ts) e :=
  fun h => (h.inner ⟨.equals, q⟩ (by simp)).2 rfl

/-- A bare expression is not the beginning of an assignment. -/
theorem ne_assignment_of_sum {e : Expr} (h : Sum ts e) (hrest : AtLineEnd rest) {word : String}
    {p q : Position} {behind : List Token} :
    ts ++ rest ≠ ⟨.name word, p⟩ :: ⟨.equals, q⟩ :: behind := by
  intro heq
  rcases ts with _ | ⟨t, _ | ⟨u, ts⟩⟩
  · exact ne_nil_of_sum h rfl
  · cases heq
    rcases hrest with hrest | ⟨p, behind, hrest⟩ <;> cases hrest
  · cases heq
    exact not_sum_assignment h

theorem gives_statement {s : Stmt} (h : Statement ts s) (hrest : AtLineEnd rest) :
    Gives maxNesting ts (readStatement stop (ts ++ rest)) (s, rest) := by
  have hsum : ∀ {us : List Token} {e : Expr}, Sum us e →
      Gives maxNesting us (readExpression stop maxNesting 0 (us ++ rest)) (e, rest) :=
    fun h => (advances_sum h (by omega) (hrest.ends.mono (by omega))).gives hrest.ends
  unfold Gives
  cases h with
  | assign h =>
    rw [List.cons_append, List.cons_append, readStatement_assign]
    rcases hsum h with hread | ⟨hlevels, hexceeds⟩
    · left
      rw [hread]
      rfl
    · exact .inr ⟨by simpa using hlevels, hexceeds.bind _⟩
  | expr h =>
    rw [readStatement_expr fun word p q behind => ne_assignment_of_sum h hrest]
    rcases hsum h with hread | ⟨hlevels, hexceeds⟩
    · left
      rw [hread]
      rfl
    · exact .inr ⟨hlevels, hexceeds.bind _⟩

theorem statement_of_readStatement {s : Stmt} (h : readStatement stop ts = .ok (s, rest)) :
    ∃ used, ts = used ++ rest ∧ Statement used s := by
  obtain ⟨hsound, -⟩ := sound stop maxNesting
  rcases readStatement_cases h with ⟨word, p, q, behind, value, rfl, rfl, hread⟩ |
    ⟨value, rfl, hread⟩
  · obtain ⟨used, rfl, hsum, -⟩ := hsound hread
    exact ⟨⟨.name word, p⟩ :: ⟨.equals, q⟩ :: used, rfl, .assign hsum⟩
  · obtain ⟨used, rfl, hsum, -⟩ := hsound hread
    exact ⟨used, rfl, .expr hsum⟩

theorem eq_of_statement {s s' : Stmt} (h : Statement ts s) (h' : Statement ts s') : s = s' := by
  cases h with
  | assign h =>
    cases h' with
    | assign h' => rw [eq_of_sum h h']
    | expr h' => exact absurd h' not_sum_assignment
  | expr h =>
    cases h' with
    | assign h' => exact absurd h not_sum_assignment
    | expr h' => rw [eq_of_sum h h']

/-! ## Scripts -/

end Parser

namespace Grammar

theorem lines_newline {ts : List Token} {pos : Position} :
    lines (⟨.newline, pos⟩ :: ts) = [] :: lines ts := by
  rw [lines, List.splitOnP_cons_eq_if_modifyHead]
  rfl

theorem lines_statement {ts : List Token} {s : Stmt} (h : Statement ts s) : lines ts = [ts] :=
  List.splitOnP_eq_singleton h.isNewline_eq_false

theorem lines_statement_append {ts us : List Token} {pos : Position} {s : Stmt}
    (h : Statement ts s) : lines (ts ++ ⟨.newline, pos⟩ :: us) = ts :: lines us :=
  List.splitOnP_append_cons_of_forall_mem h.isNewline_eq_false _ rfl us

/-- The statements of a script are its lines, but for the empty ones. -/
theorem Module.forall₂_lines {ts : List Token} {m : Script} (h : Module ts m) :
    List.Forall₂ Statement ((lines ts).filter (· ≠ [])) m := by
  induction h with
  | empty => exact .nil
  | @blank ts pos m h ih =>
    rw [lines_newline]
    exact ih
  | @last ts s h =>
    rw [lines_statement h, List.filter_cons_of_pos (by simpa using Parser.ne_nil_of_statement h)]
    exact .cons h .nil
  | @cons ts us pos s m head tail ih =>
    rw [lines_statement_append head,
      List.filter_cons_of_pos (by simpa using Parser.ne_nil_of_statement head)]
    exact .cons head ih

/-- Tokens derive at most one script. -/
theorem Module.unique {ts : List Token} {m m' : Script} (h : Module ts m) (h' : Module ts m') :
    m = m' := by
  have hstatement : Relator.RightUnique Statement := fun _ _ _ => Parser.eq_of_statement
  exact List.right_unique_forall₂' hstatement h.forall₂_lines h'.forall₂_lines

end Grammar

namespace Parser

open Grammar

variable {stop : Position} {ts rest : List Token}

/-- Reading a statement and going on behind it. -/
theorem statements_append {s : Stmt} {seen : List Stmt} (h : Statement ts s) :
    statements stop seen (ts ++ rest) = readStatement stop (ts ++ rest) >>= fun first =>
      match first.2 with
      | [] => .ok (first.1 :: seen).reverse
      | u :: behind =>
          if u.kind = .newline then statements stop (first.1 :: seen) behind
          else .error (unexpected stop .afterStatement (u :: behind)) := by
  rcases ts with _ | ⟨t, ts⟩
  · exact absurd rfl (ne_nil_of_statement h)
  · have ht := h.isNewline_eq_false t List.mem_cons_self
    exact statements_statement (of_decide_eq_false ht)

/-- What the grammar derives is read, unless a line takes too many levels. -/
theorem statements_of_module {m : Script} (h : Module ts m) (seen : List Stmt) :
    statements stop seen ts = .ok (seen.reverse ++ m) ∨
      Exceeds (statements stop seen ts) ∧ ∃ line ∈ lines ts, maxNesting < cost line := by
  induction h generalizing seen with
  | empty =>
    left
    rw [statements_nil, List.append_nil]
  | blank h ih =>
    rw [statements_newline, lines_newline]
    refine (ih seen).imp_right fun ⟨hexceeds, line, hline, hcost⟩ => ?_
    exact ⟨hexceeds, line, List.mem_cons_of_mem _ hline, hcost⟩
  | @last ts s h =>
    rw [← List.append_nil ts, statements_append h, List.append_nil ts, lines_statement h]
    have hgives : Gives maxNesting ts (readStatement stop (ts ++ [])) (s, []) :=
      gives_statement h (.inl rfl)
    rw [List.append_nil] at hgives
    rcases hgives with hread | ⟨hlevels, hexceeds⟩
    · left
      rw [hread]
      exact congrArg Except.ok List.reverse_cons
    · exact .inr ⟨hexceeds.bind _, ts, List.mem_cons_self, hlevels⟩
  | @cons ts us pos s m head tail ih =>
    rw [statements_append head, lines_statement_append head]
    have hgives : Gives maxNesting ts (readStatement stop (ts ++ ⟨.newline, pos⟩ :: us))
        (s, ⟨.newline, pos⟩ :: us) := gives_statement head (.inr ⟨pos, us, rfl⟩)
    rcases hgives with hread | ⟨hlevels, hexceeds⟩
    · rw [hread]
      show statements stop (s :: seen) us = _ ∨ Exceeds (statements stop (s :: seen) us) ∧ _
      rcases ih (s :: seen) with hread | ⟨hexceeds, line, hline, hcost⟩
      · left
        rw [hread, List.reverse_cons, List.append_assoc, List.singleton_append]
      · exact .inr ⟨hexceeds, line, List.mem_cons_of_mem _ hline, hcost⟩
    · exact .inr ⟨hexceeds.bind _, ts, List.mem_cons_self, hlevels⟩

/-- What is read is derived. -/
theorem module_of_statements {seen : List Stmt} {found : Script}
    (h : statements stop seen ts = .ok found) :
    ∃ m, found = seen.reverse ++ m ∧ Module ts m := by
  induction hn : ts.length using Nat.strongRecOn generalizing ts seen with
  | _ n ih =>
    rcases statements_cases h with ⟨rfl, rfl⟩ | ⟨p, behind, rfl, hnext⟩ | ⟨s, hread, rfl⟩ |
      ⟨s, p, behind, hread, hlt, hnext⟩
    · exact ⟨[], (List.append_nil _).symm, .empty⟩
    · obtain ⟨m, hfound, hmodule⟩ :=
        ih behind.length (by rw [← hn]; exact Nat.lt_succ_self _) hnext rfl
      exact ⟨m, hfound, .blank hmodule⟩
    · obtain ⟨used, hused, hstatement⟩ := statement_of_readStatement hread
      rw [List.append_nil] at hused
      exact ⟨[s], List.reverse_cons, hused ▸ .last hstatement⟩
    · obtain ⟨used, rfl, hstatement⟩ := statement_of_readStatement hread
      obtain ⟨m, rfl, hmodule⟩ := ih behind.length (by omega) hnext rfl
      exact ⟨s :: m, by simp, .cons hstatement hmodule⟩

end Parser

/-- **The parser implements the grammar.**  If the tokens of a script derive a tree, it is the
only one, and it is what the parser gives, unless it reports too many levels; that it does only
if the tokens of some statement hold more opening parentheses and operators than there are
levels.  If the tokens derive no tree, the parser reports an error. -/
theorem parse_iff_grammar (s : TokenStream) :
    (∀ m, Grammar.Module s.tokens m →
      (∀ m', Grammar.Module s.tokens m' → m' = m) ∧
      (s.parse = .ok m ∨
        (∃ e, s.parse = .error e ∧ e.isNestingLimit = true) ∧
          ∃ line ∈ Grammar.lines s.tokens, maxNesting < line.countP Grammar.takesLevel)) ∧
    ((¬∃ m, Grammar.Module s.tokens m) → ∃ e, s.parse = .error e) := by
  refine ⟨fun m h => ⟨fun m' h' => h'.unique h, Parser.statements_of_module h []⟩, fun hnone => ?_⟩
  cases hparse : s.parse with
  | error e => exact ⟨e, rfl⟩
  | ok m =>
    obtain ⟨m', -, hmodule⟩ := Parser.module_of_statements hparse
    exact absurd ⟨m', hmodule⟩ hnone

/-- The tokens of `x = -f(1, y,) * 2 - 3` and the end of a line, where they stand left out. -/
def mixedTokens : List Token :=
  [⟨.name "x", .start⟩, ⟨.equals, .start⟩, ⟨.operator .sub, .start⟩, ⟨.name "f", .start⟩,
    ⟨.lparen, .start⟩, ⟨.literal (.int 1), .start⟩, ⟨.comma, .start⟩, ⟨.name "y", .start⟩,
    ⟨.comma, .start⟩, ⟨.rparen, .start⟩, ⟨.operator .mul, .start⟩, ⟨.literal (.int 2), .start⟩,
    ⟨.operator .sub, .start⟩, ⟨.literal (.int 3), .start⟩, ⟨.newline, .start⟩]

/-- The tree of `x = -f(1, y,) * 2 - 3`. -/
def mixedTree : Expr :=
  .binary .sub
    (.binary .mul (.unary .neg (.call (.name "f") [.constant (.int 1), .name "y"]))
      (.constant (.int 2)))
    (.constant (.int 3))

namespace Grammar

theorem sum_mixedTokens : Sum mixedTokens.tail.tail.dropLast mixedTree := by
  have hatom : ∀ {ts : List Token} {e : Expr}, Atom ts e → Sum ts e :=
    fun h => .product (.unary (.primary (.atom h)))
  have hargs : Arguments _ [.constant (.int 1), .name "y"] :=
    @Arguments.cons _ _ .start _ _ (hatom (@Atom.literal _ .start))
      (@Arguments.cons _ _ .start _ _ (hatom (@Atom.name _ .start)) .nil)
  have hcall : Primary _ (.call (.name "f") [.constant (.int 1), .name "y"]) :=
    @Primary.call _ _ .start .start _ _ (.atom (@Atom.name _ .start)) hargs
  have hproduct : Product _ _ :=
    @Product.link _ _ .start _ _ _ (.unary (@Unary.sign _ .start _ _ _ .minus (.primary hcall)))
      .mul (.primary (.atom (@Atom.literal (.int 2) .start)))
  exact @Sum.link _ _ .start _ _ _ (.product hproduct) .sub
    (.unary (.primary (.atom (@Atom.literal (.int 3) .start))))

end Grammar

/-- A sign, a call with a comma behind its arguments, a product and a difference are read as
they derive; a closing parenthesis alone derives nothing and is reported. -/
theorem parse_iff_grammar_mixed :
    (TokenStream.mk mixedTokens .start).parse = .ok [.assign "x" mixedTree] ∧
      ∃ e, (TokenStream.mk [⟨.rparen, .start⟩] .start).parse = .error e := by
  have hmodule : Grammar.Module mixedTokens [.assign "x" mixedTree] :=
    @Grammar.Module.cons _ _ .start _ _ (@Grammar.Statement.assign _ _ .start .start _
      Grammar.sum_mixedTokens) .empty
  have hnone : ¬∃ m, Grammar.Module [⟨.rparen, .start⟩] m := by
    rintro ⟨m, h⟩
    obtain ⟨s, -, hstatement, -⟩ := List.forall₂_cons_left_iff.mp h.forall₂_lines
    cases hstatement with
    | expr h =>
      have hread : Parser.readExpression .start 0 0 ([⟨.rparen, .start⟩] ++ []) = .ok (_, []) :=
        Parser.readExpression_sum h (Nat.le_refl _) trivial
      rw [List.append_nil,
        Parser.readExpression_other (by simp) (by simp) (by simp) (by simp)] at hread
      cases hread
  constructor
  · rcases ((parse_iff_grammar ⟨mixedTokens, .start⟩).1 _ hmodule).2 with hparse | ⟨-, hline⟩
    · exact hparse
    · exact absurd hline (by decide)
  · exact (parse_iff_grammar ⟨[⟨.rparen, .start⟩], .start⟩).2 hnone

end StackScript
