import Mathlib
import StackScript.Proofs.Script.Reading
import StackScript.Proofs.Script.Cursor

/-!
# The parser with a cursor is the parser

`Cursor` has the parser as a program that walks along a row of tokens and counts levels.  Here it
is compared with the functions of `Parser`, which have neither.  The link between the two is a
place (`Cursor.facing`): what a function of `Parser` is given, some tokens that are left and some
levels that are left, is said by the cursor and the count, because the tokens that are left are the
end of all tokens and the levels in use are the others.

`Follows` says that a run that starts at such a place gives the same answer and ends at the place
in front of the rest, or reports the same error.  For arguments, which a loop collects, the
comparison is by induction on the tokens; for a chain, by induction on the levels, since every link
takes one; and for expressions by induction on how many may be open, which is enough because what
is open inside an expression has a level less.

Levels are put back only at the end of an expression.  So a chain follows with some number of
levels left that nobody looks at, and an expression with the number that it began with.

The two agree on all powers up to that of a call.  Above it the program with a cursor would leave
calls alone, but no operator asks for so much.
-/

namespace StackScript

namespace Cursor

open StackScript.Parser

variable {α β σ : Type} {stream : TokenStream}

/-! ## Places and what stands there -/

/-- The place in front of so many last tokens, with so many levels left. -/
def facing (stream : TokenStream) (ts : List Token) (levels : Nat) : Cursor :=
  ⟨stream.tokens.length - ts.length, maxNesting - levels⟩

/-- The entry at the front of some last tokens. -/
def frontEntry (stream : TokenStream) : List Token → Entry
  | [] => ⟨none, stream.stop⟩
  | t :: _ => .ofToken t

theorem getElem_entries {ts : List Token} (h : ts <:+ stream.tokens) :
    stream.entries[stream.tokens.length - ts.length]? = some (frontEntry stream ts) := by
  obtain ⟨before, hts⟩ := h
  have hindex : stream.tokens.length - ts.length = (before.map Entry.ofToken).length := by
    rw [← hts, List.length_append, List.length_map]
    omega
  rw [hindex, TokenStream.entries, ← hts, List.map_append, List.append_assoc,
    List.getElem?_append_right (Nat.le_refl _), Nat.sub_self]
  cases ts <;> rfl

variable {t : Token} {ts rest : List Token} {levels : Nat}

theorem current_facing (h : ts <:+ stream.tokens) :
    current stream (facing stream ts levels) =
      .ok (frontEntry stream ts, facing stream ts levels) := by
  show entryAt stream (stream.tokens.length - ts.length) (facing stream ts levels) = _
  rw [entryAt, getElem_entries h]

theorem suffix_of_cons (h : t :: ts <:+ stream.tokens) : ts <:+ stream.tokens :=
  (List.suffix_cons t ts).trans h

theorem pos_facing_cons (h : t :: ts <:+ stream.tokens) (levels levels' : Nat) :
    (facing stream (t :: ts) levels).pos + 1 = (facing stream ts levels').pos := by
  have hle := h.length_le
  rw [List.length_cons] at hle
  show stream.tokens.length - (t :: ts).length + 1 = stream.tokens.length - ts.length
  rw [List.length_cons]
  omega

theorem pos_facing_lt (h : ts <:+ stream.tokens) (hlt : rest.length < ts.length)
    (levels levels' : Nat) :
    (facing stream ts levels).pos < (facing stream rest levels').pos := by
  have hle := h.length_le
  show stream.tokens.length - ts.length < stream.tokens.length - rest.length
  omega

theorem pos_facing_lt_length (ts : List Token) (levels : Nat) :
    (facing stream ts levels).pos < stream.entries.length := by
  rw [length_entries]
  exact Nat.lt_succ_of_le (Nat.sub_le _ _)

theorem advance_facing (h : t :: ts <:+ stream.tokens) :
    advance stream (facing stream (t :: ts) levels) =
      .ok (.ofToken t, facing stream ts levels) := by
  have hmove : move stream (facing stream (t :: ts) levels) =
      .ok ((), facing stream ts levels) := by
    have hpos := pos_facing_cons h levels levels
    rw [move, if_pos (by rw [hpos]; exact pos_facing_lt_length _ _), hpos]
    rfl
  rw [advance, bind_of_ok (current_facing h)]
  exact bind_of_ok hmove

theorem advance_facing_nil :
    advance stream (facing stream [] levels) =
      .ok (⟨none, stream.stop⟩, facing stream [] levels) := by
  rw [advance, bind_of_ok (current_facing (List.nil_suffix))]
  rfl

theorem unexpectedHere_facing (h : ts <:+ stream.tokens)
    (cause : Option TokenKind → SyntaxError.Cause) :
    (unexpectedHere stream cause : Run α) (facing stream ts levels) =
      .error (.report (Parser.unexpected stream.stop cause ts)) := by
  rw [unexpectedHere, bind_of_ok (current_facing h)]
  cases ts <;> rfl

theorem expect_facing {kind : TokenKind} {p : Position}
    (h : ⟨kind, p⟩ :: ts <:+ stream.tokens) (cause : Option TokenKind → SyntaxError.Cause) :
    expect stream kind cause (facing stream (⟨kind, p⟩ :: ts) levels) =
      .ok (.ofToken ⟨kind, p⟩, facing stream ts levels) := by
  have hkind : (frontEntry stream (⟨kind, p⟩ :: ts)).kind = some kind := rfl
  rw [expect, bind_of_ok (current_facing h), if_pos hkind]
  exact advance_facing h

/-- A token of some kind comes next, or none does. -/
theorem starts_or_ne (kind : TokenKind) (ts : List Token) :
    (∃ p behind, ts = ⟨kind, p⟩ :: behind) ∨ ∀ p behind, ts ≠ ⟨kind, p⟩ :: behind := by
  by_cases h : ∃ p behind, ts = ⟨kind, p⟩ :: behind
  · exact .inl h
  · exact .inr fun p behind heq => h ⟨p, behind, heq⟩

theorem kind_frontEntry_ne {kind : TokenKind} (h : ∀ p behind, ts ≠ ⟨kind, p⟩ :: behind) :
    (frontEntry stream ts).kind ≠ some kind := by
  rcases ts with _ | ⟨⟨kind', p⟩, behind⟩
  · exact (Option.some_ne_none kind).symm
  · intro heq
    cases heq
    exact h p behind rfl

theorem expect_facing_of_ne {kind : TokenKind} (h : ts <:+ stream.tokens)
    (hne : ∀ p behind, ts ≠ ⟨kind, p⟩ :: behind) (cause : Option TokenKind → SyntaxError.Cause) :
    expect stream kind cause (facing stream ts levels) =
      .error (.report (Parser.unexpected stream.stop cause ts)) := by
  rw [expect, bind_of_ok (current_facing h), if_neg (kind_frontEntry_ne hne)]
  exact unexpectedHere_facing h cause

theorem nest_facing (e : Entry) (h : levels + 1 ≤ maxNesting) :
    nest e (facing stream ts (levels + 1)) = .ok ((), facing stream ts levels) := by
  have hdepth : maxNesting - (levels + 1) + 1 = maxNesting - levels := by omega
  rw [nest, facing, hdepth, if_pos (Nat.sub_le _ _)]
  rfl

theorem nest_facing_zero (t : Token) :
    nest (.ofToken t) (facing stream ts 0) = .error (.report (tooDeep t)) := by
  have hdepth : ¬(facing stream ts 0).depth + 1 ≤ maxNesting := Nat.not_succ_le_self _
  rw [nest, if_neg hdepth, tooDeep, Entry.ofToken]
  simp only [Option.some.injEq]

/-! ## Following -/

/-- A run answers what was read, and ends in front of what is left, with so many levels left as
are described; or it reports the error. -/
def Follows (stream : TokenStream) (left : Nat → Prop) (result : Except Stop (α × Cursor))
    (answer : Except SyntaxError (α × List Token)) : Prop :=
  match answer with
  | .error e => result = .error (.report e)
  | .ok (a, rest) => rest <:+ stream.tokens ∧ ∃ levels, left levels ∧
      result = .ok (a, facing stream rest levels)

variable {left left' : Nat → Prop} {run : Run α} {s : Cursor}

theorem Follows.bind {next : α → Run β} {answer : Except SyntaxError (α × List Token)}
    {next' : α × List Token → Except SyntaxError (β × List Token)}
    (h : Follows stream left (run s) answer)
    (hnext : ∀ a rest levels, answer = .ok (a, rest) → rest <:+ stream.tokens → left levels →
      Follows stream left' (next a (facing stream rest levels)) (next' (a, rest))) :
    Follows stream left' ((run >>= next) s) (answer >>= next') := by
  cases hanswer : answer with
  | error e =>
    rw [hanswer] at h
    exact bind_of_error h
  | ok found =>
    rw [hanswer] at h
    obtain ⟨hrest, levels, hlevels, hrun⟩ := h
    rw [bind_of_ok hrun]
    exact hnext found.1 found.2 levels hanswer hrest hlevels

/-- Expressions are read as `readExpression` reads them, from everywhere with so many levels
left. -/
def FollowsExpression (stream : TokenStream) (expr : Nat → Run Expr) (levels : Nat) : Prop :=
  ∀ power ts, power ≤ callPower → ts <:+ stream.tokens →
    Follows stream (· = levels) (expr power (facing stream ts levels))
      (readExpression stream.stop levels power ts)

variable {expr : Nat → Run Expr}

/-! ## Arguments -/

theorem argument_rparen {p : Position} (hts : ⟨.rparen, p⟩ :: rest <:+ stream.tokens)
    (seen : List Expr) :
    argument stream expr seen (facing stream (⟨.rparen, p⟩ :: rest) levels) =
      .ok (.done seen, facing stream (⟨.rparen, p⟩ :: rest) levels) := by
  rw [argument, bind_of_ok (current_facing hts)]
  rfl

section Argument

variable {first : Expr} (hts : ts <:+ stream.tokens)
  (hne : ∀ p behind, ts ≠ ⟨.rparen, p⟩ :: behind) (seen : List Expr)

include hts hne

theorem argument_error {stop : Stop} (hexpr : expr 0 (facing stream ts levels) = .error stop) :
    argument stream expr seen (facing stream ts levels) = .error stop := by
  rw [argument, bind_of_ok (current_facing hts), if_neg (kind_frontEntry_ne hne)]
  exact bind_of_error hexpr

theorem argument_comma {p : Position} (hrest : ⟨.comma, p⟩ :: rest <:+ stream.tokens)
    (hexpr : expr 0 (facing stream ts levels) =
      .ok (first, facing stream (⟨.comma, p⟩ :: rest) levels)) :
    argument stream expr seen (facing stream ts levels) =
      .ok (.again (seen ++ [first]), facing stream rest levels) := by
  rw [argument, bind_of_ok (current_facing hts), if_neg (kind_frontEntry_ne hne),
    bind_of_ok hexpr, bind_of_ok (current_facing hrest)]
  exact bind_of_ok (advance_facing hrest)

theorem argument_last (hrest : rest <:+ stream.tokens)
    (hlast : ∀ p behind, rest ≠ ⟨.comma, p⟩ :: behind)
    (hexpr : expr 0 (facing stream ts levels) = .ok (first, facing stream rest levels)) :
    argument stream expr seen (facing stream ts levels) =
      .ok (.done (seen ++ [first]), facing stream rest levels) := by
  rw [argument, bind_of_ok (current_facing hts), if_neg (kind_frontEntry_ne hne),
    bind_of_ok hexpr, bind_of_ok (current_facing hrest), if_neg (kind_frontEntry_ne hlast)]
  rfl

end Argument

/-- Collect arguments behind those that were seen, and take the closing parenthesis. -/
def argumentsFrom (stream : TokenStream) (expr : Nat → Run Expr) (seen : List Expr) :
    Run (List Expr) := do
  let args ← loop stream (argument stream expr) seen
  let _ ← expect stream .rparen .inArguments
  return args

section ArgumentsFrom

variable {first : Expr} (hts : ts <:+ stream.tokens)
  (hne : ∀ p behind, ts ≠ ⟨.rparen, p⟩ :: behind) (seen : List Expr)

include hts hne

/-- Behind an argument and a comma: what is made of the arguments behind it. -/
theorem follows_argumentsFrom_comma {p : Position}
    (hrest : ⟨.comma, p⟩ :: rest <:+ stream.tokens) (hlt : rest.length < ts.length)
    (hexpr : expr 0 (facing stream ts levels) =
      .ok (first, facing stream (⟨.comma, p⟩ :: rest) levels))
    (hmore : Follows stream (· = levels)
      (argumentsFrom stream expr (seen ++ [first]) (facing stream rest levels))
      ((readArguments stream.stop levels rest).map fun found =>
        (seen ++ [first] ++ found.1, found.2))) :
    Follows stream (· = levels) (argumentsFrom stream expr seen (facing stream ts levels))
      ((readArguments stream.stop levels rest >>= fun more => .ok (first :: more.1, more.2)).map
        fun found => (seen ++ found.1, found.2)) := by
  have hround := loop_of_again (argument_comma hts hne seen hrest hexpr)
    (pos_facing_lt hts hlt _ _) (pos_facing_lt_length _ _)
  rw [argumentsFrom, bind_congr_of_eq hround]
  cases hread : readArguments stream.stop levels rest with
  | error e =>
    rw [hread] at hmore
    exact hmore
  | ok more =>
    rw [hread] at hmore
    have happend : seen ++ first :: more.1 = seen ++ [first] ++ more.1 :=
      List.append_cons seen first more.1
    show Follows stream _ _ (.ok (seen ++ first :: more.1, more.2))
    rw [happend]
    exact hmore

/-- Behind an argument and no comma: the closing parenthesis must follow. -/
theorem argumentsFrom_last (hrest : rest <:+ stream.tokens)
    (hlast : ∀ p behind, rest ≠ ⟨.comma, p⟩ :: behind)
    (hexpr : expr 0 (facing stream ts levels) = .ok (first, facing stream rest levels)) :
    argumentsFrom stream expr seen (facing stream ts levels) =
      (expect stream .rparen .inArguments >>= fun _ => pure (seen ++ [first]))
        (facing stream rest levels) := by
  rw [argumentsFrom, bind_of_ok (loop_of_done (argument_last hts hne seen hrest hlast hexpr))]

end ArgumentsFrom

theorem follows_argumentsFrom (hexpr : FollowsExpression stream expr levels)
    (hts : ts <:+ stream.tokens) (seen : List Expr) :
    Follows stream (· = levels) (argumentsFrom stream expr seen (facing stream ts levels))
      ((readArguments stream.stop levels ts).map fun found => (seen ++ found.1, found.2)) := by
  induction hn : ts.length using Nat.strongRecOn generalizing ts seen with
  | _ n ih =>
    rcases starts_or_ne .rparen ts with ⟨p, behind, rfl⟩ | hne
    · rw [argumentsFrom, bind_of_ok (loop_of_done (argument_rparen hts seen)),
        bind_of_ok (expect_facing hts _), readArguments_rparen]
      refine ⟨suffix_of_cons hts, levels, rfl, ?_⟩
      rw [List.append_nil]
      rfl
    · have hfirst := hexpr 0 ts (Nat.zero_le _) hts
      rw [readArguments_first hne]
      cases hread : readExpression stream.stop levels 0 ts with
      | error e =>
        rw [hread] at hfirst
        exact bind_of_error (loop_of_error (argument_error hts hne seen hfirst))
      | ok found =>
        obtain ⟨first, rest⟩ := found
        rw [hread] at hfirst
        obtain ⟨hrest, _, rfl, hrun⟩ := hfirst
        have hlt := length_lt_of_readExpression hread
        rcases starts_or_ne .comma rest with ⟨p, behind, rfl⟩ | hlast
        · have hshorter : behind.length < ts.length := Nat.lt_of_succ_lt hlt
          exact follows_argumentsFrom_comma hts hne seen hrest hshorter hrun
            (ih behind.length (by omega) (suffix_of_cons hrest) (seen ++ [first]) rfl)
        · rw [argumentsFrom_last hts hne seen hrest hlast hrun]
          rcases starts_or_ne .rparen rest with ⟨p, behind, rfl⟩ | hother
          · rw [bind_of_ok (expect_facing hrest _)]
            exact ⟨suffix_of_cons hrest, _, rfl, rfl⟩
          · rw [bind_of_error (expect_facing_of_ne hrest hother _)]
            rcases rest with _ | ⟨⟨kind, p⟩, behind⟩
            · exact rfl
            · cases kind with
              | rparen => exact absurd rfl (hother p behind)
              | comma => exact absurd rfl (hlast p behind)
              | literal | name | operator | lparen | equals | newline => exact rfl

/-! ## Chains -/

section Extend

variable {power : Nat} (left : Expr)

theorem extend_of_ends (hts : ts <:+ stream.tokens) (h : Ends power ts) :
    extend stream expr power left (facing stream ts levels) =
      .ok (.done left, facing stream ts levels) := by
  rw [extend, bind_of_ok (current_facing hts)]
  rcases ts with _ | ⟨⟨kind, p⟩, behind⟩
  · rfl
  · cases kind with
    | lparen => exact h.elim
    | operator op =>
      have hlt : leftPower op < power := h
      show (if leftPower op < power then _ else _ : Run (Round Expr Expr)) _ = _
      rw [if_pos hlt]
      rfl
    | literal | name | rparen | comma | equals | newline => rfl

/-- A call: what happens behind the parenthesis, in a level of its own. -/
theorem extend_lparen {p : Position} (hts : ⟨.lparen, p⟩ :: ts <:+ stream.tokens)
    (hpower : power ≤ callPower) :
    extend stream expr power left (facing stream (⟨.lparen, p⟩ :: ts) levels) =
      (nested (.ofToken ⟨.lparen, p⟩) (arguments stream expr) >>= fun args =>
        pure (.again (.call left args))) (facing stream ts levels) := by
  rw [extend, bind_of_ok (current_facing hts)]
  show (if callPower < power then _ else _ : Run (Round Expr Expr)) _ = _
  rw [if_neg (Nat.not_lt.mpr hpower), bind_of_ok (advance_facing hts)]

/-- A link: what happens behind the operator, in a level of its own. -/
theorem extend_operator {op : BinaryOp} {p : Position}
    (hts : ⟨.operator op, p⟩ :: ts <:+ stream.tokens) (hpower : power ≤ leftPower op) :
    extend stream expr power left (facing stream (⟨.operator op, p⟩ :: ts) levels) =
      (nested (.ofToken ⟨.operator op, p⟩) (expr (rightPower op)) >>= fun right =>
        pure (.again (.binary op left right))) (facing stream ts levels) := by
  rw [extend, bind_of_ok (current_facing hts)]
  show (if leftPower op < power then _ else _ : Run (Round Expr Expr)) _ = _
  rw [if_neg (Nat.not_lt.mpr hpower), bind_of_ok (advance_facing hts)]

end Extend

theorem nested_facing (t : Token) (inner : Run α) (h : levels + 1 ≤ maxNesting) :
    nested (.ofToken t) inner (facing stream ts (levels + 1)) = inner (facing stream ts levels) :=
  bind_of_ok (nest_facing _ h)

theorem nested_facing_zero (t : Token) (inner : Run α) :
    nested (.ofToken t) inner (facing stream ts 0) = .error (.report (tooDeep t)) :=
  bind_of_error (nest_facing_zero t)

/-- A round that reads something and goes on with it, and what is made of it by the rest. -/
theorem follows_loop_of_round {inner : Run β} {make : β → σ} {body : σ → Run (Round σ α)} {x : σ}
    {left left' : Nat → Prop} {answer : Except SyntaxError (β × List Token)}
    {next : β × List Token → Except SyntaxError (α × List Token)} {place : Cursor}
    (hts : t :: ts <:+ stream.tokens)
    (hbody : body x (facing stream (t :: ts) levels) =
      (inner >>= fun b => pure (.again (make b))) place)
    (hinner : Follows stream left (inner place) answer)
    (hlength : ∀ b rest, answer = .ok (b, rest) → rest.length ≤ ts.length)
    (hnext : ∀ b rest levels, rest <:+ stream.tokens → left levels →
      Follows stream left' (loop stream body (make b) (facing stream rest levels))
        (next (b, rest))) :
    Follows stream left' (loop stream body x (facing stream (t :: ts) levels))
      (answer >>= next) := by
  cases hanswer : answer with
  | error e =>
    rw [hanswer] at hinner
    exact loop_of_error (hbody.trans (bind_of_error hinner))
  | ok found =>
    obtain ⟨b, rest⟩ := found
    rw [hanswer] at hinner
    obtain ⟨hrest, l, hl, hrun⟩ := hinner
    have hle := hlength b rest hanswer
    rw [loop_of_again (hbody.trans (bind_of_ok hrun))
      (pos_facing_lt hts (Nat.lt_succ_of_le hle) _ _) (pos_facing_lt_length _ _)]
    exact hnext b rest l hrest hl

theorem length_lt_of_readArguments {args : List Expr} {stop : Position}
    (h : readArguments stop levels ts = .ok (args, rest)) : rest.length < ts.length := by
  unfold readArguments at h
  cases hread : Parser.arguments stop levels ts with
  | error e => rw [hread] at h; cases h
  | ok p =>
    rw [hread] at h
    cases h
    exact p.lt

theorem follows_arguments (hexpr : FollowsExpression stream expr levels)
    (hts : ts <:+ stream.tokens) :
    Follows stream (· = levels) (arguments stream expr (facing stream ts levels))
      (readArguments stream.stop levels ts) := by
  have hfrom := follows_argumentsFrom hexpr hts []
  cases hread : readArguments stream.stop levels ts with
  | error e =>
    rw [hread] at hfrom
    exact hfrom
  | ok found =>
    rw [hread] at hfrom
    exact hfrom

/-- What does not end an operand is a call or a link. -/
theorem link_of_not_ends {power : Nat} (h : ¬Ends power ts) :
    (∃ p behind, ts = ⟨.lparen, p⟩ :: behind) ∨
      ∃ op p behind, ts = ⟨.operator op, p⟩ :: behind ∧ power ≤ leftPower op := by
  rcases ts with _ | ⟨⟨kind, p⟩, ts⟩
  · exact absurd trivial h
  · cases kind with
    | lparen => exact .inl ⟨p, ts, rfl⟩
    | operator op => exact .inr ⟨op, p, ts, rfl, Nat.not_lt.mp h⟩
    | literal | name | rparen | comma | equals | newline => exact absurd trivial h

theorem follows_chain {power : Nat} (hpower : power ≤ callPower)
    (hle : levels ≤ maxNesting) (hexpr : ∀ l < levels, FollowsExpression stream expr l)
    (hts : ts <:+ stream.tokens) (left : Expr) :
    Follows stream (fun _ => True)
      (loop stream (extend stream expr power) left (facing stream ts levels))
      (readChain stream.stop levels power left ts) := by
  induction levels generalizing ts left with
  | zero =>
    by_cases hends : Ends power ts
    · rw [loop_of_done (extend_of_ends left hts hends), readChain_of_ends hends]
      exact ⟨hts, _, trivial, rfl⟩
    · rcases link_of_not_ends hends with ⟨p, behind, rfl⟩ | ⟨op, p, behind, rfl, hbinds⟩
      · rw [readChain_lparen_zero]
        exact loop_of_error
          ((extend_lparen left hts hpower).trans (bind_of_error (nested_facing_zero _ _)))
      · rw [readChain_operator_zero hbinds]
        exact loop_of_error
          ((extend_operator left hts hbinds).trans (bind_of_error (nested_facing_zero _ _)))
  | succ l ih =>
    have hinner := hexpr l (Nat.lt_succ_self l)
    have hnext : ∀ left rest l', rest <:+ stream.tokens → l' = l →
        Follows stream (fun _ => True)
          (loop stream (extend stream expr power) left (facing stream rest l'))
          (readChain stream.stop l power left rest) := by
      rintro left rest _ hrest rfl
      exact ih (by omega) (fun l hl => hexpr l (by omega)) hrest left
    by_cases hends : Ends power ts
    · rw [loop_of_done (extend_of_ends left hts hends), readChain_of_ends hends]
      exact ⟨hts, _, trivial, rfl⟩
    · rcases link_of_not_ends hends with ⟨p, behind, rfl⟩ | ⟨op, p, behind, rfl, hbinds⟩
      · rw [readChain_lparen]
        refine follows_loop_of_round hts (extend_lparen left hts hpower) ?_
          (fun _ _ h => Nat.le_of_lt (length_lt_of_readArguments h))
          (fun args rest l' => hnext (.call left args) rest l')
        rw [nested_facing _ _ hle]
        exact follows_arguments hinner (suffix_of_cons hts)
      · rw [readChain_operator hbinds]
        refine follows_loop_of_round hts (extend_operator left hts hbinds) ?_
          (fun _ _ h => Nat.le_of_lt (length_lt_of_readExpression h))
          (fun right rest l' => hnext (.binary op left right) rest l')
        rw [nested_facing _ _ hle]
        exact hinner _ behind (by cases op <;> decide) (suffix_of_cons hts)

/-! ## Expressions -/

/-- An operand and what extends it, without the levels put back. -/
def operandChain (stream : TokenStream) (expr : Nat → Run Expr) (power : Nat) : Run Expr :=
  operand stream expr >>= loop stream (extend stream expr power)

/-- Where reading an operand and extending it follows, so does reading an expression. -/
theorem follows_of_operandChain {power opens : Nat}
    (h : Follows stream (fun _ => True)
      (operandChain stream (expression stream opens) power (facing stream ts levels))
      (readExpression stream.stop levels power ts)) :
    Follows stream (· = levels) (expression stream (opens + 1) power (facing stream ts levels))
      (readExpression stream.stop levels power ts) := by
  have hexpression : expression stream (opens + 1) power (facing stream ts levels) =
      (operandChain stream (expression stream opens) power >>= fun e =>
        restore (maxNesting - levels) >>= fun _ => pure e) (facing stream ts levels) := by
    rw [operandChain, bind_assoc]
    rfl
  rw [hexpression]
  cases hanswer : readExpression stream.stop levels power ts with
  | error e =>
    rw [hanswer] at h
    exact bind_of_error h
  | ok found =>
    rw [hanswer] at h
    obtain ⟨hrest, _, -, hrun⟩ := h
    exact ⟨hrest, levels, rfl, bind_of_ok hrun⟩

section OperandChain

variable {power : Nat} {p : Position}

theorem operandChain_lparen (hts : ⟨.lparen, p⟩ :: ts <:+ stream.tokens) :
    operandChain stream expr power (facing stream (⟨.lparen, p⟩ :: ts) levels) =
      (nested (.ofToken ⟨.lparen, p⟩) (expr 0) >>= fun inner =>
        expect stream .rparen .expectedClosing >>= fun _ =>
          loop stream (extend stream expr power) inner) (facing stream ts levels) := by
  rw [operandChain, operand, bind_assoc, bind_of_ok (advance_facing hts)]
  dsimp only [Entry.ofToken]
  simp only [bind_assoc, pure_bind]

theorem operandChain_sign {op : BinaryOp} {u : UnaryOp} (h : unary? op = some u)
    (hts : ⟨.operator op, p⟩ :: ts <:+ stream.tokens) :
    operandChain stream expr power (facing stream (⟨.operator op, p⟩ :: ts) levels) =
      (nested (.ofToken ⟨.operator op, p⟩) (expr prefixPower) >>= fun inner =>
        loop stream (extend stream expr power) (.unary u inner)) (facing stream ts levels) := by
  rw [operandChain, operand, bind_assoc, bind_of_ok (advance_facing hts)]
  simp only [Entry.ofToken, h, bind_assoc, pure_bind]

/-- No other token starts an operand. -/
theorem operandChain_other (hts : t :: ts <:+ stream.tokens)
    (hliteral : ∀ value, t.kind ≠ .literal value) (hname : ∀ word, t.kind ≠ .name word)
    (hlparen : t.kind ≠ .lparen) (hsign : ∀ op, t.kind = .operator op → unary? op = none) :
    operandChain stream expr power (facing stream (t :: ts) levels) =
      .error (.report (Parser.unexpected stream.stop .expectedExpression (t :: ts))) := by
  rw [operandChain, operand, bind_assoc, bind_of_ok (advance_facing hts)]
  obtain ⟨kind, p⟩ := t
  cases kind with
  | literal value => exact absurd rfl (hliteral value)
  | name word => exact absurd rfl (hname word)
  | lparen => exact absurd rfl hlparen
  | operator op =>
    simp only [Entry.ofToken, hsign op rfl]
    rfl
  | rparen | comma | equals | newline => rfl

end OperandChain

section Inside

variable {power : Nat} {p : Position} (hpower : power ≤ callPower)
  (hexpr : ∀ l < levels, FollowsExpression stream expr l)

include hpower hexpr

theorem follows_parentheses (hle : levels ≤ maxNesting)
    (hts : ⟨.lparen, p⟩ :: ts <:+ stream.tokens) :
    Follows stream (fun _ => True)
      (operandChain stream expr power (facing stream (⟨.lparen, p⟩ :: ts) levels))
      (readExpression stream.stop levels power (⟨.lparen, p⟩ :: ts)) := by
  rw [operandChain_lparen hts]
  cases levels with
  | zero =>
    rw [readExpression_lparen_zero]
    exact bind_of_error (nested_facing_zero _ _)
  | succ l =>
    have hinner : Follows stream (· = l)
        (nested (.ofToken ⟨.lparen, p⟩) (expr 0) (facing stream ts (l + 1)))
        (readExpression stream.stop l 0 ts) := by
      rw [nested_facing _ _ hle]
      exact hexpr l (Nat.lt_succ_self l) 0 ts (Nat.zero_le _) (suffix_of_cons hts)
    rw [readExpression_lparen]
    refine hinner.bind ?_
    rintro inner rest _ - hrest rfl
    rcases starts_or_ne .rparen rest with ⟨q, behind, rfl⟩ | hother
    · rw [bind_of_ok (expect_facing hrest _)]
      exact follows_chain hpower (Nat.le_of_succ_le hle)
        (fun l' hl' => hexpr l' (Nat.lt_succ_of_lt hl')) (suffix_of_cons hrest) inner
    · rw [bind_of_error (expect_facing_of_ne hrest hother _)]
      rcases rest with _ | ⟨⟨kind, q⟩, behind⟩
      · exact rfl
      · cases kind with
        | rparen => exact absurd rfl (hother q behind)
        | literal | name | operator | lparen | comma | equals | newline => exact rfl

theorem follows_sign {op : BinaryOp} {u : UnaryOp} (hsign : unary? op = some u)
    (hle : levels ≤ maxNesting) (hts : ⟨.operator op, p⟩ :: ts <:+ stream.tokens) :
    Follows stream (fun _ => True)
      (operandChain stream expr power (facing stream (⟨.operator op, p⟩ :: ts) levels))
      (readExpression stream.stop levels power (⟨.operator op, p⟩ :: ts)) := by
  rw [operandChain_sign hsign hts]
  cases levels with
  | zero =>
    rw [readExpression_sign_zero hsign]
    exact bind_of_error (nested_facing_zero _ _)
  | succ l =>
    have hinner : Follows stream (· = l)
        (nested (.ofToken ⟨.operator op, p⟩) (expr prefixPower) (facing stream ts (l + 1)))
        (readExpression stream.stop l prefixPower ts) := by
      rw [nested_facing _ _ hle]
      exact hexpr l (Nat.lt_succ_self l) prefixPower ts (by decide) (suffix_of_cons hts)
    rw [readExpression_sign hsign]
    refine hinner.bind ?_
    rintro inner rest _ - hrest rfl
    exact follows_chain hpower (Nat.le_of_succ_le hle)
      (fun l' hl' => hexpr l' (Nat.lt_succ_of_lt hl')) hrest (.unary u inner)

theorem follows_operandChain (hle : levels ≤ maxNesting) (hts : ts <:+ stream.tokens) :
    Follows stream (fun _ => True) (operandChain stream expr power (facing stream ts levels))
      (readExpression stream.stop levels power ts) := by
  rcases ts with _ | ⟨⟨kind, p⟩, ts⟩
  · rw [readExpression_nil, operandChain, operand, bind_assoc, bind_of_ok advance_facing_nil]
    exact rfl
  · cases kind with
    | literal value =>
      rw [readExpression_literal, operandChain, operand, bind_assoc,
        bind_of_ok (advance_facing hts)]
      exact follows_chain hpower hle hexpr (suffix_of_cons hts) (.constant value)
    | name word =>
      rw [readExpression_name, operandChain, operand, bind_assoc, bind_of_ok (advance_facing hts)]
      exact follows_chain hpower hle hexpr (suffix_of_cons hts) (.name word)
    | lparen => exact follows_parentheses hpower hexpr hle hts
    | operator op =>
      cases hsign : unary? op with
      | none =>
        rw [readExpression_other (by simp) (by simp) (by simp) (by simpa using hsign)]
        exact operandChain_other hts (by simp) (by simp) (by simp) (by simpa using hsign)
      | some u => exact follows_sign hpower hexpr hsign hle hts
    | rparen | comma | equals | newline =>
      rw [readExpression_other (by simp) (by simp) (by simp) (by simp)]
      exact operandChain_other hts (by simp) (by simp) (by simp) (by simp)

end Inside

theorem follows_expression {opens : Nat} (hopens : levels < opens) (hle : levels ≤ maxNesting) :
    FollowsExpression stream (expression stream opens) levels := by
  induction opens generalizing levels with
  | zero => omega
  | succ opens ih =>
    intro power ts hpower hts
    refine follows_of_operandChain (follows_operandChain hpower (fun l hl => ?_) hle hts)
    exact ih (by omega) (by omega)

/-! ## Statements -/

theorem peek_facing (h : t :: ts <:+ stream.tokens) :
    peek stream 1 (facing stream (t :: ts) levels) =
      .ok (frontEntry stream ts, facing stream (t :: ts) levels) := by
  have hpos := pos_facing_cons h levels levels
  have hlast : (facing stream ts levels).pos ≤ stream.entries.length - 1 :=
    Nat.le_sub_one_of_lt (pos_facing_lt_length _ _)
  have hentry : stream.entries[(facing stream ts levels).pos]? = some (frontEntry stream ts) :=
    getElem_entries (suffix_of_cons h)
  rw [peek, hpos, Nat.min_eq_left hlast, entryAt]
  simp only [hentry]

theorem statement_assign {word : String} {p q : Position}
    (hts : ⟨.name word, p⟩ :: ⟨.equals, q⟩ :: ts <:+ stream.tokens) :
    statement stream expr (facing stream (⟨.name word, p⟩ :: ⟨.equals, q⟩ :: ts) levels) =
      (expr 0 >>= fun value => pure (.assign word value)) (facing stream ts levels) := by
  have hequals : (frontEntry stream (⟨.equals, q⟩ :: ts)).kind = some .equals := rfl
  rw [statement, bind_of_ok (current_facing hts)]
  dsimp only [frontEntry, Entry.ofToken]
  rw [bind_of_ok (peek_facing hts), if_pos hequals, bind_of_ok (advance_facing hts),
    bind_of_ok (advance_facing (suffix_of_cons hts))]

theorem statement_expr (hts : ts <:+ stream.tokens)
    (hne : ∀ word p q behind, ts ≠ ⟨.name word, p⟩ :: ⟨.equals, q⟩ :: behind) :
    statement stream expr (facing stream ts levels) =
      (expr 0 >>= fun value => pure (.expr value)) (facing stream ts levels) := by
  rw [statement, bind_of_ok (current_facing hts)]
  rcases ts with _ | ⟨⟨kind, p⟩, ts⟩
  · rfl
  · cases kind with
    | name word =>
      have hequals : (frontEntry stream ts).kind ≠ some .equals :=
        kind_frontEntry_ne fun q behind h => hne word p q behind (by rw [h])
      dsimp only [frontEntry, Entry.ofToken]
      rw [bind_of_ok (peek_facing hts)]
      exact congrFun (if_neg hequals) _
    | literal | operator | lparen | rparen | comma | equals | newline => rfl

theorem follows_statement (hexpr : FollowsExpression stream expr maxNesting)
    (hts : ts <:+ stream.tokens) :
    Follows stream (· = maxNesting) (statement stream expr (facing stream ts maxNesting))
      (readStatement stream.stop ts) := by
  by_cases hassign : ∃ word p q behind, ts = ⟨.name word, p⟩ :: ⟨.equals, q⟩ :: behind
  · obtain ⟨word, p, q, behind, rfl⟩ := hassign
    have hbehind := suffix_of_cons (suffix_of_cons hts)
    rw [statement_assign hts, readStatement_assign]
    refine (hexpr 0 behind (Nat.zero_le _) hbehind).bind ?_
    exact fun value rest l _ hrest hl => ⟨hrest, l, hl, rfl⟩
  · have hne : ∀ word p q behind, ts ≠ ⟨.name word, p⟩ :: ⟨.equals, q⟩ :: behind :=
      fun word p q behind h => hassign ⟨word, p, q, behind, h⟩
    rw [statement_expr hts hne, readStatement_expr hne]
    refine (hexpr 0 ts (Nat.zero_le _) hts).bind ?_
    exact fun value rest l _ hrest hl => ⟨hrest, l, hl, rfl⟩

/-! ## Lines -/

/-- What is left behind empty lines. -/
def skipLines (ts : List Token) : List Token := ts.dropWhile (·.kind = .newline)

theorem skipLines_suffix (ts : List Token) : skipLines ts <:+ ts := List.dropWhile_suffix _

theorem loop_emptyLine (hts : ts <:+ stream.tokens) :
    loop stream (emptyLine stream) () (facing stream ts levels) =
      .ok ((), facing stream (skipLines ts) levels) := by
  induction ts with
  | nil => exact loop_of_done (bind_of_ok (current_facing hts))
  | cons t ts ih =>
    by_cases hnewline : t.kind = .newline
    · have hkind : (frontEntry stream (t :: ts)).kind = some .newline := congrArg some hnewline
      have hround : emptyLine stream () (facing stream (t :: ts) levels) =
          .ok (.again (), facing stream ts levels) := by
        rw [emptyLine, bind_of_ok (current_facing hts), if_pos hkind]
        exact bind_of_ok (advance_facing hts)
      rw [loop_of_again hround (pos_facing_lt hts (Nat.lt_succ_self _) _ _)
        (pos_facing_lt_length _ _), ih (suffix_of_cons hts), skipLines, skipLines,
        List.dropWhile_cons_of_pos (by simpa using hnewline)]
    · have hkind : (frontEntry stream (t :: ts)).kind ≠ some .newline :=
        fun h => hnewline (Option.some_injective _ h)
      have hround : emptyLine stream () (facing stream (t :: ts) levels) =
          .ok (.done (), facing stream (t :: ts) levels) := by
        rw [emptyLine, bind_of_ok (current_facing hts), if_neg hkind]
        rfl
      rw [loop_of_done hround, skipLines, List.dropWhile_cons_of_neg (by simpa using hnewline)]

theorem statements_skipLines (stop : Position) (seen : List Stmt) (ts : List Token) :
    statements stop seen (skipLines ts) = statements stop seen ts := by
  induction ts with
  | nil => rfl
  | cons t ts ih =>
    obtain ⟨kind, p⟩ := t
    by_cases hnewline : kind = .newline
    · subst hnewline
      rw [statements_newline, ← ih]
      rfl
    · rw [skipLines, List.dropWhile_cons_of_neg (by simpa using hnewline)]

theorem kind_ne_newline_of_skipLines {t : Token} {behind : List Token}
    (h : skipLines ts = t :: behind) : t.kind ≠ .newline := by
  have hhead := List.head?_dropWhile_not (fun t : Token => decide (t.kind = .newline)) ts
  rw [← skipLines, h] at hhead
  exact of_decide_eq_false hhead

theorem line_end (seen : List Stmt) (hts : ts <:+ stream.tokens) (hend : skipLines ts = []) :
    line stream expr seen (facing stream ts levels) =
      .ok (.done seen.reverse, facing stream [] levels) := by
  rw [line, bind_of_ok (loop_emptyLine hts), hend, bind_of_ok (current_facing List.nil_suffix)]
  rfl

/-- Behind empty lines: a statement, and what must follow it. -/
theorem line_statement (expr : Nat → Run Expr) (seen : List Stmt) {behind : List Token}
    (hts : ts <:+ stream.tokens) (hskip : skipLines ts = t :: behind) :
    line stream expr seen (facing stream ts levels) =
      (statement stream expr >>= fun s => current stream >>= fun t =>
        if t.kind = none ∨ t.kind = some .newline then pure (.again (s :: seen))
        else unexpectedHere stream .afterStatement) (facing stream (t :: behind) levels) := by
  have hsuffix : t :: behind <:+ stream.tokens := hskip ▸ (skipLines_suffix ts).trans hts
  have hkind : (frontEntry stream (t :: behind)).kind ≠ none := Option.some_ne_none _
  rw [line, bind_of_ok (loop_emptyLine hts), hskip, bind_of_ok (current_facing hsuffix),
    if_neg hkind]

theorem follows_lines (hexpr : FollowsExpression stream expr maxNesting)
    (hts : ts <:+ stream.tokens) (seen : List Stmt) :
    Follows stream (fun _ => True)
      (loop stream (line stream expr) seen (facing stream ts maxNesting))
      ((statements stream.stop seen ts).map fun script => (script, [])) := by
  induction hn : ts.length using Nat.strongRecOn generalizing ts seen with
  | _ n ih =>
    rw [← statements_skipLines]
    cases hskip : skipLines ts with
    | nil =>
      rw [loop_of_done (line_end seen hts hskip), statements_nil]
      exact ⟨List.nil_suffix, _, trivial, rfl⟩
    | cons t behind =>
      have hsuffix : t :: behind <:+ ts := hskip ▸ skipLines_suffix ts
      have hline : line stream expr seen (facing stream ts maxNesting) = _ :=
        line_statement expr seen hts hskip
      have hstatement := follows_statement hexpr (hsuffix.trans hts)
      rw [statements_statement (kind_ne_newline_of_skipLines hskip)]
      cases hread : readStatement stream.stop (t :: behind) with
      | error e =>
        rw [hread] at hstatement
        exact loop_of_error (hline.trans (bind_of_error hstatement))
      | ok found =>
        obtain ⟨s, rest⟩ := found
        rw [hread] at hstatement
        obtain ⟨hrest, _, rfl, hrun⟩ := hstatement
        have hlt : rest.length < ts.length :=
          Nat.lt_of_lt_of_le (length_lt_of_readStatement hread) hsuffix.length_le
        rw [bind_of_ok hrun, bind_of_ok (current_facing hrest)] at hline
        have hmore := ih rest.length (by omega) hrest (s :: seen) rfl
        have hagain : (frontEntry stream rest).kind = none ∨
              (frontEntry stream rest).kind = some .newline →
            loop stream (line stream expr) seen (facing stream ts maxNesting) =
              loop stream (line stream expr) (s :: seen) (facing stream rest maxNesting) := by
          intro hkind
          rw [if_pos hkind] at hline
          exact loop_of_again hline (pos_facing_lt hts hlt _ _) (pos_facing_lt_length _ _)
        rcases rest with _ | ⟨⟨kind, p⟩, rest⟩
        · rw [hagain (.inl rfl)]
          rw [statements_nil] at hmore
          exact hmore
        · by_cases hnewline : kind = .newline
          · subst hnewline
            rw [hagain (.inr rfl)]
            rw [statements_newline] at hmore
            exact hmore
          · have hkind : ¬((frontEntry stream (⟨kind, p⟩ :: rest)).kind = none ∨
                (frontEntry stream (⟨kind, p⟩ :: rest)).kind = some .newline) := by
              rintro (h | h)
              · exact absurd h (Option.some_ne_none _)
              · exact hnewline (Option.some_injective _ h)
            rw [if_neg hkind] at hline
            show Follows stream _ _ (Except.map _ (if kind = .newline then _ else _))
            rw [if_neg hnewline]
            exact loop_of_error (hline.trans (unexpectedHere_facing hrest _))

/-- What the program with a cursor makes of a stream is what the parser makes of it. -/
theorem parse_eq {opens : Nat} (h : maxNesting < opens) :
    parse stream opens = stream.parse.mapError .report := by
  have hexpr : FollowsExpression stream (expression stream opens) maxNesting :=
    follows_expression h (Nat.le_refl _)
  have hstart : facing stream stream.tokens maxNesting = ⟨0, 0⟩ := by
    rw [facing, Nat.sub_self, Nat.sub_self]
  have hlines := follows_lines hexpr (List.suffix_refl stream.tokens) []
  rw [hstart] at hlines
  rw [parse, TokenStream.parse]
  cases hscript : statements stream.stop [] stream.tokens with
  | error e =>
    rw [hscript] at hlines
    exact congrArg (Except.map Prod.fst) hlines
  | ok script =>
    rw [hscript] at hlines
    obtain ⟨-, _, -, hrun⟩ := hlines
    exact congrArg (Except.map Prod.fst) hrun

end Cursor

/-- **The recursion is bounded and the row is never left.**  If one more expression may be open than
there are levels, the program with a cursor makes of every stream what the parser makes of it.  So
the only reason for which it ever stops is an error in the script: the cursor is never put, and
nothing is ever looked at, behind the end; no loop goes on without using up a token; and no more
expressions are ever open inside each other.

The same is true of every call for an expression by itself, whatever power it is made with, and from
every place in the row at which no more levels are in use than may be.  If it succeeds, at least one
token was used up, the cursor is in the row, and as many levels are in use as before. -/
theorem parse_within_row (stream : TokenStream) :
    (∀ opens, maxNesting < opens →
      Cursor.parse stream opens = stream.parse.mapError Cursor.Stop.report) ∧
    ∀ opens power (s : Cursor), s.pos < stream.entries.length → s.depth ≤ maxNesting →
      maxNesting < opens + s.depth →
      (∀ stop, Cursor.expression stream opens power s = .error stop →
        ∃ e, stop = Cursor.Stop.report e) ∧
      ∀ e s', Cursor.expression stream opens power s = .ok (e, s') →
        s.pos < s'.pos ∧ s'.pos < stream.entries.length ∧ s'.depth = s.depth := by
  refine ⟨fun opens h => Cursor.parse_eq h, fun opens power s hs hle hopens => ?_⟩
  have hmeets := Cursor.meets_expression opens power hs hle hopens
  refine ⟨fun stop hrun => hmeets.of_error hrun, fun e s' hrun => ?_⟩
  obtain ⟨hahead, hdepth⟩ := hmeets.of_ok hrun
  exact ⟨hahead.1, hahead.2, hdepth⟩

/-- A call that is cut off behind its first argument. -/
def TokenStream.cutOff : TokenStream where
  tokens := [⟨.name "f", ⟨1, 1⟩⟩, ⟨.lparen, ⟨1, 2⟩⟩, ⟨.literal (.int 1), ⟨1, 3⟩⟩, ⟨.comma, ⟨1, 4⟩⟩]
  stop := ⟨1, 5⟩

theorem parse_within_row_cutOff :
    Cursor.parse .cutOff (maxNesting + 1) =
        .error (.report ⟨⟨1, 5⟩, .expectedExpression none⟩) ∧
      ∃ e s', Cursor.expression .cutOff 1 0 ⟨2, maxNesting⟩ = .ok (e, s') ∧
        2 < s'.pos ∧ s'.depth = maxNesting := by
  obtain ⟨hparse, hcalls⟩ := parse_within_row .cutOff
  have hends : Parser.Ends 0 [⟨.comma, ⟨1, 4⟩⟩] := trivial
  constructor
  · rw [hparse _ (Nat.lt_succ_self _), TokenStream.parse, TokenStream.cutOff,
      Parser.statements_statement (by decide), Parser.readStatement_expr (by simp),
      Parser.readExpression_name]
    show Except.mapError _ ((Parser.readChain ⟨1, 5⟩ (199 + 1) 0 _ _ >>= _) >>= _) = _
    rw [Parser.readChain_lparen, Parser.readArguments_first (by simp),
      Parser.readExpression_literal, Parser.readChain_of_ends hends]
    show Except.mapError _ ((((Parser.readArguments ⟨1, 5⟩ 199 [] >>= _) >>= _) >>= _) >>= _) = _
    rw [Parser.readArguments_first (by simp), Parser.readExpression_nil]
    rfl
  · have hfollows := @Cursor.follows_expression .cutOff 0 1 (by decide) (by decide) 0
      [⟨.literal (.int 1), ⟨1, 3⟩⟩, ⟨.comma, ⟨1, 4⟩⟩] (by decide) (by decide)
    rw [Parser.readExpression_literal, Parser.readChain_of_ends hends] at hfollows
    obtain ⟨-, _, -, hrun⟩ := hfollows
    obtain ⟨-, hok⟩ := hcalls 1 0 ⟨2, maxNesting⟩ (by decide) (by decide) (by decide)
    obtain ⟨hpos, -, hdepth⟩ := hok _ _ hrun
    exact ⟨_, _, hrun, hpos, hdepth⟩

end StackScript
