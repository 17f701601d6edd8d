import Mathlib
import StackScript.Proofs.Script.Agreement
import StackScript.Proofs.Script.Locality
import StackScript.Proofs.Script.Nesting

/-!
# Scripts one below the other

Two scripts with a line feed between them are read as the first and then the second
(`Script.ofText_join`).  Nothing is carried over the line feed, and this has to be seen for
everything that is remembered while a script is read.

* A *gap* or a *lexeme* does not reach across the line feed: a comment, a word and a number end
  there at the latest, and a text with no closing quote or a backslash with nothing behind it is
  an error of the first script alone (`gap_join`, `cut_join`).
* The *open parentheses* are counted without regard to the grammar, and inside them the line feed
  would be blank.  But a script that can be parsed closes what it opens, so that the count is back
  at zero (`Module.openBehind`).
* The *parser* is between two statements, with all the levels there are (`statements_join`).

The second script is then read as if it stood alone, a number of lines further down.  That it is
read in the same way there is true of any relation between places that each character keeps
(`scan_alike`).
-/

namespace StackScript

/-! ## Places further down -/

namespace Position

/-- The same column some lines further down. -/
def down (n : Nat) (p : Position) : Position := ⟨p.line + n, p.column⟩

/-- The second place is so many lines below the first. -/
def Below (n : Nat) (p q : Position) : Prop := q = p.down n

theorem Below.next {n : Nat} {p q : Position} (c : Char) (h : Below n p q) :
    Below n (p.next c) (q.next c) := by
  obtain rfl : q = p.down n := h
  rw [Below, Position.next, Position.next]
  split
  · rw [down, down, Nat.add_right_comm]
  · rfl

theorem line_after (p : Position) (cs : List Char) :
    (p.after cs).line = p.line + cs.count '\n' := by
  induction cs generalizing p with
  | nil => rfl
  | cons c cs ih =>
    rw [after_cons, ih, next, List.count_cons]
    by_cases hc : c = '\n'
    · simp only [hc, if_true, beq_self_eq_true]
      omega
    · simp [hc]

/-- Behind a text and a line feed, a script starts below all lines of the text. -/
theorem next_after_start (cs : List Char) :
    (start.after cs).next '\n' = start.down (1 + cs.count '\n') := by
  rw [next, if_pos rfl, line_after, down]
  simp only [start, mk.injEq, and_true]
  omega

end Position

/-! ## Gaps and lexemes in front of a line feed -/

namespace Lexer

open Lexeme

variable {c : Char} {cs bs : List Char}

theorem newline_mem_delimiters : '\n' ∈ delimiters := by decide

theorem startsNumber_join (c : Char) (cs bs : List Char) :
    startsNumber c (cs ++ '\n' :: bs) = startsNumber c cs := by
  cases cs <;> rfl

theorem cutNumber_newline {fractional : Bool} :
    cutNumber fractional ('\n' :: bs) = ([], '\n' :: bs) := by
  refine cutNumber_of_delimited fun c hc => ?_
  cases hc
  exact newline_mem_delimiters

/-- A number that an exponent mark might go on with looks two characters ahead. -/
theorem cutNumber_join (fractional : Bool) (cs bs : List Char) :
    cutNumber fractional (cs ++ '\n' :: bs) =
      ((cutNumber fractional cs).1, (cutNumber fractional cs).2 ++ '\n' :: bs) := by
  have hdigit : '\n'.isDigit = false := by decide
  have hsign : isSign '\n' = false := by decide
  fun_induction cutNumber fractional cs with
  | case1 => exact cutNumber_newline
  | case2 _ c cs hc ih =>
    rw [List.cons_append, cutNumber.eq_def]
    simp [hc, ih, keep]
  | case3 _ c cs hc hpoint ih =>
    rw [List.cons_append, cutNumber.eq_def]
    simp [hc, hpoint, ih, keep]
  | case4 _ c hc hpoint hmark =>
    rw [List.cons_append, cutNumber.eq_def]
    cases bs <;> simp [hc, hpoint, hmark, hdigit, hsign]
  | case5 _ c hc hpoint hmark d hd ih =>
    rw [List.cons_append, List.nil_append] at ih
    rw [List.cons_append, cutNumber.eq_def]
    simp [hc, hpoint, hmark, hd, isSign_eq_false_of_isDigit hd, ih, keep]
  | case6 _ c hc hpoint hmark d hd =>
    rw [List.cons_append, cutNumber.eq_def]
    simp [hc, hpoint, hmark, hd, hdigit]
  | case7 _ c hc hpoint hmark s d ds hs hd ih =>
    rw [List.cons_append] at ih
    rw [List.cons_append, cutNumber.eq_def]
    simp [hc, hpoint, hmark, hs, hd, ih, keep]
  | case8 _ c hc hpoint hmark s d ds hs hd =>
    rw [List.cons_append, cutNumber.eq_def]
    simp [hc, hpoint, hmark, hs, hd]
  | case9 _ c hc hpoint hmark s d ds hs hd ih =>
    rw [List.cons_append, List.cons_append] at ih
    rw [List.cons_append, cutNumber.eq_def]
    simp [hc, hpoint, hmark, hs, hd, ih, keep]
  | case10 _ c hc hpoint hmark s d ds hs hd =>
    rw [List.cons_append, cutNumber.eq_def]
    simp [hc, hpoint, hmark, hs, hd]
  | case11 _ c cs hc hpoint hmark =>
    rw [List.cons_append, cutNumber.eq_def]
    simp [hc, hpoint, hmark]

/-- A quoted text ends with its quote, whatever follows. -/
theorem cutQuoted_append_right {quote : Char} {cs taken rest more : List Char}
    (h : cutQuoted quote cs = some (taken, rest)) :
    cutQuoted quote (cs ++ more) = some (taken, rest ++ more) := by
  fun_induction cutQuoted quote cs generalizing taken with
  | case1 => cases h
  | case2 => cases h
  | case3 cs hline =>
    cases h
    rw [List.cons_append, cutQuoted.eq_def]
    simp [hline]
  | case4 => cases h
  | case5 d ds hline hquote ih =>
    obtain ⟨⟨taken, _⟩, hcut, heq⟩ := Option.map_eq_some_iff.mp h
    cases heq
    rw [List.cons_append, List.cons_append, cutQuoted.eq_def]
    simp [hline, hquote, ih hcut, keep]
  | case6 c cs hline hquote hslash ih =>
    obtain ⟨⟨taken, _⟩, hcut, heq⟩ := Option.map_eq_some_iff.mp h
    cases heq
    rw [List.cons_append, cutQuoted.eq_def]
    simp [hline, hquote, hslash, ih hcut, keep]

theorem takeWhile_join {p : Char → Bool} (hp : p '\n' = false) (cs bs : List Char) :
    (cs ++ '\n' :: bs).takeWhile p = cs.takeWhile p ∧
      (cs ++ '\n' :: bs).dropWhile p = cs.dropWhile p ++ '\n' :: bs := by
  induction cs with
  | nil => simp [hp]
  | cons c cs ih =>
    cases hc : p c with
    | true => simp [hc, ih.1, ih.2]
    | false => simp [hc]

theorem cutSymbol_join {l : Lexeme} (h : cutSymbol c cs = .ok l) :
    cutSymbol c (cs ++ '\n' :: bs) = .ok ⟨l.kind, l.taken, l.rest ++ '\n' :: bs⟩ := by
  unfold cutSymbol at h
  split at h
  · cases h
    rfl
  · next hslashes =>
    have hslashes' : ∀ rest, c = '/' → cs ++ '\n' :: bs = '/' :: rest → False := by
      rintro rest rfl heq
      rcases cs with _ | ⟨d, cs⟩
      · cases heq
      · cases heq
        exact hslashes cs rfl rfl
    split at h
    · next kind hkind =>
      cases h
      unfold cutSymbol
      split
      · next rest heq => exact (hslashes' rest rfl heq).elim
      · rw [hkind]
    · cases h

/-- **No lexeme reaches across a line feed** behind the script that it is cut from. -/
theorem cut_join {l : Lexeme} (h : cut c cs = .ok l) (bs : List Char) :
    cut c (cs ++ '\n' :: bs) = .ok ⟨l.kind, l.taken, l.rest ++ '\n' :: bs⟩ := by
  unfold cut at h ⊢
  rw [startsNumber_join]
  split
  · next hnumber =>
    rw [if_pos hnumber] at h
    rw [← List.cons_append, cutNumber_join]
    dsimp only at h ⊢
    cases hkind : numberKind (cutNumber false (c :: cs)).1 with
    | error cause =>
      rw [hkind] at h
      cases h
    | ok kind =>
      rw [hkind] at h
      cases h
      rfl
  · next hnumber =>
    rw [if_neg hnumber] at h
    split
    · next hword =>
      rw [if_pos hword] at h
      cases h
      have hstop := takeWhile_join (continuesWord_of_delimiter newline_mem_delimiters) (c :: cs) bs
      rw [List.cons_append] at hstop
      rw [hstop.1, hstop.2]
    · next hword =>
      rw [if_neg hword] at h
      split
      · next hquote =>
        rw [if_pos hquote] at h
        cases hcut : cutQuoted c cs with
        | none =>
          rw [hcut] at h
          cases h
        | some found =>
          obtain ⟨taken, rest⟩ := found
          rw [hcut] at h
          cases h
          rw [cutQuoted_append_right hcut]
      · next hquote =>
        rw [if_neg hquote] at h
        exact cutSymbol_join h

/-- A backslash starts no lexeme. -/
theorem cut_backslash : cut '\\' cs = .error (.unexpectedCharacter '\\') := by
  have hnumber : startsNumber '\\' cs = false := rfl
  have hword : startsWord '\\' = false := by decide
  have hquote : ¬('\\' = '"' ∨ '\\' = '\'') := by decide
  unfold cut
  rw [hnumber, hword, if_neg hquote]
  rfl

/-- A gap in front of a lexeme ends there; a gap at the end of a script ends with it, unless the
line feed is blank too. -/
theorem gap_join {depth : Nat} {inComment : Bool}
    (hend : (gap depth inComment cs).2 = [] → depth = 0)
    (hslash : ∀ rest, (gap depth inComment cs).2 ≠ '\\' :: rest) :
    gap depth inComment (cs ++ '\n' :: bs) =
      ((gap depth inComment cs).1, (gap depth inComment cs).2 ++ '\n' :: bs) := by
  fun_induction gap depth inComment cs with
  | case1 =>
    rw [List.nil_append, gap.eq_def]
    simp [hend rfl]
  | case2 _ cs hdepth ih =>
    rw [List.cons_append, gap.eq_def]
    simp [hdepth, ih hend hslash, keep]
  | case3 _ cs hdepth =>
    rw [List.cons_append, gap.eq_def]
    simp [hdepth]
  | case4 c cs hline ih =>
    rw [List.cons_append, gap.eq_def]
    simp [hline, ih hend hslash, keep]
  | case5 _ c cs hline hcomment hblank ih =>
    rw [List.cons_append, gap.eq_def]
    simp [hline, hcomment, hblank, ih hend hslash, keep]
  | case6 _ cs hline hcomment hblank ih =>
    rw [List.cons_append, gap.eq_def]
    simp [hline, hcomment, hblank, ih hend hslash, keep]
  | case7 _ hcomment ds hline hblank hsign ih =>
    rw [List.cons_append, List.cons_append, gap.eq_def]
    simp [hline, hcomment, hblank, hsign, ih hend hslash, keep]
  | case8 => exact absurd rfl (hslash _)
  | case9 => exact absurd rfl (hslash _)
  | case10 _ c cs hline hcomment hblank hsign hback =>
    rw [List.cons_append, gap.eq_def]
    simp [hline, hcomment, hblank, hsign, hback]

/-! ## Scanning -/

variable {depth : Nat} {here : Position} {seen : List Token}

/-- The number of open parentheses behind some tokens. -/
def openBehind (depth : Nat) (ts : List Token) : Nat :=
  (ts.map Token.kind).foldl depthAfter depth

@[simp] theorem openBehind_nil : openBehind depth [] = depth := rfl

@[simp] theorem openBehind_cons (t : Token) (ts : List Token) :
    openBehind depth (t :: ts) = openBehind (depthAfter depth t.kind) ts := rfl

@[simp] theorem openBehind_append (ts us : List Token) :
    openBehind depth (ts ++ us) = openBehind (openBehind depth ts) us := by
  rw [openBehind, List.map_append, List.foldl_append]
  rfl

/-- **The scanner goes on behind the line feed as at the start of a script**, if all parentheses
are closed by then. -/
theorem scan_join {s : TokenStream} (h : scan depth here seen cs = .ok s) :
    s.stop = here.after cs ∧ ∃ ts, s.tokens = seen.reverse ++ ts ∧
      (openBehind depth ts = 0 → ∀ bs, scan depth here seen (cs ++ '\n' :: bs) =
        scan 0 (s.stop.next '\n') (⟨.newline, s.stop⟩ :: s.tokens.reverse) bs) := by
  induction hn : cs.length using Nat.strongRecOn generalizing depth here seen cs with
  | _ n ih =>
    have hall := gap_append depth false cs
    rcases scan_cases h with ⟨hgap, rfl⟩ | ⟨c, rest, l, hgap, hcut, hshorter, hnext⟩
    · refine ⟨rfl, [], (List.append_nil _).symm, fun hdepth bs => ?_⟩
      obtain rfl : depth = 0 := hdepth
      rw [hgap, List.append_nil] at hall
      have hjoin : gap 0 false (cs ++ '\n' :: bs) = (cs, '\n' :: bs) := by
        rw [gap_join (fun _ => rfl) (by simp [hgap]), hgap, hall, List.nil_append]
      rw [scan_lexeme (congrArg Prod.snd hjoin), hjoin, List.reverse_reverse]
      rfl
    · obtain ⟨hstop, ts, htokens, hlater⟩ := ih l.rest.length (by omega) hnext rfl
      refine ⟨?_, ⟨l.kind, here.after (gap depth false cs).1⟩ :: ts, ?_, fun hdepth bs => ?_⟩
      · rw [hstop, ← Position.after_append, ← Position.after_append, cut_append hcut, ← hgap, hall]
      · rw [htokens, List.reverse_cons, List.append_assoc, List.singleton_append]
      · have hslash : ∀ rest', (gap depth false cs).2 ≠ '\\' :: rest' := by
          intro rest' heq
          rw [hgap] at heq
          cases heq
          rw [cut_backslash] at hcut
          cases hcut
        have hjoin : gap depth false (cs ++ '\n' :: bs) =
            ((gap depth false cs).1, c :: (rest ++ '\n' :: bs)) := by
          rw [gap_join (fun hnil => by simp [hgap] at hnil) hslash, hgap, List.cons_append]
        rw [scan_lexeme (congrArg Prod.snd hjoin), hjoin, cut_join hcut]
        exact hlater hdepth bs

/-- **A script is scanned in the same way wherever it starts**: for any relation between places
that each character keeps. -/
theorem scan_alike {R : Position → Position → Prop}
    (hR : ∀ ⦃p q⦄ c, R p q → R (p.next c) (q.next c)) {here' : Position} {seen' : List Token}
    (h : R here here') :
    Alike R (fun s s' => R s.stop s'.stop ∧ ∃ ts us, s.tokens = seen.reverse ++ ts ∧
        s'.tokens = seen'.reverse ++ us ∧ List.Forall₂ (Token.Alike R) ts us)
      (scan depth here seen cs) (scan depth here' seen' cs) := by
  have hafter : ∀ {p q : Position} (cs : List Char), R p q → R (p.after cs) (q.after cs) := by
    intro p q cs
    induction cs generalizing p q with
    | nil => exact id
    | cons c cs ih => exact fun hpq => ih (hR c hpq)
  induction hn : cs.length using Nat.strongRecOn generalizing depth here here' seen seen' cs with
  | _ n ih =>
    have hlength := gap_rest_length depth false cs
    rcases hgap : (gap depth false cs).2 with _ | ⟨c, rest⟩
    · rw [scan_end hgap, scan_end hgap]
      exact .ok ⟨hafter cs h, [], [], by simp⟩
    · rw [scan_lexeme hgap, scan_lexeme hgap]
      have hplace := hafter (gap depth false cs).1 h
      cases hcut : cut c rest with
      | error cause => exact .error hplace
      | ok l =>
        have hshorter := cut_rest_length hcut
        rw [hgap] at hlength
        refine (ih l.rest.length (by omega) (hafter l.taken hplace) rfl).mono ?_
        rintro s s' ⟨hstop, ts, us, hts, hus, halike⟩
        refine ⟨hstop, ⟨l.kind, here.after (gap depth false cs).1⟩ :: ts,
          ⟨l.kind, here'.after (gap depth false cs).1⟩ :: us, ?_, ?_,
          .cons ⟨rfl, hplace⟩ halike⟩
        · rw [hts, List.reverse_cons, List.append_assoc, List.singleton_append]
        · rw [hus, List.reverse_cons, List.append_assoc, List.singleton_append]

end Lexer

/-! ## What can be parsed closes its parentheses -/

namespace Grammar

open Lexer

mutual

/-- A phrase closes the parentheses that it opens, and no others. -/
theorem Sum.openBehind : ∀ {ts : List Token} {e : Expr}, Sum ts e →
    ∀ depth, Lexer.openBehind depth ts = depth
  | _, _, .product h, depth => h.openBehind depth
  | _, _, .link left _ right, depth => by
      simp [left.openBehind, right.openBehind, depthAfter]

theorem Product.openBehind : ∀ {ts : List Token} {e : Expr}, Product ts e →
    ∀ depth, Lexer.openBehind depth ts = depth
  | _, _, .unary h, depth => h.openBehind depth
  | _, _, .link left _ right, depth => by
      simp [left.openBehind, right.openBehind, depthAfter]

theorem Unary.openBehind : ∀ {ts : List Token} {e : Expr}, Unary ts e →
    ∀ depth, Lexer.openBehind depth ts = depth
  | _, _, .primary h, depth => h.openBehind depth
  | _, _, .sign _ operand, depth => by simp [operand.openBehind, depthAfter]

theorem Primary.openBehind : ∀ {ts : List Token} {e : Expr}, Primary ts e →
    ∀ depth, Lexer.openBehind depth ts = depth
  | _, _, .atom h, depth => h.openBehind depth
  | _, _, .call callee arguments, depth => by
      simp [callee.openBehind, arguments.openBehind, depthAfter]

theorem Arguments.openBehind : ∀ {ts : List Token} {args : List Expr}, Arguments ts args →
    ∀ depth, Lexer.openBehind depth ts = depth
  | _, _, .nil, _ => rfl
  | _, _, .last h, depth => h.openBehind depth
  | _, _, .cons head tail, depth => by
      simp [head.openBehind, tail.openBehind, depthAfter]

theorem Atom.openBehind : ∀ {ts : List Token} {e : Expr}, Atom ts e →
    ∀ depth, Lexer.openBehind depth ts = depth
  | _, _, .literal, _ => rfl
  | _, _, .name, _ => rfl
  | _, _, .parentheses h, depth => by simp [h.openBehind, depthAfter]

end

theorem Statement.openBehind {ts : List Token} {s : Stmt} (h : Statement ts s) (depth : Nat) :
    Lexer.openBehind depth ts = depth := by
  cases h with
  | assign h => simp [h.openBehind, depthAfter]
  | expr h => exact h.openBehind depth

/-- **A script that can be parsed leaves no parenthesis open**, and closes none that was open. -/
theorem Module.openBehind {ts : List Token} {m : Script} (h : Module ts m) (depth : Nat) :
    Lexer.openBehind depth ts = depth := by
  induction h with
  | empty => rfl
  | blank h ih => simpa [depthAfter] using ih
  | last h => exact h.openBehind depth
  | cons head tail ih => simpa [head.openBehind, depthAfter] using ih

end Grammar

/-! ## Between two statements -/

namespace Parser

/-- **The parser goes on behind the line feed as at the start of a script**, with what it has
read. -/
theorem statements_join {stop stop' p : Position} {seen : List Stmt} {ts us : List Token}
    {m : Script} (h : statements stop seen ts = .ok m) :
    statements stop' seen (ts ++ ⟨.newline, p⟩ :: us) = statements stop' m.reverse us := by
  induction hn : ts.length using Nat.strongRecOn generalizing ts seen with
  | _ n ih =>
    rcases statements_cases h with ⟨rfl, rfl⟩ | ⟨q, behind, rfl, hnext⟩ | ⟨s, hread, rfl⟩ |
      ⟨s, q, behind, hread, hlt, hnext⟩
    · rw [List.nil_append, statements_newline, List.reverse_reverse]
    · rw [List.cons_append, statements_newline]
      exact ih behind.length (by rw [← hn]; exact Nat.lt_succ_self _) hnext rfl
    · obtain ⟨-, used, rfl, hread'⟩ := exists_used_of_readStatement hread
      have hline := hread' stop' (⟨.newline, p⟩ :: us) ends_newline fun h =>
        absurd h not_startsWithEquals_newline
      rw [List.append_nil, List.reverse_reverse]
      exact statements_line hline
    · obtain ⟨-, used, rfl, hread'⟩ := exists_used_of_readStatement hread
      have hline := hread' stop' (⟨.newline, q⟩ :: (behind ++ ⟨.newline, p⟩ :: us)) ends_newline
        fun h => absurd h not_startsWithEquals_newline
      rw [List.append_assoc, List.cons_append, statements_line hline]
      exact ih behind.length (by omega) hnext rfl

end Parser

/-! ## Two scripts -/

/-- Behind a script that can be parsed and a line feed, any text is read as it is alone, so many
lines further up. -/
theorem Script.alike_ofText_join {a : String} {ma : Script} (h : Script.ofText a = .ok ma)
    (b : String) :
    Alike (Position.Below (1 + a.toList.count '\n')) (fun mb m => m = ma ++ mb)
      (Script.ofText b) (Script.ofText (a ++ "\n" ++ b)) := by
  obtain ⟨s, htokens, hparse⟩ := Script.eq_ok_of_ofText h
  obtain ⟨m, hm, hmodule⟩ := Parser.module_of_statements hparse
  obtain ⟨hstop, ts, hts, hjoin⟩ := Lexer.scan_join htokens
  rw [List.reverse_nil, List.nil_append] at hts
  have hscan : TokenStream.ofText (a ++ "\n" ++ b) =
      Lexer.scan 0 (Position.start.down (1 + a.toList.count '\n'))
        (⟨.newline, s.stop⟩ :: s.tokens.reverse) b.toList := by
    have hclosed : Lexer.openBehind 0 ts = 0 := hts ▸ hmodule.openBehind 0
    have htext : (a ++ "\n" ++ b).toList = a.toList ++ '\n' :: b.toList := by simp
    rw [TokenStream.ofText, htext, hjoin hclosed, hstop, Position.next_after_start]
  rw [Script.ofText, Script.ofText, hscan]
  have hplace : Position.Below (1 + a.toList.count '\n') .start
      (Position.start.down (1 + a.toList.count '\n')) := rfl
  refine (Lexer.scan_alike (fun _ _ c hpq => hpq.next c) hplace).bind ?_
  rintro s₁ s₂ - ⟨hstops, ts₁, ts₂, hts₁, hts₂, halike⟩
  rw [List.reverse_nil, List.nil_append] at hts₁
  rw [List.reverse_cons, List.reverse_reverse, List.append_assoc, List.singleton_append] at hts₂
  rw [TokenStream.parse, TokenStream.parse, hts₁, hts₂, Parser.statements_join hparse]
  refine (Parser.statements_alike hstops halike).mono ?_
  rintro mb m ⟨more, rfl, rfl⟩
  rw [List.reverse_reverse]

/-- **Scripts concatenate.**  Let a text be the script `ma`.  With a line feed and another text
behind it, it is `ma` and then the script that the other text is; if the other text is none, the
error is the one that is found in it alone, at the same column, one line further down and one more
for each line feed of the first text.  The name of a script is not part of an error, so this does
not depend on it. -/
theorem Script.ofText_join {a : String} {ma : Script} (h : Script.ofText a = .ok ma) (b : String) :
    (∀ mb, Script.ofText b = .ok mb → Script.ofText (a ++ "\n" ++ b) = .ok (ma ++ mb)) ∧
    ∀ e, Script.ofText b = .error e → Script.ofText (a ++ "\n" ++ b) =
      .error ⟨⟨e.position.line + (1 + a.toList.count '\n'), e.position.column⟩, e.cause⟩ := by
  have halike := Script.alike_ofText_join h b
  constructor
  · intro mb hb
    rw [hb] at halike
    generalize Script.ofText (a ++ "\n" ++ b) = r at halike
    cases halike with
    | ok hm => rw [hm]
  · intro e hb
    rw [hb] at halike
    generalize Script.ofText (a ++ "\n" ++ b) = r at halike
    cases halike with
    | error hposition =>
      rw [hposition]
      rfl

/-- A call on two lines. -/
def twoLineCall : Script :=
  [.assign "x" (.call (.name "f") [.constant (.int 1), .constant (.int 2)])]

theorem ofText_twoLineCall : Script.ofText "x = f(1,\n2) # c" = .ok twoLineCall := by cbv

/-- Behind a call on two lines and a comment, `y` is a second statement, and what is missing
behind `1 +` is missing on the third line. -/
theorem Script.ofText_join_twoLineCall :
    Script.ofText "x = f(1,\n2) # c" = .ok twoLineCall ∧
      Script.ofText ("x = f(1,\n2) # c" ++ "\n" ++ "y") =
        .ok (twoLineCall ++ [.expr (.name "y")]) ∧
      Script.ofText ("x = f(1,\n2) # c" ++ "\n" ++ "1 +") =
        .error ⟨⟨3, 4⟩, .expectedExpression none⟩ := by
  refine ⟨ofText_twoLineCall, ?_, ?_⟩
  · exact (Script.ofText_join ofText_twoLineCall "y").1 [.expr (.name "y")] (by cbv)
  · have herror : Script.ofText "1 +" = .error ⟨⟨1, 4⟩, .expectedExpression none⟩ := by cbv
    exact (Script.ofText_join ofText_twoLineCall "1 +").2 _ herror

end StackScript
