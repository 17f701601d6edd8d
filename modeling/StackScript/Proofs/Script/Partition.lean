import Mathlib.Logic.Relator
import StackScript.Proofs.Script.Shapes

/-!
# A script is made of gaps and lexemes

The characters of a script are divided among gaps and lexemes, which take turns, and every
character belongs to one of them.  What a lexeme is was said in `Proofs.Script.Shapes`; a *gap* is
made of blanks, comments, line feeds that a backslash hides, and line feeds inside parentheses
(`Gap`).  A comment goes on to the end of its line, so whether some characters are a gap depends on
what follows them.  Both are as long as they can be, which leaves one way to divide a script
(`Pieces`), and the scanner finds it (`TokenStream.ofText_iff_pieces`).

The scanner keeps its place as it goes, one character after the other.  Here places are counted
from the start (`Position.behind`), so nothing is taken over from the way it counts.
-/

namespace StackScript

/-! ## Places, counted from the start -/

namespace Position

/-- The place behind the given characters of a script: one line for each line feed among them, and
one column for each character behind the last line feed. -/
def behind (cs : List Char) : Position :=
  ⟨1 + cs.count '\n', 1 + (cs.reverse.takeWhile (· != '\n')).length⟩

theorem next_behind (cs : List Char) (c : Char) : (behind cs).next c = behind (cs ++ [c]) := by
  rw [next, behind, behind, List.count_append, List.reverse_append, List.reverse_singleton,
    List.singleton_append]
  by_cases hc : c = '\n'
  · simp [hc, Nat.add_assoc]
  · simp [hc, Nat.add_comm]

/-- Places that are counted along the way are those that are counted from the start. -/
theorem after_behind (before cs : List Char) :
    (behind before).after cs = behind (before ++ cs) := by
  induction cs generalizing before with
  | nil => rw [after_nil, List.append_nil]
  | cons c cs ih => rw [after_cons, next_behind, ih, List.append_assoc, List.singleton_append]

end Position

/-! ## What a gap is -/

namespace Lexer

open Lexeme

/-- The gaps in front of what follows them, where so many parentheses are open. -/
inductive Gap (depth : Nat) : List Char → List Char → Prop
  | nil {rest : List Char} : Gap depth [] rest
  | blank {c : Char} {cs rest : List Char} (hc : c = ' ' ∨ c = '\t' ∨ c = '\r')
      (h : Gap depth cs rest) : Gap depth (c :: cs) rest
  /-- A comment goes on as long as its line. -/
  | comment {body cs rest : List Char} (hbody : '\n' ∉ body)
      (hend : ∀ c ∈ (cs ++ rest).head?, c = '\n') (h : Gap depth cs rest) :
      Gap depth ('#' :: (body ++ cs)) rest
  | continuation {cs rest : List Char} (h : Gap depth cs rest) :
      Gap depth ('\\' :: '\n' :: cs) rest
  | newline {cs rest : List Char} (hdepth : 0 < depth) (h : Gap depth cs rest) :
      Gap depth ('\n' :: cs) rest

/-- The gap does not go on behind its end. -/
def LongestGap (depth : Nat) (taken rest : List Char) : Prop :=
  Gap depth taken rest ∧
    ∀ more behind, rest = more ++ behind → Gap depth more behind → more = []

theorem isBlank_iff {c : Char} : isBlank c = true ↔ c = ' ' ∨ c = '\t' ∨ c = '\r' := by
  simp [isBlank, or_assoc]

/-- A comment may have one more character in front. -/
theorem Gap.comment_cons {depth : Nat} {c : Char} {taken rest : List Char}
    (h : Gap depth ('#' :: taken) rest) (hc : c ≠ '\n') : Gap depth ('#' :: c :: taken) rest := by
  generalize htaken : '#' :: taken = all at h
  cases h with
  | nil => cases htaken
  | blank hblank =>
    cases htaken
    exact absurd hblank (by decide)
  | @comment body cs _ hbody hend h =>
    cases htaken
    have hbody' : '\n' ∉ c :: body := by simp [hbody, Ne.symm hc]
    exact .comment hbody' hend h
  | continuation => cases htaken
  | newline => cases htaken

/-- What is taken as a gap is one; inside a comment it is one with the sign of the comment. -/
theorem gap_isGap (depth : Nat) (inComment : Bool) (cs : List Char) :
    Gap depth ((if inComment then ['#'] else []) ++ (gap depth inComment cs).1)
      (gap depth inComment cs).2 := by
  -- A comment that is over leaves its sign behind, as a comment with nothing in it.
  have hempty : ∀ {taken rest : List Char}, (∀ c ∈ (taken ++ rest).head?, c = '\n') →
      Gap depth taken rest → Gap depth ('#' :: taken) rest :=
    fun hend h => @Gap.comment depth [] _ _ List.not_mem_nil hend h
  fun_induction gap depth inComment cs with
  | case1 inComment =>
    cases inComment with
    | false => exact .nil
    | true => exact hempty (by simp) .nil
  | case2 inComment cs hdepth ih =>
    cases inComment with
    | false => exact .newline hdepth ih
    | true => exact hempty (by simp) (.newline hdepth ih)
  | case3 inComment cs =>
    cases inComment with
    | false => exact .nil
    | true => exact hempty (by simp) .nil
  | case4 c cs hline ih => exact ih.comment_cons hline
  | case5 inComment c cs hline hcomment hblank ih =>
    cases inComment with
    | false => exact .blank (isBlank_iff.mp hblank) ih
    | true => exact absurd rfl hcomment
  | case6 inComment cs hcomment =>
    cases inComment with
    | false => assumption
    | true => exact absurd rfl hcomment
  | case7 inComment hcomment ds hline hblank hsign ih =>
    cases inComment with
    | false => exact .continuation ih
    | true => exact absurd rfl hcomment
  | case8 inComment =>
    cases inComment with
    | false => exact .nil
    | true => contradiction
  | case9 inComment =>
    cases inComment with
    | false => exact .nil
    | true => contradiction
  | case10 inComment =>
    cases inComment with
    | false => exact .nil
    | true => contradiction

theorem gap_comment_body {depth : Nat} {body : List Char} (h : '\n' ∉ body) (cs : List Char) :
    gap depth true (body ++ cs) = keep body (gap depth true cs) := by
  induction body with
  | nil => rfl
  | cons c body ih =>
    rw [List.mem_cons, not_or] at h
    rw [List.cons_append, gap.eq_def]
    simp [Ne.symm h.1, ih h.2, keep]

/-- At the end of its line a comment is over. -/
theorem gap_comment_end {depth : Nat} {cs : List Char} (h : ∀ c ∈ cs.head?, c = '\n') :
    gap depth true cs = gap depth false cs := by
  cases cs with
  | nil => rfl
  | cons c cs =>
    obtain rfl : c = '\n' := h c rfl
    rw [gap.eq_def, gap.eq_def]
    rfl

/-- Whatever is a gap is taken, and perhaps more. -/
theorem Gap.gap_append {depth : Nat} {taken rest : List Char} (h : Gap depth taken rest) :
    gap depth false (taken ++ rest) = keep taken (gap depth false rest) := by
  induction h with
  | nil => rfl
  | @blank c cs rest hc _ ih =>
    have hline : c ≠ '\n' := by rcases hc with rfl | rfl | rfl <;> decide
    rw [List.cons_append, gap.eq_def]
    simp [hline, isBlank_iff.mpr hc, ih, keep]
  | @comment body cs rest hbody hend _ ih =>
    have hblank : isBlank '#' = false := by decide
    rw [List.cons_append, List.append_assoc, gap.eq_def]
    simp [hblank, gap_comment_body hbody, gap_comment_end hend, ih, keep]
  | @continuation cs rest _ ih =>
    have hblank : isBlank '\\' = false := by decide
    rw [List.cons_append, List.cons_append, gap.eq_def]
    simp [hblank, ih, keep]
  | newline hdepth _ ih =>
    rw [List.cons_append, gap.eq_def]
    simp [hdepth, ih, keep]

/-- **What is taken as a gap is the longest one.** -/
theorem longestGap_gap (depth : Nat) (cs : List Char) :
    LongestGap depth (gap depth false cs).1 (gap depth false cs).2 := by
  have hgap : Gap depth (gap depth false cs).1 (gap depth false cs).2 := gap_isGap depth false cs
  refine ⟨hgap, fun more behind hrest hmore => ?_⟩
  have hagain := hgap.gap_append
  rw [gap_append, hrest, hmore.gap_append] at hagain
  have hnil : more = [] ∧ (gap depth false behind).1 = [] := by
    simpa using congrArg Prod.fst hagain
  exact hnil.1

/-- The longest gap is what is taken. -/
theorem gap_of_longest {depth : Nat} {taken rest : List Char} (h : LongestGap depth taken rest) :
    gap depth false (taken ++ rest) = (taken, rest) := by
  have hnil : (gap depth false rest).1 = [] :=
    h.2 _ _ (gap_append depth false rest).symm (gap_isGap depth false rest)
  have hrest := gap_append depth false rest
  rw [hnil, List.nil_append] at hrest
  rw [h.1.gap_append, keep, hnil, hrest, List.append_nil]

/-- No gap starts here: there is no blank, no comment, no line feed that is blank and none that a
backslash hides. -/
def StopsGap (depth : Nat) (cs : List Char) : Prop :=
  ∀ c behind, cs = c :: behind → ¬(c = ' ' ∨ c = '\t' ∨ c = '\r') ∧ c ≠ '#' ∧
    (c = '\n' → depth = 0) ∧ (c = '\\' → behind.head? ≠ some '\n')

/-- A gap is the longest if no gap starts behind it. -/
theorem longestGap_iff {depth : Nat} {taken rest : List Char} :
    LongestGap depth taken rest ↔ Gap depth taken rest ∧ StopsGap depth rest := by
  refine and_congr_right fun _ => ⟨?_, ?_⟩
  · rintro hlongest c cs rfl
    refine ⟨fun hc => ?_, ?_, ?_, ?_⟩
    · exact List.cons_ne_nil c [] (hlongest [c] cs rfl (.blank hc .nil))
    · rintro rfl
      have hbody : '\n' ∉ cs.takeWhile (· != '\n') := fun hmem => by
        simpa using List.all_eq_true.mp List.all_takeWhile _ hmem
      have hend : ∀ c ∈ (cs.dropWhile (· != '\n')).head?, c = '\n' := fun c hc => by
        have hnot := List.head?_dropWhile_not (· != '\n') cs
        rw [Option.mem_def.mp hc] at hnot
        simpa using hnot
      have hcs : '#' :: cs =
          '#' :: (cs.takeWhile (· != '\n') ++ []) ++ cs.dropWhile (· != '\n') := by simp
      exact List.cons_ne_nil _ _ (hlongest _ _ hcs (.comment hbody hend .nil))
    · rintro rfl
      refine Nat.eq_zero_of_not_pos fun hdepth => ?_
      exact List.cons_ne_nil '\n' [] (hlongest ['\n'] cs rfl (.newline hdepth .nil))
    · rintro rfl hhead
      obtain ⟨ds, rfl⟩ := List.head?_eq_some_iff.mp hhead
      exact List.cons_ne_nil _ _ (hlongest ['\\', '\n'] ds rfl (.continuation .nil))
  · rintro hstops more behind rfl hmore
    cases hmore with
    | nil => rfl
    | blank hc => exact absurd hc (hstops _ _ rfl).1
    | comment => exact absurd rfl (hstops _ _ rfl).2.1
    | continuation => exact absurd rfl ((hstops _ _ rfl).2.2.2 rfl)
    | newline hdepth => exact absurd ((hstops _ _ rfl).2.2.1 rfl) (Nat.ne_of_gt hdepth)

/-! ## Gaps and lexemes in turn -/

/-- A lexeme, the gap in front of it, and what the lexeme means. -/
structure Piece where
  /-- The characters of the gap. -/
  gap : List Char
  /-- The characters of the lexeme. -/
  lexeme : List Char
  /-- The kind of its token. -/
  kind : TokenKind

namespace Piece

/-- The characters of some pieces. -/
def chars (ps : List Piece) : List Char := ps.flatMap fun p => p.gap ++ p.lexeme

/-- The tokens of some pieces behind the given characters. -/
def tokens (before : List Char) : List Piece → List Token
  | [] => []
  | p :: ps =>
      ⟨p.kind, .behind (before ++ p.gap)⟩ :: tokens (before ++ (p.gap ++ p.lexeme)) ps

@[simp] theorem chars_nil : chars [] = [] := rfl

@[simp] theorem chars_cons (p : Piece) (ps : List Piece) :
    chars (p :: ps) = p.gap ++ (p.lexeme ++ chars ps) := by
  rw [chars, List.flatMap_cons, List.append_assoc]
  rfl

end Piece

open Piece

/-- These pieces are what a script has in front of the rest, where so many parentheses are open
before them and so many behind. -/
inductive Pieces : Nat → List Piece → Nat → List Char → Prop
  | nil {depth : Nat} {rest : List Char} : Pieces depth [] depth rest
  | cons {depth depth' : Nat} {p : Piece} {ps : List Piece} {rest : List Char} {shape : Shape}
      (hgap : LongestGap depth p.gap (p.lexeme ++ (chars ps ++ rest)))
      (hmeans : Means shape p.lexeme (.ok p.kind)) (hlongest : Longest p.lexeme (chars ps ++ rest))
      (h : Pieces (depthAfter depth p.kind) ps depth' rest) : Pieces depth (p :: ps) depth' rest

/-- The gap of a piece, as a gap behind the pieces before it. -/
theorem Pieces.exists_gap {depth depth' : Nat} {ps : List Piece} {rest : List Char} {p : Piece}
    (h : Pieces depth ps depth' rest) (hp : p ∈ ps) :
    ∃ qs between behind, chars ps ++ rest = chars qs ++ (p.gap ++ behind) ∧
      Pieces depth qs between (p.gap ++ behind) ∧ LongestGap between p.gap behind ∧
      qs.length < ps.length := by
  induction h with
  | nil => cases hp
  | @cons depth depth' q ps rest shape hgap hmeans hlongest _ ih =>
    rcases List.mem_cons.mp hp with rfl | hp
    · exact ⟨[], depth, p.lexeme ++ (chars ps ++ rest), by simp, .nil, hgap, by simp⟩
    · obtain ⟨qs, between, behind, hchars, hqs, hp, hlength⟩ := ih hp
      rw [hchars] at hgap hlongest
      refine ⟨q :: qs, between, behind, by simp [hchars], .cons hgap hmeans hlongest hqs, hp, ?_⟩
      simpa using hlength

/-- **Every text falls into pieces**, up to a gap at its end or a place where there is no token. -/
theorem exists_pieces (depth : Nat) (cs : List Char) :
    ∃ ps depth' taken rest, cs = chars ps ++ (taken ++ rest) ∧
      Pieces depth ps depth' (taken ++ rest) ∧ LongestGap depth' taken rest ∧
      (rest = [] ∨ ∃ cause, Offends cause rest) := by
  -- On the length, because what is left behind a gap and a lexeme is a tail of unknown length.
  induction hn : cs.length using Nat.strongRecOn generalizing depth cs with
  | _ n ih =>
    have happend := gap_append depth false cs
    have hlongest := longestGap_gap depth cs
    generalize (gap depth false cs).1 = taken at happend hlongest
    generalize (gap depth false cs).2 = rest at happend hlongest
    subst happend
    cases rest with
    | nil => exact ⟨[], depth, taken, [], rfl, .nil, hlongest, .inl rfl⟩
    | cons c rest =>
      have hanswer := answers_cut c rest
      cases hcut : cut c rest with
      | error cause =>
        rw [hcut] at hanswer
        exact ⟨[], depth, taken, c :: rest, rfl, .nil, hlongest, .inr ⟨cause, hanswer⟩⟩
      | ok l =>
        rw [hcut] at hanswer
        obtain ⟨happend, ⟨shape, hmeans⟩, hlexeme⟩ := hanswer
        have hshorter := cut_rest_length hcut
        rw [List.length_append] at hn
        obtain ⟨ps, depth', taken', rest', hrest, hpieces, hgap, hend⟩ :=
          ih l.rest.length (by omega) (depthAfter depth l.kind) l.rest rfl
        rw [← happend] at hlongest ⊢
        rw [hrest] at hlongest hlexeme ⊢
        refine ⟨⟨taken, l.taken, l.kind⟩ :: ps, depth', taken', rest', ?_, ?_, hgap, hend⟩
        · simp
        · exact .cons hlongest hmeans hlexeme hpieces

/-- **The scanner reads the pieces**, and then what follows them. -/
theorem Pieces.scan {depth depth' : Nat} {ps : List Piece} {rest : List Char}
    (h : Pieces depth ps depth' rest) (before : List Char) (seen : List Token) :
    Lexer.scan depth (.behind before) seen (chars ps ++ rest) =
      Lexer.scan depth' (.behind (before ++ chars ps)) ((tokens before ps).reverse ++ seen)
        rest := by
  induction h generalizing before seen with
  | nil => rw [chars_nil, List.nil_append, List.append_nil]; rfl
  | @cons depth depth' p ps rest shape hgap hmeans hlongest _ ih =>
    obtain ⟨c, cs, hlexeme⟩ := List.exists_cons_of_ne_nil hmeans.ne_nil
    have htaken := gap_of_longest hgap
    rw [hlexeme] at hmeans hlongest htaken
    rw [List.cons_append] at htaken
    rw [chars_cons, List.append_assoc, List.append_assoc, hlexeme,
      List.cons_append, scan_lexeme (congrArg Prod.snd htaken), htaken,
      cut_of_longest hmeans hlongest]
    dsimp only
    rw [Position.after_behind, Position.after_behind, ih, tokens, hlexeme]
    simp

end Lexer

open Lexer Lexeme

/-- A script that falls into pieces and a last gap has the tokens of the pieces. -/
theorem TokenStream.ofText_of_pieces {source : String} {ps : List Piece} {depth : Nat}
    {taken : List Char} (hsource : source.toList = Piece.chars ps ++ taken)
    (hpieces : Pieces 0 ps depth taken) (hgap : LongestGap depth taken []) :
    TokenStream.ofText source = .ok ⟨Piece.tokens [] ps, .behind source.toList⟩ := by
  have htaken := gap_of_longest hgap
  rw [List.append_nil] at htaken
  have hscan := hpieces.scan [] []
  rw [List.nil_append, List.append_nil, scan_end (congrArg Prod.snd htaken),
    Position.after_behind, ← hsource, List.reverse_reverse] at hscan
  exact hscan

/-- A script with a place where there is no token has none. -/
theorem TokenStream.ofText_of_offends {source : String} {ps : List Piece} {depth : Nat}
    {taken rest : List Char} {c : Char} {cause : SyntaxError.Cause}
    (hsource : source.toList = Piece.chars ps ++ (taken ++ c :: rest))
    (hpieces : Pieces 0 ps depth (taken ++ c :: rest)) (hgap : LongestGap depth taken (c :: rest))
    (h : Offends cause (c :: rest)) :
    TokenStream.ofText source = .error ⟨.behind (Piece.chars ps ++ taken), cause⟩ := by
  have htaken := gap_of_longest hgap
  have hscan := hpieces.scan [] []
  rw [List.nil_append, List.append_nil, scan_lexeme (congrArg Prod.snd htaken), htaken,
    cut_of_offends h, Position.after_behind, ← hsource] at hscan
  exact hscan

/-- **A script is divided among gaps and lexemes, and positions are exact.**  A text has tokens if
and only if it falls into pieces and a last gap; the tokens are then those that the lexemes mean,
each at the place of its first character, and the end, which is not among them, lies behind the
whole text.  A text is refused if and only if it falls into pieces and a gap up to a place where
there is no token, and that place, with the reason, is what is reported.  A lexeme has at least one
character, and determines its token.

Places are counted from the start of the text, however long it is. -/
theorem TokenStream.ofText_iff_pieces (source : String) :
    (∀ s, TokenStream.ofText source = .ok s ↔
      ∃ ps depth taken, source.toList = Piece.chars ps ++ taken ∧ Pieces 0 ps depth taken ∧
        Gap depth taken [] ∧ s = ⟨Piece.tokens [] ps, .behind source.toList⟩) ∧
    (∀ e, TokenStream.ofText source = .error e ↔
      ∃ ps depth taken rest, source.toList = Piece.chars ps ++ (taken ++ rest) ∧
        Pieces 0 ps depth (taken ++ rest) ∧ LongestGap depth taken rest ∧ Offends e.cause rest ∧
        e.position = .behind (Piece.chars ps ++ taken)) ∧
    (∀ shape result, ¬Means shape [] result) ∧
    Relator.RightUnique fun lexeme kind => ∃ shape, Means shape lexeme (.ok kind) := by
  have hlongest : ∀ {depth : Nat} {taken : List Char}, Gap depth taken [] →
      LongestGap depth taken [] := fun hgap =>
    ⟨hgap, fun more behind hrest _ => (List.append_eq_nil_iff.mp hrest.symm).1⟩
  obtain ⟨ps, depth, taken, rest, hsource, hpieces, hgap, hend⟩ := exists_pieces 0 source.toList
  refine ⟨fun s => ⟨fun h => ?_, ?_⟩, fun e => ⟨fun h => ?_, ?_⟩, fun _ _ h => h.ne_nil rfl, ?_⟩
  · rcases hend with rfl | ⟨cause, hoffends⟩
    · rw [List.append_nil] at hsource hpieces
      rw [TokenStream.ofText_of_pieces hsource hpieces hgap] at h
      exact ⟨ps, depth, taken, hsource, hpieces, hgap.1, (Except.ok.inj h).symm⟩
    · obtain ⟨c, rest, rfl⟩ := hoffends.exists_cons
      rw [TokenStream.ofText_of_offends hsource hpieces hgap hoffends] at h
      cases h
  · rintro ⟨ps, depth, taken, hsource, hpieces, hgap, rfl⟩
    exact TokenStream.ofText_of_pieces hsource hpieces (hlongest hgap)
  · rcases hend with rfl | ⟨cause, hoffends⟩
    · rw [List.append_nil] at hsource hpieces
      rw [TokenStream.ofText_of_pieces hsource hpieces hgap] at h
      cases h
    · refine ⟨ps, depth, taken, rest, hsource, hpieces, hgap, ?_⟩
      obtain ⟨c, rest, rfl⟩ := hoffends.exists_cons
      rw [TokenStream.ofText_of_offends hsource hpieces hgap hoffends] at h
      cases h
      exact ⟨hoffends, rfl⟩
  · rintro ⟨ps, depth, taken, rest, hsource, hpieces, hgap, hoffends, hposition⟩
    obtain ⟨c, rest, rfl⟩ := hoffends.exists_cons
    rw [TokenStream.ofText_of_offends hsource hpieces hgap hoffends, ← hposition]
  · rintro lexeme kind kind' ⟨shape, hmeans⟩ ⟨shape', hmeans'⟩
    exact Except.ok.inj (hmeans.unique hmeans')

end StackScript
