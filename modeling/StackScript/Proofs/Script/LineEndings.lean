import Mathlib
import StackScript.Proofs.Script.Locality
import StackScript.Proofs.Script.Partition

/-!
# Line endings

Some systems end a line with a carriage return and a line feed.  A carriage return is a blank, so
a script should not change if one is put in front of every line feed; and it does not, unless a
backslash hides a line feed from the parser (`Script.ofText_withReturns`).  The backslash is then
in front of the carriage return, where it hides nothing, and the script is refused.  Texts in
quotes, where a carriage return is a character like any other, are assumed to stay on their line.

The argument goes over the pieces of a script.  A carriage return ends up at the end of the gap in
front of a line feed, or in the middle of a gap that the line feed belongs to; if there is a
comment in this gap, the carriage return is part of it.  No lexeme gains a carriage return: this is
clear from its shape except for a text, and a text that had one would have the line feed behind it
too, with no backslash to allow it (`Means.return_notMem`).  So the same lexemes start at every
place (`Longest.withReturns`, `Offends.withReturns`), and the pieces of the script with carriage
returns are those of the script without them (`Pieces.withReturns`).
-/

namespace StackScript

namespace Position

/-- Two places are on the same line. -/
def SameLine (p q : Position) : Prop := p.line = q.line

theorem sameLine_behind {cs ds : List Char} :
    SameLine (behind cs) (behind ds) ↔ cs.count '\n' = ds.count '\n' :=
  Nat.add_left_cancel_iff

end Position

namespace Lexer

open Lexeme

/-! ## Carriage returns -/

/-- The same characters with a carriage return in front of every line feed. -/
def withReturns (cs : List Char) : List Char :=
  cs.flatMap fun c => if c = '\n' then ['\r', '\n'] else [c]

/-- The carriage return that belongs in front of some characters. -/
def returnAhead : List Char → List Char
  | [] => []
  | c :: _ => if c = '\n' then ['\r'] else []

/-- The same characters with a carriage return in front of every line feed but the first
character. -/
def behindReturn : List Char → List Char
  | [] => []
  | c :: cs => c :: withReturns cs

@[simp] theorem withReturns_nil : withReturns [] = [] := rfl

@[simp] theorem withReturns_newline (cs : List Char) :
    withReturns ('\n' :: cs) = '\r' :: '\n' :: withReturns cs := rfl

theorem withReturns_cons {c : Char} (h : c ≠ '\n') (cs : List Char) :
    withReturns (c :: cs) = c :: withReturns cs := by
  rw [withReturns, List.flatMap_cons, if_neg h]
  rfl

@[simp] theorem withReturns_append (as bs : List Char) :
    withReturns (as ++ bs) = withReturns as ++ withReturns bs :=
  List.flatMap_append

theorem withReturns_of_notMem {cs : List Char} (h : '\n' ∉ cs) : withReturns cs = cs := by
  induction cs with
  | nil => rfl
  | cons c cs ih =>
    rw [List.mem_cons, not_or] at h
    rw [withReturns_cons (Ne.symm h.1), ih h.2]

theorem withReturns_eq (cs : List Char) : withReturns cs = returnAhead cs ++ behindReturn cs := by
  cases cs with
  | nil => rfl
  | cons c cs =>
    by_cases hc : c = '\n'
    · subst hc
      rfl
    · rw [withReturns_cons hc, returnAhead, if_neg hc]
      rfl

/-- The carriage return between two parts is counted to the first. -/
theorem withReturns_append_eq (as bs : List Char) :
    withReturns (as ++ bs) = withReturns as ++ returnAhead bs ++ behindReturn bs := by
  rw [withReturns_append, withReturns_eq bs, List.append_assoc]

/-- No line feed comes first. -/
theorem head?_withReturns_ne (cs : List Char) : (withReturns cs).head? ≠ some '\n' := by
  cases cs with
  | nil => simp
  | cons c cs =>
    by_cases hc : c = '\n'
    · subst hc
      simp
    · rw [withReturns_cons hc]
      simpa using hc

@[simp] theorem count_returnAhead (cs : List Char) : (returnAhead cs).count '\n' = 0 := by
  cases cs with
  | nil => rfl
  | cons c cs =>
    rw [returnAhead]
    split <;> rfl

/-- There are as many lines as before. -/
@[simp] theorem count_withReturns (cs : List Char) :
    (withReturns cs).count '\n' = cs.count '\n' := by
  induction cs with
  | nil => rfl
  | cons c cs ih =>
    by_cases hc : c = '\n'
    · subst hc
      simp [ih]
    · rw [withReturns_cons hc, List.count_cons, List.count_cons, ih]

/-- The first character was there before, or it is a carriage return in front of a line feed. -/
theorem withReturns_eq_cons {cs ds : List Char} {d : Char} (h : withReturns cs = d :: ds) :
    (∃ cs', cs = d :: cs' ∧ withReturns cs' = ds) ∨ d = '\r' ∧ ∃ ds', ds = '\n' :: ds' := by
  cases cs with
  | nil => cases h
  | cons c cs =>
    by_cases hc : c = '\n'
    · subst hc
      obtain ⟨rfl, rfl⟩ := List.cons.inj h
      exact .inr ⟨rfl, _, rfl⟩
    · rw [withReturns_cons hc] at h
      obtain ⟨rfl, rfl⟩ := List.cons.inj h
      exact .inl ⟨cs, rfl, rfl⟩

/-- What stands at the head without a carriage return stood there before. -/
theorem exists_of_withReturns_eq_append {cs more behind : List Char} (hmore : '\r' ∉ more)
    (h : withReturns cs = more ++ behind) : ∃ behind', cs = more ++ behind' := by
  induction more generalizing cs with
  | nil => exact ⟨cs, rfl⟩
  | cons d more ih =>
    rw [List.mem_cons, not_or] at hmore
    rcases withReturns_eq_cons h with ⟨cs, rfl, htail⟩ | ⟨hd, -⟩
    · obtain ⟨behind', rfl⟩ := ih hmore.2 htail
      exact ⟨behind', rfl⟩
    · exact absurd hd.symm hmore.1

/-! ## Lexemes -/

end Lexer

namespace Lexeme

open Lexer

/-- A number does not reach over the end of a line. -/
theorem NumberForm.ne_lineEnd {fractional : Bool} {cs : List Char} (h : NumberForm fractional cs) :
    ∀ c ∈ cs, c ≠ '\r' ∧ c ≠ '\n' := by
  have hdigit : ∀ c : Char, c.isDigit = true → c ≠ '\r' ∧ c ≠ '\n' := fun c hc =>
    ⟨ne_of_test hc (by decide), ne_of_test hc (by decide)⟩
  have hmark : ∀ c : Char, c = 'e' ∨ c = 'E' → c ≠ '\r' ∧ c ≠ '\n' := by
    rintro c (rfl | rfl) <;> decide
  induction h with
  | nil => simp
  | digit hc _ ih =>
    refine List.forall_mem_cons.mpr ⟨?_, ih⟩
    rcases hc with hc | rfl
    · exact hdigit _ hc
    · decide
  | point _ ih => exact List.forall_mem_cons.mpr ⟨by decide, ih⟩
  | exponent he _ _ ih => exact List.forall_mem_cons.mpr ⟨hmark _ he, ih⟩
  | signedExponent he hs _ _ ih =>
    refine List.forall_mem_cons.mpr ⟨hmark _ he, List.forall_mem_cons.mpr ⟨?_, ih⟩⟩
    rcases hs with rfl | rfl <;> decide

/-- Only a text could reach over the end of a line. -/
theorem Means.ne_lineEnd {shape : Shape} {c : Char} {cs : List Char}
    {result : Except SyntaxError.Cause TokenKind} (h : Means shape (c :: cs) result)
    (hshape : shape ≠ .text) : ∀ d ∈ cs, d ≠ '\r' ∧ d ≠ '\n' := by
  cases h with
  | number _ h => exact (List.forall_mem_cons.mp h.ne_lineEnd).2
  | word _ h => exact fun d hd => ⟨ne_of_test (h d hd) (by decide), ne_of_test (h d hd) (by decide)⟩
  | text => exact absurd rfl hshape
  | symbol => simp
  | slashes => simp

/-- What stands between quotes has no carriage return, if these come with line feeds only. -/
theorem TextBody.return_notMem {quote : Char} {body cs behind : List Char} (hquote : IsQuote quote)
    (h : TextBody quote body) (hreturn : '\r' ∉ cs)
    (hcs : withReturns cs = body ++ quote :: behind) : '\r' ∉ body := by
  -- The character behind a carriage return would be the line feed, which is no quote, and neither
  -- a plain character nor a backslash.
  have hnewline : ∀ {body ds : List Char}, TextBody quote body →
      '\n' :: ds ≠ body ++ quote :: behind := by
    intro body ds hbody heq
    cases hbody with
    | nil => rcases hquote with rfl | rfl <;> cases heq
    | plain hline => exact hline (List.cons.inj heq).1.symm
    | escape => cases heq
  induction h generalizing cs with
  | nil => exact List.not_mem_nil
  | plain _ _ _ hbody ih =>
    rcases withReturns_eq_cons hcs with ⟨cs, rfl, htail⟩ | ⟨-, ds, htail⟩
    · rw [List.mem_cons, not_or] at hreturn ⊢
      exact ⟨hreturn.1, ih hreturn.2 htail⟩
    · exact absurd htail.symm (hnewline hbody)
  | escape hbody ih =>
    rcases withReturns_eq_cons hcs with ⟨cs, rfl, htail⟩ | ⟨hslash, -⟩
    · rcases withReturns_eq_cons htail with ⟨cs, rfl, hbehind⟩ | ⟨-, ds, hbehind⟩
      · rw [List.mem_cons, List.mem_cons, not_or, not_or] at hreturn ⊢
        exact ⟨hreturn.1, hreturn.2.1, ih hreturn.2.2 hbehind⟩
      · exact absurd hbehind.symm (hnewline hbody)
    · cases hslash

/-- **No lexeme gains a carriage return.** -/
theorem Means.return_notMem {shape : Shape} {c : Char} {taken cs behind : List Char}
    {result : Except SyntaxError.Cause TokenKind} (h : Means shape (c :: taken) result)
    (hreturn : '\r' ∉ cs) (hcs : withReturns cs = taken ++ behind) : '\r' ∉ taken := by
  by_cases hshape : shape = .text
  · subst hshape
    cases h with
    | text hquote hbody =>
      rw [List.append_assoc, List.singleton_append] at hcs
      have hbody' := hbody.return_notMem hquote hreturn hcs
      have hother : '\r' ≠ c := by rcases hquote with rfl | rfl <;> decide
      simp [hbody', hother]
  · exact fun hmem => (h.ne_lineEnd hshape _ hmem).1 rfl

theorem NoLexeme.withReturns {c : Char} {cs : List Char} (h : NoLexeme (c :: cs))
    (hreturn : '\r' ∉ cs) : NoLexeme (c :: withReturns cs) := by
  intro taken behind shape result heq hmeans
  obtain ⟨d, taken, rfl⟩ := List.exists_cons_of_ne_nil hmeans.ne_nil
  obtain ⟨rfl, htail⟩ := List.cons.inj heq
  obtain ⟨behind', rfl⟩ :=
    exists_of_withReturns_eq_append (hmeans.return_notMem hreturn htail) htail
  exact h (c :: taken) behind' shape result rfl hmeans

/-- A longest lexeme is still the longest. -/
theorem Longest.withReturns {c : Char} {taken rest : List Char} (h : Longest (c :: taken) rest)
    (hline : '\n' ∉ taken) (hreturn : '\r' ∉ taken ++ rest) :
    Longest (c :: taken) (withReturns rest) := by
  intro more behind shape result hrest hmeans
  have hcs : Lexer.withReturns (taken ++ rest) = (taken ++ more) ++ behind := by
    rw [withReturns_append, withReturns_of_notMem hline, hrest, List.append_assoc]
  rw [List.cons_append] at hmeans
  have hmore := hmeans.return_notMem hreturn hcs
  rw [List.mem_append, not_or] at hmore
  obtain ⟨behind', rfl⟩ := exists_of_withReturns_eq_append hmore.2 hrest
  exact h more behind' shape result rfl hmeans

/-- Where there was no token, there is none. -/
theorem Offends.withReturns {cause : SyntaxError.Cause} {c : Char} {cs : List Char}
    (h : Offends cause (c :: cs)) (hreturn : '\r' ∉ cs) :
    Offends cause (c :: withReturns cs) := by
  generalize hall : c :: cs = all at h
  cases h with
  | @number _ taken rest hmeans hlongest =>
    obtain ⟨d, taken, rfl⟩ := List.exists_cons_of_ne_nil hmeans.ne_nil
    rw [List.cons_append] at hall
    obtain ⟨rfl, rfl⟩ := List.cons.inj hall
    have hline : '\n' ∉ taken := fun hmem => (hmeans.ne_lineEnd (by decide) _ hmem).2 rfl
    have hlongest' := hlongest.withReturns hline hreturn
    rw [withReturns_append, withReturns_of_notMem hline]
    exact .number hmeans hlongest'
  | text hquote hnone =>
    cases hall
    exact .text hquote (hnone.withReturns hreturn)
  | character hquote hnone =>
    cases hall
    exact .character hquote (hnone.withReturns hreturn)

end Lexeme

namespace Lexer

open Lexeme

/-! ## Gaps -/

/-- Whether a backslash of a gap hides a line feed; it does unless it stands in a comment. -/
def hidesLine (inComment : Bool) : List Char → Bool
  | [] => false
  | c :: cs =>
      if inComment then hidesLine (c != '\n') cs else c == '\\' || hidesLine (c == '#') cs

theorem hidesLine_of_blank {c : Char} (hc : c = ' ' ∨ c = '\t' ∨ c = '\r' ∨ c = '\n')
    (cs : List Char) : hidesLine false (c :: cs) = hidesLine false cs := by
  rcases hc with rfl | rfl | rfl | rfl <;> rfl

/-- A comment hides nothing. -/
theorem hidesLine_comment {body cs : List Char} (hbody : '\n' ∉ body)
    (hend : ∀ c ∈ cs.head?, c = '\n') :
    hidesLine false ('#' :: (body ++ cs)) = hidesLine false cs := by
  show hidesLine true (body ++ cs) = hidesLine false cs
  induction body with
  | nil =>
    cases cs with
    | nil => rfl
    | cons c cs =>
      obtain rfl : c = '\n' := hend c rfl
      rfl
  | cons c body ih =>
    rw [List.mem_cons, not_or] at hbody
    have hc : (c != '\n') = true := by simpa using Ne.symm hbody.1
    rw [List.cons_append, hidesLine, if_pos rfl, hc, ih hbody.2]

theorem head?_of_append {cs rest : List Char} (h : ∀ c ∈ (cs ++ rest).head?, c = '\n') :
    ∀ c ∈ cs.head?, c = '\n' := by
  cases cs with
  | nil => simp
  | cons c cs => exact h

/-- A comment takes the carriage return at the end of its line. -/
theorem Gap.comment_withReturns {depth : Nat} {body cs rest : List Char}
    (h : Gap depth (Lexer.withReturns cs ++ returnAhead rest) (behindReturn rest))
    (hbody : '\n' ∉ body) (hend : ∀ c ∈ (cs ++ rest).head?, c = '\n') :
    Gap depth ('#' :: (body ++ (Lexer.withReturns cs ++ returnAhead rest)))
      (behindReturn rest) := by
  have hbody' : '\n' ∉ body ++ ['\r'] := by simpa using hbody
  cases cs with
  | cons c cs =>
    obtain rfl : c = '\n' := hend c rfl
    rw [withReturns_newline, List.cons_append] at h ⊢
    rw [List.append_cons]
    cases h with
    | blank _ h => exact .comment hbody' (by simp) h
  | nil =>
    cases rest with
    | nil => exact .comment hbody (by simp [returnAhead, behindReturn]) h
    | cons c rest =>
      obtain rfl : c = '\n' := hend c rfl
      have hall : body ++ (Lexer.withReturns [] ++ returnAhead ('\n' :: rest)) =
          body ++ ['\r'] ++ [] := by simp [returnAhead]
      rw [hall]
      exact .comment hbody' (by simp [behindReturn]) .nil

/-- **A gap that hides no line feed is still a gap**, and the carriage return behind it joins it. -/
theorem Gap.withReturns {depth : Nat} {taken rest : List Char} (h : Gap depth taken rest)
    (hplain : hidesLine false taken = false) :
    Gap depth (Lexer.withReturns taken ++ returnAhead rest) (behindReturn rest) := by
  induction h with
  | @nil rest =>
    rw [withReturns_nil, List.nil_append]
    cases rest with
    | nil => exact .nil
    | cons c rest =>
      rw [returnAhead]
      split
      · exact .blank (by decide) .nil
      · exact .nil
  | @blank c cs rest hc _ ih =>
    have hline : c ≠ '\n' := by rcases hc with rfl | rfl | rfl <;> decide
    have hc' : c = ' ' ∨ c = '\t' ∨ c = '\r' ∨ c = '\n' := by
      rcases hc with hc | hc | hc <;> simp [hc]
    rw [hidesLine_of_blank hc'] at hplain
    rw [withReturns_cons hline]
    exact .blank hc (ih hplain)
  | @comment body cs rest hbody hend _ ih =>
    rw [hidesLine_comment hbody (head?_of_append hend)] at hplain
    rw [withReturns_cons (by decide), withReturns_append, withReturns_of_notMem hbody,
      List.cons_append, List.append_assoc]
    exact (ih hplain).comment_withReturns hbody hend
  | continuation => cases hplain
  | @newline cs rest hdepth _ ih =>
    rw [hidesLine_of_blank (by simp)] at hplain
    rw [withReturns_newline]
    exact .blank (by simp) (.newline hdepth (ih hplain))

theorem StopsGap.behindReturn {depth : Nat} {rest : List Char} (h : StopsGap depth rest) :
    StopsGap depth (behindReturn rest) := by
  rintro c cs heq
  cases rest with
  | nil => cases heq
  | cons d rest =>
    obtain ⟨rfl, rfl⟩ := List.cons.inj heq
    obtain ⟨hblank, hcomment, hline, -⟩ := h d rest rfl
    exact ⟨hblank, hcomment, hline, fun _ => head?_withReturns_ne rest⟩

theorem LongestGap.withReturns {depth : Nat} {taken rest : List Char}
    (h : LongestGap depth taken rest) (hplain : hidesLine false taken = false) :
    LongestGap depth (Lexer.withReturns taken ++ returnAhead rest) (behindReturn rest) := by
  obtain ⟨hgap, hstops⟩ := longestGap_iff.mp h
  exact longestGap_iff.mpr ⟨hgap.withReturns hplain, hstops.behindReturn⟩

/-! ## Pieces -/

/-- The piece with a carriage return in front of every line feed of its gap, and in front of its
lexeme if that is one. -/
def Piece.withReturns (p : Piece) : Piece where
  gap := Lexer.withReturns p.gap ++ returnAhead p.lexeme
  lexeme := p.lexeme
  kind := p.kind

/-- No text among the pieces has a line feed in it. -/
def TextsOnOneLine (ps : List Piece) : Prop :=
  ∀ p ∈ ps, ∀ result, Means .text p.lexeme result → '\n' ∉ p.lexeme

/-- Only the first character of a lexeme can be a line feed. -/
theorem exists_lexeme_eq_cons {p : Piece} {shape : Shape}
    (hmeans : Means shape p.lexeme (.ok p.kind))
    (htext : ∀ result, Means .text p.lexeme result → '\n' ∉ p.lexeme) :
    ∃ c cs, p.lexeme = c :: cs ∧ '\n' ∉ cs := by
  obtain ⟨c, cs, hlexeme⟩ := List.exists_cons_of_ne_nil hmeans.ne_nil
  refine ⟨c, cs, hlexeme, fun hmem => ?_⟩
  rw [hlexeme] at hmeans htext
  by_cases hshape : shape = .text
  · subst hshape
    exact htext _ hmeans (List.mem_cons_of_mem c hmem)
  · exact (hmeans.ne_lineEnd hshape _ hmem).2 rfl

/-- **The pieces of a script with carriage returns are the pieces of the script.** -/
theorem Pieces.withReturns {depth depth' : Nat} {ps : List Piece} {rest : List Char}
    (h : Pieces depth ps depth' rest) (hreturn : '\r' ∉ Piece.chars ps ++ rest)
    (htexts : TextsOnOneLine ps) (hplain : ∀ p ∈ ps, hidesLine false p.gap = false) :
    Piece.chars (ps.map Piece.withReturns) = Lexer.withReturns (Piece.chars ps) ∧
      Pieces depth (ps.map Piece.withReturns) depth' (Lexer.withReturns rest) := by
  induction h with
  | nil => exact ⟨rfl, .nil⟩
  | @cons depth depth' p ps rest shape hgap hmeans hlongest _ ih =>
    obtain ⟨c, cs, hlexeme, hline⟩ := exists_lexeme_eq_cons hmeans (htexts p List.mem_cons_self)
    rw [Piece.chars_cons, hlexeme] at hreturn
    simp only [List.append_assoc, List.cons_append, List.mem_append, List.mem_cons, not_or]
      at hreturn
    obtain ⟨hreturn₁, hreturn₂, hreturn₃, hreturn₄, hreturn₅⟩ := hreturn
    have hrest : '\r' ∉ Piece.chars ps ++ rest := by simp [hreturn₄, hreturn₅]
    obtain ⟨hchars, hpieces⟩ := ih hrest (fun q hq => htexts q (List.mem_cons_of_mem p hq))
      fun q hq => hplain q (List.mem_cons_of_mem p hq)
    have hbehind : behindReturn (p.lexeme ++ (Piece.chars ps ++ rest)) =
        p.lexeme ++ (Piece.chars (ps.map Piece.withReturns) ++ Lexer.withReturns rest) := by
      rw [hlexeme, hchars, List.cons_append, behindReturn, withReturns_append,
        withReturns_of_notMem hline, withReturns_append, List.cons_append]
    have hahead : returnAhead (p.lexeme ++ (Piece.chars ps ++ rest)) = returnAhead p.lexeme := by
      rw [hlexeme]
      rfl
    have hgap' := hgap.withReturns (hplain p List.mem_cons_self)
    rw [hbehind, hahead] at hgap'
    rw [List.map_cons]
    refine ⟨?_, .cons hgap' hmeans ?_ hpieces⟩
    · have hlexeme' : Lexer.withReturns p.lexeme = returnAhead p.lexeme ++ p.lexeme := by
        rw [withReturns_eq, hlexeme, behindReturn, withReturns_of_notMem hline]
      rw [Piece.chars_cons, Piece.chars_cons, withReturns_append, withReturns_append, hlexeme',
        hchars, List.append_assoc]
      exact List.append_assoc _ _ _
    · have hreturn' : '\r' ∉ cs ++ (Piece.chars ps ++ rest) := by
        simp [hreturn₃, hreturn₄, hreturn₅]
      rw [hlexeme] at hlongest
      have hlongest' := hlongest.withReturns hline hreturn'
      rw [withReturns_append, ← hchars, ← hlexeme] at hlongest'
      exact hlongest'

/-- The tokens stay on their lines. -/
theorem Piece.tokens_withReturns (ps : List Piece) {before before' : List Char}
    (h : before.count '\n' = before'.count '\n') :
    List.Forall₂ (Token.Alike Position.SameLine) (Piece.tokens before ps)
      (Piece.tokens before' (ps.map Piece.withReturns)) := by
  induction ps generalizing before before' with
  | nil => exact .nil
  | cons p ps ih =>
    refine .cons ⟨rfl, ?_⟩ (ih ?_)
    · simp [Position.sameLine_behind, Piece.withReturns, h]
    · simp [Piece.withReturns, h]

/-! ## Hidden line feeds -/

/-- In some gap of the script a backslash hides a line feed. -/
def HidesLine (source : List Char) : Prop :=
  ∃ ps depth taken rest, source = Piece.chars ps ++ (taken ++ rest) ∧
    Pieces 0 ps depth (taken ++ rest) ∧ LongestGap depth taken rest ∧
    hidesLine false taken = true

/-- The first gap in which a line feed is hidden. -/
theorem HidesLine.exists_first {source : List Char} (h : HidesLine source) :
    ∃ ps depth taken rest, source = Piece.chars ps ++ (taken ++ rest) ∧
      Pieces 0 ps depth (taken ++ rest) ∧ LongestGap depth taken rest ∧
      hidesLine false taken = true ∧ ∀ p ∈ ps, hidesLine false p.gap = false := by
  obtain ⟨ps, depth, taken, rest, hsource, hpieces, hgap, hhides⟩ := h
  induction hn : ps.length using Nat.strongRecOn generalizing ps depth taken rest with
  | _ n ih =>
    by_cases hfirst : ∀ p ∈ ps, hidesLine false p.gap = false
    · exact ⟨ps, depth, taken, rest, hsource, hpieces, hgap, hhides, hfirst⟩
    · simp only [not_forall, Bool.not_eq_false] at hfirst
      obtain ⟨p, hp, hhides'⟩ := hfirst
      obtain ⟨qs, between, behind, hchars, hqs, hgap', hlength⟩ := hpieces.exists_gap hp
      exact ih qs.length (by omega) qs between p.gap behind (hsource.trans hchars) hqs hgap'
        hhides' rfl

/-- Where no line feed is hidden, none is hidden in the gaps of the pieces or behind them. -/
theorem Pieces.hidesLine_eq_false {source : List Char} {ps : List Piece} {depth : Nat}
    {taken rest : List Char} (hpieces : Pieces 0 ps depth (taken ++ rest))
    (hgap : LongestGap depth taken rest) (hsource : source = Piece.chars ps ++ (taken ++ rest))
    (hplain : ¬HidesLine source) :
    (∀ p ∈ ps, hidesLine false p.gap = false) ∧ hidesLine false taken = false := by
  constructor
  · intro p hp
    by_contra hhides
    obtain ⟨qs, between, behind, hchars, hqs, hgap', -⟩ := hpieces.exists_gap hp
    exact hplain ⟨qs, between, p.gap, behind, hsource.trans hchars, hqs, hgap',
      by simpa using hhides⟩
  · by_contra hhides
    exact hplain ⟨ps, depth, taken, rest, hsource, hpieces, hgap, by simpa using hhides⟩

/-- The first backslash of a gap that hides a line feed. -/
theorem Gap.exists_hidden {depth : Nat} {taken rest : List Char} (h : Gap depth taken rest)
    (hhides : hidesLine false taken = true) :
    ∃ before behind, taken = before ++ '\\' :: '\n' :: behind ∧
      Gap depth before ('\\' :: '\n' :: (behind ++ rest)) ∧ hidesLine false before = false := by
  induction h with
  | nil => cases hhides
  | @blank c cs rest hc _ ih =>
    have hc' : c = ' ' ∨ c = '\t' ∨ c = '\r' ∨ c = '\n' := by
      rcases hc with hc | hc | hc <;> simp [hc]
    rw [hidesLine_of_blank hc'] at hhides
    obtain ⟨before, behind, rfl, hgap, hplain⟩ := ih hhides
    refine ⟨c :: before, behind, rfl, .blank hc hgap, ?_⟩
    rw [hidesLine_of_blank hc', hplain]
  | @comment body cs rest hbody hend _ ih =>
    rw [hidesLine_comment hbody (head?_of_append hend)] at hhides
    obtain ⟨before, behind, rfl, hgap, hplain⟩ := ih hhides
    rw [List.append_assoc] at hend
    refine ⟨'#' :: (body ++ before), behind, by simp, .comment hbody hend hgap, ?_⟩
    rw [hidesLine_comment hbody (head?_of_append hend), hplain]
  | @continuation cs rest h => exact ⟨[], cs, rfl, .nil, rfl⟩
  | @newline cs rest hdepth _ ih =>
    rw [hidesLine_of_blank (by simp)] at hhides
    obtain ⟨before, behind, rfl, hgap, hplain⟩ := ih hhides
    refine ⟨'\n' :: before, behind, rfl, .newline hdepth hgap, ?_⟩
    rw [hidesLine_of_blank (by simp), hplain]

end Lexer

open Lexer Lexeme

/-- The script with a carriage return in front of every line feed. -/
def Script.withReturns (source : String) : String :=
  String.ofList (Lexer.withReturns source.toList)

/-- No text in quotes goes over the end of a line. -/
def Script.TextsOnOneLine (source : String) : Prop :=
  ∀ ps depth rest, source.toList = Piece.chars ps ++ rest → Pieces 0 ps depth rest →
    Lexer.TextsOnOneLine ps

/-- The script with carriage returns falls into its pieces up to any place before which no line feed
is hidden. -/
theorem Script.pieces_withReturns {source : String} {ps : List Piece} {depth : Nat}
    {taken rest : List Char} (hreturn : '\r' ∉ source.toList)
    (htexts : Script.TextsOnOneLine source)
    (hsource : source.toList = Piece.chars ps ++ (taken ++ rest))
    (hpieces : Pieces 0 ps depth (taken ++ rest))
    (hgaps : ∀ p ∈ ps, hidesLine false p.gap = false) :
    Piece.chars (ps.map Piece.withReturns) = Lexer.withReturns (Piece.chars ps) ∧
      (Script.withReturns source).toList = Piece.chars (ps.map Piece.withReturns) ++
        (Lexer.withReturns taken ++ returnAhead rest ++ behindReturn rest) ∧
      Pieces 0 (ps.map Piece.withReturns) depth
        (Lexer.withReturns taken ++ returnAhead rest ++ behindReturn rest) := by
  have hreturn' : '\r' ∉ Piece.chars ps ++ (taken ++ rest) := hsource ▸ hreturn
  obtain ⟨hchars, hpieces'⟩ :=
    hpieces.withReturns hreturn' (htexts ps depth _ hsource hpieces) hgaps
  rw [withReturns_append_eq] at hpieces'
  refine ⟨hchars, ?_, hpieces'⟩
  rw [Script.withReturns, String.toList_ofList, hsource, withReturns_append, hchars,
    withReturns_append_eq]

/-- **Without hidden line feeds, carriage returns make no difference.** -/
theorem Script.alike_ofText_withReturns {source : String} (hreturn : '\r' ∉ source.toList)
    (htexts : Script.TextsOnOneLine source) (hplain : ¬HidesLine source.toList) :
    Alike Position.SameLine Eq (Script.ofText source)
      (Script.ofText (Script.withReturns source)) := by
  obtain ⟨ps, depth, taken, rest, hsource, hpieces, hgap, hend⟩ := exists_pieces 0 source.toList
  obtain ⟨hgaps, htaken⟩ := hpieces.hidesLine_eq_false hgap hsource hplain
  obtain ⟨hchars, hsource', hpieces'⟩ :=
    Script.pieces_withReturns hreturn htexts hsource hpieces hgaps
  have hgap' := hgap.withReturns htaken
  rcases hend with rfl | ⟨cause, hoffends⟩
  · rw [List.append_nil] at hsource hpieces
    rw [behindReturn, List.append_nil] at hsource' hpieces'
    rw [Script.ofText, Script.ofText, TokenStream.ofText_of_pieces hsource hpieces hgap,
      TokenStream.ofText_of_pieces hsource' hpieces' hgap']
    have hstop : Position.SameLine (.behind source.toList)
        (.behind (Script.withReturns source).toList) := by
      simp [Position.sameLine_behind, Script.withReturns]
    refine (Parser.statements_alike hstop (Piece.tokens_withReturns ps rfl)).mono ?_
    rintro m m' ⟨more, rfl, rfl⟩
    rfl
  · obtain ⟨c, rest, rfl⟩ := hoffends.exists_cons
    have hoffends' := hoffends.withReturns (by simp_all)
    rw [Script.ofText, Script.ofText,
      TokenStream.ofText_of_offends hsource hpieces hgap hoffends,
      TokenStream.ofText_of_offends hsource' hpieces' hgap' hoffends']
    refine .error ?_
    simp [Position.sameLine_behind, hchars]

/-- **A backslash does not hide a line feed behind a carriage return.** -/
theorem Script.ofText_withReturns_of_hidesLine {source : String} (hreturn : '\r' ∉ source.toList)
    (htexts : Script.TextsOnOneLine source) (h : HidesLine source.toList) :
    ∃ p, Script.ofText (Script.withReturns source) = .error ⟨p, .unexpectedCharacter '\\'⟩ := by
  obtain ⟨ps, depth, taken, rest, hsource, hpieces, hgap, hhides, hplain⟩ := h.exists_first
  obtain ⟨before, behind, rfl, hbefore, hfirst⟩ := hgap.1.exists_hidden hhides
  rw [List.append_assoc, List.cons_append, List.cons_append] at hsource hpieces
  obtain ⟨-, hsource', hpieces'⟩ :=
    Script.pieces_withReturns hreturn htexts hsource hpieces hplain
  have hstops : StopsGap depth (behindReturn ('\\' :: '\n' :: (behind ++ rest))) := by
    rintro c cs heq
    obtain ⟨rfl, rfl⟩ := List.cons.inj heq
    exact ⟨by decide, by decide, fun h => absurd h (by decide), fun _ => head?_withReturns_ne _⟩
  have hgap' := longestGap_iff.mpr ⟨hbefore.withReturns hfirst, hstops⟩
  have hoffends : Offends (.unexpectedCharacter '\\')
      (behindReturn ('\\' :: '\n' :: (behind ++ rest))) :=
    .character (by unfold IsQuote; decide) (noLexeme_of_shape? (by decide) _)
  rw [Script.ofText, TokenStream.ofText_of_offends hsource' hpieces' hgap' hoffends]
  exact ⟨_, rfl⟩

/-- **Line endings.**  Take a script without carriage returns, in which no text goes over the end of
a line, and put a carriage return in front of every line feed.  If no backslash hides a line feed,
the script is the same, or is refused for the same reason on the same line.  Otherwise the script
with carriage returns is refused because of such a backslash. -/
theorem Script.ofText_withReturns {source : String} (hreturn : '\r' ∉ source.toList)
    (htexts : Script.TextsOnOneLine source) :
    (¬HidesLine source.toList →
      (∀ m, Script.ofText source = .ok m → Script.ofText (Script.withReturns source) = .ok m) ∧
      ∀ e, Script.ofText source = .error e →
        ∃ column, Script.ofText (Script.withReturns source) =
          .error ⟨⟨e.position.line, column⟩, e.cause⟩) ∧
    (HidesLine source.toList →
      ∃ p, Script.ofText (Script.withReturns source) =
        .error ⟨p, .unexpectedCharacter '\\'⟩) := by
  refine ⟨fun hplain => ?_, Script.ofText_withReturns_of_hidesLine hreturn htexts⟩
  have halike := Script.alike_ofText_withReturns hreturn htexts hplain
  generalize Script.ofText source = r at halike
  generalize Script.ofText (Script.withReturns source) = r' at halike
  cases halike with
  | ok h =>
    cases h
    exact ⟨fun _ hm => hm, fun _ he => nomatch he⟩
  | @error p q cause h =>
    refine ⟨fun _ hm => (nomatch hm), fun e he => ?_⟩
    cases he
    have hline : p.line = q.line := h
    exact ⟨q.column, by rw [hline]⟩

theorem Lexer.backslash_mem_of_hidesLine {inComment : Bool} {cs : List Char}
    (h : hidesLine inComment cs = true) : '\\' ∈ cs := by
  induction cs generalizing inComment with
  | nil => cases h
  | cons c cs ih =>
    rw [hidesLine] at h
    split at h
    · exact List.mem_cons_of_mem c (ih h)
    · rcases Bool.or_eq_true_iff.mp h with h | h
      · rw [beq_iff_eq.mp h]
        exact List.mem_cons_self
      · exact List.mem_cons_of_mem c (ih h)

theorem Script.not_hidesLine {source : String} (h : '\\' ∉ source.toList) :
    ¬HidesLine source.toList := by
  rintro ⟨ps, depth, taken, rest, hsource, -, -, hhides⟩
  have hmem := backslash_mem_of_hidesLine hhides
  exact h (hsource ▸ by simp [hmem])

theorem Script.textsOnOneLine {source : String} (h : '"' ∉ source.toList)
    (h' : '\'' ∉ source.toList) : Script.TextsOnOneLine source := by
  intro ps depth rest hsource _ p hp result hmeans
  have hmem : ∀ c ∈ p.lexeme, c ∈ source.toList := fun c hc => by
    have hchars : c ∈ Piece.chars ps :=
      List.mem_flatMap.mpr ⟨p, hp, List.mem_append_right p.gap hc⟩
    exact hsource ▸ List.mem_append_left rest hchars
  generalize p.lexeme = lexeme at hmeans hmem
  cases hmeans with
  | text hquote =>
    have hquote' := hmem _ List.mem_cons_self
    rcases hquote with rfl | rfl
    · exact absurd hquote' h
    · exact absurd hquote' h'

theorem Script.error_unfinishedLine :
    Script.ofText "f(1, # c\n2)\ny +" = .error ⟨⟨3, 4⟩, .expectedExpression none⟩ := by cbv

/-- What is missing at the end of three lines is missing on the third line, however lines end. -/
theorem Script.ofText_withReturns_unfinishedLine :
    ∃ column, Script.ofText (Script.withReturns "f(1, # c\n2)\ny +") =
      .error ⟨⟨3, column⟩, .expectedExpression none⟩ :=
  ((Script.ofText_withReturns (by decide) (Script.textsOnOneLine (by decide) (by decide))).1
    (Script.not_hidesLine (by decide))).2 _ Script.error_unfinishedLine

/-- **A line feed that a backslash hides comes to light.**  The script `x = 1 + 2` on two lines,
with a backslash at the end of the first, has no carriage return and no text in quotes; with a
carriage return in front of its line feed it is refused. -/
theorem Script.exists_refused_withReturns :
    '\r' ∉ "x = 1 + \\\n2".toList ∧ Script.TextsOnOneLine "x = 1 + \\\n2" ∧
      Script.ofText "x = 1 + \\\n2" =
        .ok [.assign "x" (.binary .add (.constant (.int 1)) (.constant (.int 2)))] ∧
      Script.ofText (Script.withReturns "x = 1 + \\\n2") =
        .error ⟨⟨1, 9⟩, .unexpectedCharacter '\\'⟩ := by
  refine ⟨by decide, Script.textsOnOneLine (by decide) (by decide), by cbv, ?_⟩
  have hreturns : Script.withReturns "x = 1 + \\\n2" = "x = 1 + \\\r\n2" := by decide
  rw [hreturns]
  cbv

end StackScript
