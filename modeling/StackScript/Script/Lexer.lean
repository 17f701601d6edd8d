import StackScript.Script.Lexeme

/-!
# From characters to tokens

Between lexemes lie gaps: blanks, comments, line feeds that a backslash hides, and line
feeds inside parentheses.  `gap` takes the longest gap at the head of a script, and `scan`
alternates gaps and lexemes until nothing is left or a lexeme cannot be read.

The only thing that is remembered between lexemes is how many parentheses are open, and
that only decides whether a line feed belongs to a gap.  Closing a parenthesis that was
never opened is not an error here; the count just stays at zero.
-/

namespace StackScript

namespace Lexer

/-- Whether a character is always part of a gap. -/
def isBlank (c : Char) : Bool :=
  c == ' ' || c == '\t' || c == '\r'

/-- Cut the gap at the head of a script.  A comment runs up to the line feed, which belongs to
the gap only inside parentheses. -/
def gap (depth : Nat) (inComment : Bool) : List Char → List Char × List Char
  | [] => ([], [])
  | c :: cs =>
      if c = '\n' then
        if 0 < depth then Lexeme.keep [c] (gap depth false cs) else ([], c :: cs)
      else if inComment then
        Lexeme.keep [c] (gap depth true cs)
      else if isBlank c then
        Lexeme.keep [c] (gap depth false cs)
      else if c = '#' then
        Lexeme.keep [c] (gap depth true cs)
      else if c = '\\' then
        match cs with
        | d :: ds =>
            if d = '\n' then Lexeme.keep [c, d] (gap depth false ds) else ([], c :: cs)
        | [] => ([], c :: cs)
      else
        ([], c :: cs)

/-- A gap and what follows it are the script that it was cut from. -/
theorem gap_append (depth : Nat) (inComment : Bool) (cs : List Char) :
    (gap depth inComment cs).1 ++ (gap depth inComment cs).2 = cs := by
  fun_induction gap depth inComment cs <;> simp_all

theorem gap_rest_length (depth : Nat) (inComment : Bool) (cs : List Char) :
    (gap depth inComment cs).2.length ≤ cs.length := by
  have h := congrArg List.length (gap_append depth inComment cs)
  rw [List.length_append] at h
  omega

/-- The number of open parentheses behind a token. -/
def depthAfter (depth : Nat) : TokenKind → Nat
  | .lparen => depth + 1
  | .rparen => depth - 1
  | _ => depth

/-- Read the tokens of a script from some place on; `seen` holds those before it, last one
first. -/
def scan (depth : Nat) (here : Position) (seen : List Token) (cs : List Char) :
    Except SyntaxError TokenStream :=
  let place := here.after (gap depth false cs).1
  match _hcut : (gap depth false cs).2 with
  | [] => .ok ⟨seen.reverse, place⟩
  | c :: rest =>
      match _hlex : Lexeme.cut c rest with
      | .error cause => .error ⟨place, cause⟩
      | .ok l =>
          scan (depthAfter depth l.kind) (place.after l.taken) (⟨l.kind, place⟩ :: seen) l.rest
termination_by cs.length
decreasing_by
  have h₁ := gap_rest_length depth false cs
  have h₂ := Lexeme.cut_rest_length _hlex
  rw [_hcut] at h₁
  omega

end Lexer

/-- The tokens of a script. -/
def TokenStream.ofText (source : String) : Except SyntaxError TokenStream :=
  Lexer.scan 0 .start [] source.toList

end StackScript
