import StackScript.Script.SyntaxError
import StackScript.Text.Alphabetic
import StackScript.Text.Numeric

/-!
# Lexemes

The characters of a script fall into lexemes, each of which is one token, and gaps
between them.  This module says where the lexeme at the head of a list of characters ends
and what token it is; where gaps end, and the walk over a whole script, are in
`Script.Lexer`.

Every function that cuts returns the characters it took and the characters it left, and
the two together are what it was given.  What a lexeme means is computed from the
characters taken, never from the way they were scanned, so a lexeme determines its token.

* A *number* is a run of digits and underscores, in which one point may stand, and any
  number of exponent marks each followed by a digit, or by a sign and a digit.  It is a
  double as soon as it has a point or an exponent mark.  Underscores mean nothing.
* A *word* is a run of letters, digits and underscores that does not start with a digit.
* A *text* stands between two equal quotes on one line.  A backslash takes the next
  character with it, whatever that is.
* Everything else is one character, or two slashes.
-/

namespace StackScript

/-- A token's kind with the characters it was written with and the characters behind it. -/
structure Lexeme where
  /-- What the characters mean. -/
  kind : TokenKind
  /-- The characters of the lexeme. -/
  taken : List Char
  /-- What follows it. -/
  rest : List Char

namespace Lexeme

/-- Put characters in front of those that were taken. -/
def keep (cs : List Char) (cut : List Char × List Char) : List Char × List Char :=
  (cs ++ cut.1, cut.2)

@[simp] theorem keep_fst (cs : List Char) (cut : List Char × List Char) :
    (keep cs cut).1 = cs ++ cut.1 := rfl

@[simp] theorem keep_snd (cs : List Char) (cut : List Char × List Char) :
    (keep cs cut).2 = cut.2 := rfl

/-! ## Numbers -/

/-- Whether a character is a plus or minus sign. -/
def isSign (c : Char) : Bool := c == '+' || c == '-'

/-- Whether a character marks an exponent. -/
def isExponentMark (c : Char) : Bool := c == 'e' || c == 'E'

/-- Cut a number.  The flag says whether a point or an exponent mark has been passed, after
which a further point ends the number. -/
def cutNumber (fractional : Bool) : List Char → List Char × List Char
  | [] => ([], [])
  | c :: cs =>
      if c.isDigit || c == '_' then
        keep [c] (cutNumber fractional cs)
      else if c == '.' && !fractional then
        keep [c] (cutNumber true cs)
      else if isExponentMark c then
        match cs with
        | [] => ([], c :: cs)
        | [d] => if d.isDigit then keep [c] (cutNumber true [d]) else ([], c :: cs)
        | s :: d :: ds =>
            if isSign s then
              if d.isDigit then keep [c, s] (cutNumber true (d :: ds)) else ([], c :: cs)
            else if s.isDigit then
              keep [c] (cutNumber true (s :: d :: ds))
            else
              ([], c :: cs)
      else
        ([], c :: cs)

/-- The spelling of a number without underscores and with small exponent marks. -/
def plainNumber (taken : List Char) : List Char :=
  (taken.filter (· != '_')).map fun c => if c = 'E' then 'e' else c

/-- Whether a number has a point or an exponent mark. -/
def isFractional (taken : List Char) : Bool :=
  taken.any fun c => c == '.' || isExponentMark c

/-- The token of a number. -/
def numberKind (taken : List Char) : Except SyntaxError.Cause TokenKind :=
  let plain := plainNumber taken
  if isFractional taken then
    match FloatText.read? plain with
    | some x => .ok (.literal (.float x))
    | none => .error (.invalidFloat (String.ofList plain))
  else
    match Word.ofDecimal? plain with
    | some n => .ok (.literal (.int n))
    | none => .error (.integerTooLarge (String.ofList plain))

/-! ## Words -/

/-- Whether a character may start a word. -/
def startsWord (c : Char) : Bool :=
  c == '_' || Text.alphabetic.contains c.toNat

/-- Whether a character may stand inside a word. -/
def continuesWord (c : Char) : Bool :=
  startsWord c || Text.numeric.contains c.toNat

/-- The token of a word. -/
def wordKind (taken : List Char) : TokenKind :=
  let word := String.ofList taken
  (TokenKind.keyword? word).getD (.name word)

/-! ## Texts -/

/-- Cut the part of a quoted text behind the opening quote, with the closing quote.  There is
none if the line or the script ends first. -/
def cutQuoted (quote : Char) : List Char → Option (List Char × List Char)
  | [] => none
  | c :: cs =>
      if c = '\n' then
        none
      else if c = quote then
        some ([c], cs)
      else if c = '\\' then
        match cs with
        | [] => none
        | d :: ds => (cutQuoted quote ds).map (keep [c, d])
      else
        (cutQuoted quote cs).map (keep [c])

/-- The character that an escape stands for. -/
def escape? : Char → Option Char
  | 'n' => some '\n'
  | 't' => some '\t'
  | 'r' => some '\r'
  | '0' => some '\x00'
  | '\\' => some '\\'
  | '\'' => some '\''
  | '"' => some '"'
  | _ => none

/-- Resolve escapes; an unknown one is kept as it was written. -/
def unescape : List Char → List Char
  | [] => []
  | [c] => [c]
  | c :: d :: cs =>
      if c = '\\' then
        match escape? d with
        | some e => e :: unescape cs
        | none => c :: d :: unescape cs
      else
        c :: unescape (d :: cs)

/-- The token of a quoted text, from its characters behind the opening quote. -/
def textKind (taken : List Char) : TokenKind :=
  .literal (.str (String.ofList (unescape taken.dropLast)))

/-! ## Punctuation -/

/-- The token of a single character. -/
def symbol? : Char → Option TokenKind
  | '\n' => some .newline
  | ';' => some .newline
  | '+' => some (.operator .add)
  | '-' => some (.operator .sub)
  | '*' => some (.operator .mul)
  | '/' => some (.operator .div)
  | '%' => some (.operator .mod)
  | '(' => some .lparen
  | ')' => some .rparen
  | ',' => some .comma
  | '=' => some .equals
  | _ => none

/-- The lexeme of punctuation that starts with `c`. -/
def cutSymbol (c : Char) (cs : List Char) : Except SyntaxError.Cause Lexeme :=
  match c, cs with
  | '/', '/' :: rest => .ok ⟨.operator .floorDiv, ['/', '/'], rest⟩
  | c, cs =>
      match symbol? c with
      | some kind => .ok ⟨kind, [c], cs⟩
      | none => .error (.unexpectedCharacter c)

/-! ## All together -/

/-- Whether a number starts with `c`: with a digit, or with a point before a digit. -/
def startsNumber (c : Char) (cs : List Char) : Bool :=
  c.isDigit || (c == '.' && match cs with
    | d :: _ => d.isDigit
    | [] => false)

/-- The lexeme at the head of a script that starts with `c`. -/
def cut (c : Char) (cs : List Char) : Except SyntaxError.Cause Lexeme :=
  if startsNumber c cs then
    let (taken, rest) := cutNumber false (c :: cs)
    (numberKind taken).map fun kind => ⟨kind, taken, rest⟩
  else if startsWord c then
    let taken := (c :: cs).takeWhile continuesWord
    .ok ⟨wordKind taken, taken, (c :: cs).dropWhile continuesWord⟩
  else if c = '"' ∨ c = '\'' then
    match cutQuoted c cs with
    | some (taken, rest) => .ok ⟨textKind taken, c :: taken, rest⟩
    | none => .error .unterminatedText
  else
    cutSymbol c cs

/-! ## Nothing is lost -/

theorem cutNumber_append (fractional : Bool) (cs : List Char) :
    (cutNumber fractional cs).1 ++ (cutNumber fractional cs).2 = cs := by
  fun_induction cutNumber fractional cs <;> simp_all

theorem cutQuoted_append {quote : Char} {cs : List Char} {cut : List Char × List Char}
    (h : cutQuoted quote cs = some cut) : cut.1 ++ cut.2 = cs := by
  fun_induction cutQuoted quote cs generalizing cut with
  | case1 => simp at h
  | case2 => simp at h
  | case3 => cases h; rfl
  | case4 => simp at h
  | case5 _ _ d ds ih =>
    obtain ⟨p, hp, rfl⟩ := Option.map_eq_some_iff.1 h
    simp [ih hp]
  | case6 c cs _ _ _ ih =>
    obtain ⟨p, hp, rfl⟩ := Option.map_eq_some_iff.1 h
    simp [ih hp]

theorem cutSymbol_append {c : Char} {cs : List Char} {l : Lexeme} (h : cutSymbol c cs = .ok l) :
    l.taken ++ l.rest = c :: cs := by
  unfold cutSymbol at h
  split at h
  · cases h; rfl
  · split at h
    · cases h; rfl
    · cases h

/-- A lexeme and what follows it are the script that it was cut from. -/
theorem cut_append {c : Char} {cs : List Char} {l : Lexeme} (h : cut c cs = .ok l) :
    l.taken ++ l.rest = c :: cs := by
  unfold cut at h
  split at h
  · cases hk : numberKind (cutNumber false (c :: cs)).1 with
    | error e => simp [hk, Except.map] at h
    | ok kind =>
      simp only [hk, Except.map, Except.ok.injEq] at h
      subst h
      exact cutNumber_append false (c :: cs)
  · split at h
    · cases h
      exact List.takeWhile_append_dropWhile
    · split at h
      · split at h
        · next taken rest hq =>
          cases h
          simp [cutQuoted_append hq]
        · cases h
      · exact cutSymbol_append h

theorem cutNumber_ne_nil {c : Char} {cs : List Char} (h : startsNumber c cs = true) :
    (cutNumber false (c :: cs)).1 ≠ [] := by
  unfold startsNumber at h
  unfold cutNumber
  by_cases hd : c.isDigit = true
  · simp [hd]
  · have hc : c = '.' := by
      simp only [Bool.not_eq_true] at hd
      simp only [hd, Bool.false_or, Bool.and_eq_true, beq_iff_eq] at h
      exact h.1
    subst hc
    simp

/-- A lexeme has at least one character. -/
theorem cut_taken_ne_nil {c : Char} {cs : List Char} {l : Lexeme} (h : cut c cs = .ok l) :
    l.taken ≠ [] := by
  unfold cut at h
  split at h
  · next hn =>
    cases hk : numberKind (cutNumber false (c :: cs)).1 with
    | error e => simp [hk, Except.map] at h
    | ok kind =>
      simp only [hk, Except.map, Except.ok.injEq] at h
      subst h
      exact cutNumber_ne_nil hn
  · split at h
    · next hw =>
      cases h
      simp [continuesWord, hw]
    · split at h
      · split at h
        · cases h; simp
        · cases h
      · unfold cutSymbol at h
        split at h
        · cases h; simp
        · split at h <;> cases h
          simp

/-- What follows a lexeme is shorter than the script that it was cut from. -/
theorem cut_rest_length {c : Char} {cs : List Char} {l : Lexeme} (h : cut c cs = .ok l) :
    l.rest.length < (c :: cs).length := by
  have hpos := List.length_pos_iff.2 (cut_taken_ne_nil h)
  have hlen := congrArg List.length (cut_append h)
  rw [List.length_append] at hlen
  omega

end Lexeme

end StackScript
