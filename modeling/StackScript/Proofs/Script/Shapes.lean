import StackScript.Proofs.Script.Spelling

/-!
# What a lexeme is

A lexeme has one of four shapes: it is a number, a word, a text in quotes, or a symbol of one or
two characters.  `Means` says which characters make a lexeme of each shape and what it means,
without regard to how lexemes are found.  A number may have the right shape and mean nothing, if
its value is out of reach.

Which shape a lexeme has is told by its first character (`Means.shape?_eq`), and that is why so
little has to be known about how the shapes differ further on.  Lexemes are cut off as long as they
can be (`Longest`): a number in front of a letter, a slash in front of a slash.  The head of a
script is then described in one way only (`Answers.unique`), and since cutting describes it rightly
(`answers_cut`), whoever knows the longest lexeme knows what is cut off (`cut_of_longest`,
`cut_of_offends`).
-/

namespace StackScript

namespace Lexeme

/-- The shapes of lexemes. -/
inductive Shape where
  | number
  | word
  | text
  | symbol
  deriving DecidableEq

/-- What a number may consist of from some character on; the flag says whether a point or an
exponent mark stands before. -/
inductive NumberForm : Bool → List Char → Prop
  | nil {fractional : Bool} : NumberForm fractional []
  | digit {fractional : Bool} {c : Char} {cs : List Char} (hc : c.isDigit = true ∨ c = '_')
      (h : NumberForm fractional cs) : NumberForm fractional (c :: cs)
  | point {cs : List Char} (h : NumberForm true cs) : NumberForm false ('.' :: cs)
  | exponent {fractional : Bool} {e d : Char} {cs : List Char} (he : e = 'e' ∨ e = 'E')
      (hd : d.isDigit = true) (h : NumberForm true (d :: cs)) :
      NumberForm fractional (e :: d :: cs)
  | signedExponent {fractional : Bool} {e s d : Char} {cs : List Char} (he : e = 'e' ∨ e = 'E')
      (hs : s = '+' ∨ s = '-') (hd : d.isDigit = true) (h : NumberForm true (d :: cs)) :
      NumberForm fractional (e :: s :: d :: cs)

/-- What may stand between two quotes: a backslash takes the next character with it, and any other
line feed or quote is out of place. -/
inductive TextBody (quote : Char) : List Char → Prop
  | nil : TextBody quote []
  | plain {c : Char} {cs : List Char} (hline : c ≠ '\n') (hquote : c ≠ quote) (hslash : c ≠ '\\')
      (h : TextBody quote cs) : TextBody quote (c :: cs)
  | escape {d : Char} {cs : List Char} (h : TextBody quote cs) : TextBody quote ('\\' :: d :: cs)

/-- Whether a character is a quote. -/
def IsQuote (c : Char) : Prop := c = '"' ∨ c = '\''

/-- The lexemes of each shape and what they mean.  Only a number can have the right shape and
still mean nothing. -/
inductive Means : Shape → List Char → Except SyntaxError.Cause TokenKind → Prop
  | number {c : Char} {cs : List Char} (hc : startsNumber c cs = true)
      (h : NumberForm false (c :: cs)) : Means .number (c :: cs) (numberKind (c :: cs))
  | word {c : Char} {cs : List Char} (hc : startsWord c = true)
      (h : ∀ d ∈ cs, continuesWord d = true) : Means .word (c :: cs) (.ok (wordKind (c :: cs)))
  | text {quote : Char} {body : List Char} (hquote : IsQuote quote) (h : TextBody quote body) :
      Means .text (quote :: (body ++ [quote]))
        (.ok (.literal (.str (String.ofList (unescape body)))))
  | symbol {c : Char} {kind : TokenKind} (h : symbol? c = some kind) :
      Means .symbol [c] (.ok kind)
  | slashes : Means .symbol ['/', '/'] (.ok (.operator .floorDiv))

/-- The lexeme does not go on behind its end: no longer one starts at the same place. -/
def Longest (taken rest : List Char) : Prop :=
  ∀ more behind shape result, rest = more ++ behind → Means shape (taken ++ more) result → more = []

/-- No lexeme stands at the head of these characters. -/
def NoLexeme (cs : List Char) : Prop :=
  ∀ taken rest shape result, cs = taken ++ rest → ¬Means shape taken result

/-- Why no token can be read at the head of some characters: the number there has no value, or a
quote is not closed on its line, or no lexeme starts with this character. -/
inductive Offends : SyntaxError.Cause → List Char → Prop
  | number {cause : SyntaxError.Cause} {taken rest : List Char}
      (hmeans : Means .number taken (.error cause)) (hlongest : Longest taken rest) :
      Offends cause (taken ++ rest)
  | text {quote : Char} {cs : List Char} (hquote : IsQuote quote)
      (hnone : NoLexeme (quote :: cs)) : Offends .unterminatedText (quote :: cs)
  | character {c : Char} {cs : List Char} (hquote : ¬IsQuote c) (hnone : NoLexeme (c :: cs)) :
      Offends (.unexpectedCharacter c) (c :: cs)

/-! ## The first character tells the shape -/

/-- The shape of the lexemes that start with a character. -/
def shape? (c : Char) : Option Shape :=
  if c.isDigit || c == '.' then some .number
  else if startsWord c then some .word
  else if c == '"' || c == '\'' then some .text
  else if (symbol? c).isSome then some .symbol
  else none

theorem shape?_of_startsNumber {c : Char} {cs : List Char} (h : startsNumber c cs = true) :
    shape? c = some .number := by
  have hc : (c.isDigit || c == '.') = true := by
    rw [startsNumber.eq_def, Bool.or_eq_true, Bool.and_eq_true] at h
    rw [Bool.or_eq_true]
    exact h.imp_right And.left
  rw [shape?, if_pos hc]

theorem shape?_of_startsWord {c : Char} (h : startsWord c = true) : shape? c = some .word := by
  have hpoint : c ≠ '.' := Lexer.ne_of_test h (by decide)
  rw [shape?, if_neg (by simp [Lexer.isDigit_of_startsWord h, hpoint]), if_pos h]

theorem shape?_of_isQuote {c : Char} (h : IsQuote c) : shape? c = some .text := by
  rcases h with rfl | rfl <;> decide

theorem shape?_of_symbol? {c : Char} {kind : TokenKind} (h : symbol? c = some kind) :
    shape? c = some .symbol := by
  unfold symbol? at h
  split at h <;> first | decide | cases h

/-- **A lexeme starts with a character of its shape.** -/
theorem Means.shape?_eq {shape : Shape} {c : Char} {cs : List Char}
    {result : Except SyntaxError.Cause TokenKind} (h : Means shape (c :: cs) result) :
    shape? c = some shape := by
  cases h with
  | number hc _ => exact shape?_of_startsNumber hc
  | word hc _ => exact shape?_of_startsWord hc
  | text hquote _ => exact shape?_of_isQuote hquote
  | symbol h => exact shape?_of_symbol? h
  | slashes => decide

/-- No lexeme starts with a character that has no shape. -/
theorem noLexeme_of_shape? {c : Char} (h : shape? c = none) (cs : List Char) :
    NoLexeme (c :: cs) := by
  intro taken rest shape result heq hmeans
  cases taken with
  | nil => cases hmeans
  | cons d taken =>
    obtain ⟨rfl, -⟩ := List.cons.inj heq
    cases h.symm.trans hmeans.shape?_eq

theorem Means.ne_nil {shape : Shape} {taken : List Char}
    {result : Except SyntaxError.Cause TokenKind} (h : Means shape taken result) : taken ≠ [] := by
  cases h <;> exact List.cons_ne_nil _ _

/-- Lexemes that start with the same character have the same shape. -/
theorem Means.shape_eq {shape shape' : Shape} {taken more : List Char}
    {result result' : Except SyntaxError.Cause TokenKind} (h : Means shape taken result)
    (h' : Means shape' (taken ++ more) result') : shape' = shape := by
  obtain ⟨c, cs, rfl⟩ := List.exists_cons_of_ne_nil h.ne_nil
  exact Option.some.inj (h'.shape?_eq.symm.trans h.shape?_eq)

/-! ## Numbers -/

theorem cutNumber_mark_of_digit {fractional : Bool} {e d : Char} {cs : List Char}
    (he : e = 'e' ∨ e = 'E') (hd : d.isDigit = true) :
    cutNumber fractional (e :: d :: cs) = keep [e] (cutNumber true (d :: cs)) := by
  have hsign := Lexer.isSign_eq_false_of_isDigit hd
  rw [cutNumber.eq_def]
  rcases he with rfl | rfl <;> cases cs <;> simp [isExponentMark, hsign, hd]

theorem cutNumber_mark_of_sign {fractional : Bool} {e s d : Char} {cs : List Char}
    (he : e = 'e' ∨ e = 'E') (hs : s = '+' ∨ s = '-') (hd : d.isDigit = true) :
    cutNumber fractional (e :: s :: d :: cs) = keep [e, s] (cutNumber true (d :: cs)) := by
  rw [cutNumber.eq_def]
  rcases he with rfl | rfl <;> rcases hs with rfl | rfl <;> simp [isExponentMark, isSign, hd]

theorem cutNumber_digit {fractional : Bool} {c : Char} {cs : List Char}
    (hc : c.isDigit = true ∨ c = '_') :
    cutNumber fractional (c :: cs) = keep [c] (cutNumber fractional cs) := by
  rw [cutNumber.eq_def]
  simp [hc]

/-- What is cut as a number has the form of one. -/
theorem numberForm_cutNumber (fractional : Bool) (cs : List Char) :
    NumberForm fractional (cutNumber fractional cs).1 := by
  have hmark : ∀ c, isExponentMark c = true → c = 'e' ∨ c = 'E' := fun c h => by
    simpa [isExponentMark] using h
  fun_induction cutNumber fractional cs with
  | case1 => exact .nil
  | case2 _ c cs hc ih => exact .digit (by simpa using hc) ih
  | case3 fractional c cs _ hpoint ih =>
    simp only [Bool.and_eq_true, beq_iff_eq, Bool.not_eq_true'] at hpoint
    obtain ⟨rfl, rfl⟩ := hpoint
    exact .point ih
  | case4 => exact .nil
  | case5 _ c _ _ he d hd ih =>
    rw [cutNumber_digit (.inl hd)] at ih ⊢
    exact .exponent (hmark c he) hd ih
  | case6 => exact .nil
  | case7 _ c _ _ he s d ds hs hd ih =>
    rw [cutNumber_digit (.inl hd)] at ih ⊢
    exact .signedExponent (hmark c he) (by simpa [isSign] using hs) hd ih
  | case8 => exact .nil
  | case9 _ c _ _ he s d ds _ hs ih =>
    rw [cutNumber_digit (.inl hs)] at ih ⊢
    exact .exponent (hmark c he) hs ih
  | case10 => exact .nil
  | case11 => exact .nil

/-- Whatever has the form of a number is cut off, and perhaps more. -/
theorem NumberForm.cutNumber_append {fractional : Bool} {taken : List Char}
    (h : NumberForm fractional taken) (rest : List Char) :
    ∃ more behind, cutNumber fractional (taken ++ rest) = (taken ++ more, behind) := by
  induction h with
  | nil => exact ⟨_, _, rfl⟩
  | digit hc _ ih =>
    obtain ⟨more, behind, hcut⟩ := ih
    exact ⟨more, behind, by rw [List.cons_append, cutNumber_digit hc, hcut]; rfl⟩
  | point _ ih =>
    obtain ⟨more, behind, hcut⟩ := ih
    exact ⟨more, behind, by rw [List.cons_append, Lexer.cutNumber_point, hcut]; rfl⟩
  | exponent he hd _ ih =>
    obtain ⟨more, behind, hcut⟩ := ih
    refine ⟨more, behind, ?_⟩
    rw [List.cons_append] at hcut
    rw [List.cons_append, List.cons_append, cutNumber_mark_of_digit he hd, hcut]
    rfl
  | signedExponent he hs hd _ ih =>
    obtain ⟨more, behind, hcut⟩ := ih
    refine ⟨more, behind, ?_⟩
    rw [List.cons_append] at hcut
    rw [List.cons_append, List.cons_append, List.cons_append, cutNumber_mark_of_sign he hs hd, hcut]
    rfl

/-- A number starts like one also when it is looked at alone. -/
theorem exists_cutNumber_cons {c : Char} {cs : List Char} (h : startsNumber c cs = true) :
    ∃ more behind, cutNumber false (c :: cs) = (c :: more, behind) ∧
      startsNumber c more = true := by
  by_cases hdigit : c.isDigit = true
  · rw [cutNumber_digit (.inl hdigit)]
    exact ⟨_, _, rfl, by simp [startsNumber, hdigit]⟩
  · rcases cs with _ | ⟨d, cs⟩
    · simp [startsNumber, hdigit] at h
    · have hpoint : c = '.' ∧ d.isDigit = true := by simpa [startsNumber, hdigit] using h
      obtain ⟨rfl, hd⟩ := hpoint
      rw [Lexer.cutNumber_point, cutNumber_digit (.inl hd)]
      exact ⟨d :: _, _, rfl, h⟩

/-- What is cut off as a number is the longest lexeme there. -/
theorem means_of_cutNumber {c : Char} {cs taken rest : List Char} (hc : startsNumber c cs = true)
    (hcut : cutNumber false (c :: cs) = (taken, rest)) :
    Means .number taken (numberKind taken) ∧ Longest taken rest := by
  have hform : NumberForm false taken := by
    have h := numberForm_cutNumber false (c :: cs)
    rwa [hcut] at h
  have hmeans : Means .number taken (numberKind taken) := by
    obtain ⟨more, behind, hcons, hstarts⟩ := exists_cutNumber_cons hc
    cases hcut.symm.trans hcons
    exact .number hstarts hform
  refine ⟨hmeans, ?_⟩
  rintro more behind shape result rfl hmore
  cases hmeans.shape_eq hmore
  have hform' : NumberForm false (taken ++ more) := by
    generalize taken ++ more = longer at hmore
    cases hmore with
    | number _ h => exact h
  obtain ⟨further, behind', hcut'⟩ := hform'.cutNumber_append behind
  have happend := cutNumber_append false (c :: cs)
  rw [hcut] at happend
  rw [List.append_assoc, happend, hcut, List.append_assoc] at hcut'
  have hnil : more ++ further = [] := by simpa using congrArg Prod.fst hcut'
  exact (List.append_eq_nil_iff.mp hnil).1

/-! ## Words -/

/-- A word is the longest lexeme where it starts. -/
theorem means_word {c : Char} {cs : List Char} (hc : startsWord c = true) :
    Means .word ((c :: cs).takeWhile continuesWord)
        (.ok (wordKind ((c :: cs).takeWhile continuesWord))) ∧
      Longest ((c :: cs).takeWhile continuesWord) ((c :: cs).dropWhile continuesWord) := by
  have htake : (c :: cs).takeWhile continuesWord = c :: cs.takeWhile continuesWord :=
    List.takeWhile_cons_of_pos (by rw [continuesWord, hc, Bool.true_or])
  have hmeans : Means .word (c :: cs.takeWhile continuesWord)
      (.ok (wordKind (c :: cs.takeWhile continuesWord))) :=
    .word hc fun d hd => List.all_eq_true.mp List.all_takeWhile d hd
  rw [htake]
  refine ⟨hmeans, ?_⟩
  intro more behind shape result hrest hmore
  cases hmeans.shape_eq hmore
  cases more with
  | nil => rfl
  | cons d more =>
    have hd : continuesWord d = true := by
      cases hmore with
      | word _ h => exact h d (by simp)
    have hnot := List.head?_dropWhile_not continuesWord (c :: cs)
    rw [hrest] at hnot
    simp [hd] at hnot

/-! ## Texts -/

/-- What stands between the quotes is read to the closing one and no further. -/
theorem TextBody.cutQuoted {quote : Char} {body : List Char} (hquote : IsQuote quote)
    (h : TextBody quote body) (rest : List Char) :
    cutQuoted quote (body ++ quote :: rest) = some (body ++ [quote], rest) := by
  induction h with
  | nil =>
    have hline : quote ≠ '\n' := by rcases hquote with rfl | rfl <;> decide
    rw [List.nil_append, cutQuoted.eq_def]
    simp [hline]
  | plain hline hother hslash _ ih =>
    rw [List.cons_append, cutQuoted.eq_def]
    simp [hline, hother, hslash, ih, keep]
  | escape _ ih =>
    have hother : '\\' ≠ quote := by rcases hquote with rfl | rfl <;> decide
    rw [List.cons_append, List.cons_append, cutQuoted.eq_def]
    simp [hother, ih, keep]

/-- What is cut off as a text ends with its quote. -/
theorem exists_textBody {quote : Char} {cs taken rest : List Char}
    (h : cutQuoted quote cs = some (taken, rest)) :
    ∃ body, taken = body ++ [quote] ∧ TextBody quote body := by
  fun_induction cutQuoted quote cs generalizing taken with
  | case1 => cases h
  | case2 => cases h
  | case3 cs hline =>
    cases h
    exact ⟨[], rfl, .nil⟩
  | case4 => cases h
  | case5 d ds hline hquote ih =>
    obtain ⟨⟨taken, _⟩, hcut, heq⟩ := Option.map_eq_some_iff.mp h
    cases heq
    obtain ⟨body, rfl, hbody⟩ := ih hcut
    exact ⟨'\\' :: d :: body, rfl, .escape hbody⟩
  | case6 c cs hline hquote hslash ih =>
    obtain ⟨⟨taken, _⟩, hcut, heq⟩ := Option.map_eq_some_iff.mp h
    cases heq
    obtain ⟨body, rfl, hbody⟩ := ih hcut
    exact ⟨c :: body, rfl, .plain hline hquote hslash hbody⟩

/-- A text starts no other text. -/
theorem means_of_cutQuoted {quote : Char} {cs taken rest : List Char} (hquote : IsQuote quote)
    (hcut : cutQuoted quote cs = some (taken, rest)) :
    Means .text (quote :: taken) (.ok (textKind taken)) ∧ Longest (quote :: taken) rest := by
  obtain ⟨body, rfl, hbody⟩ := exists_textBody hcut
  have hmeans : Means .text (quote :: (body ++ [quote])) (.ok (textKind (body ++ [quote]))) := by
    rw [textKind, List.dropLast_concat]
    exact .text hquote hbody
  refine ⟨hmeans, ?_⟩
  rintro more behind shape result rfl hmore
  cases hmeans.shape_eq hmore
  have hcs := cutQuoted_append hcut
  generalize hlonger : quote :: (body ++ [quote]) ++ more = longer at hmore
  cases hmore with
  | @text quote' body' _ hbody' =>
    rw [List.cons_append] at hlonger
    obtain ⟨rfl, hlonger⟩ := List.cons.inj hlonger
    have hcut' := hbody'.cutQuoted hquote behind
    rw [← List.singleton_append, ← List.append_assoc, ← hlonger, List.append_assoc, hcs, hcut]
      at hcut'
    simpa using congrArg Prod.fst (Option.some.inj hcut')

/-! ## Symbols -/

/-- A symbol is the longest lexeme where it starts; one slash is not, if another follows. -/
theorem means_of_cutSymbol {c : Char} {cs : List Char} {l : Lexeme} (h : cutSymbol c cs = .ok l) :
    Means .symbol l.taken (.ok l.kind) ∧ Longest l.taken l.rest := by
  have hlongest : ∀ {taken rest : List Char} {k : TokenKind}, Means .symbol taken (.ok k) →
      (taken = ['/'] → ∀ behind, rest ≠ '/' :: behind) → Longest taken rest := by
    rintro taken rest k hmeans hslash more behind shape result rfl hmore
    cases hmeans.shape_eq hmore
    obtain ⟨c, cs, rfl⟩ := List.exists_cons_of_ne_nil hmeans.ne_nil
    generalize hlonger : c :: cs ++ more = longer at hmore
    cases hmore with
    | symbol =>
      rw [List.cons_append, List.cons.injEq, List.append_eq_nil_iff] at hlonger
      exact hlonger.2.2
    | slashes =>
      rw [List.cons_append, List.cons.injEq] at hlonger
      obtain ⟨rfl, hlonger⟩ := hlonger
      cases cs with
      | nil =>
        rw [List.nil_append] at hlonger
        exact absurd (by rw [hlonger]; rfl) (hslash rfl behind)
      | cons d cs =>
        rw [List.cons_append, List.cons.injEq, List.append_eq_nil_iff] at hlonger
        exact hlonger.2.2
  unfold cutSymbol at h
  split at h
  · cases h
    exact ⟨.slashes, hlongest .slashes (by simp)⟩
  · next hslashes =>
    split at h
    · next kind hkind =>
      cases h
      refine ⟨.symbol hkind, hlongest (.symbol hkind) ?_⟩
      rintro heq behind rfl
      cases heq
      exact hslashes behind rfl rfl
    · cases h

/-! ## Cutting lexemes -/

/-- What should be said of the head of some characters: that the longest lexeme there is this one,
or why there is no token. -/
def Answers (cs : List Char) : Except SyntaxError.Cause Lexeme → Prop
  | .ok l => l.taken ++ l.rest = cs ∧ (∃ shape, Means shape l.taken (.ok l.kind)) ∧
      Longest l.taken l.rest
  | .error cause => Offends cause cs

theorem answers_number {c : Char} {cs : List Char} (hc : startsNumber c cs = true) :
    Answers (c :: cs) (cut c cs) := by
  obtain ⟨hmeans, hlongest⟩ := means_of_cutNumber hc rfl
  have happend := cutNumber_append false (c :: cs)
  rw [cut, if_pos hc]
  show Answers _ ((numberKind (cutNumber false (c :: cs)).1).map _)
  cases hkind : numberKind (cutNumber false (c :: cs)).1 with
  | ok kind =>
    rw [hkind] at hmeans
    exact ⟨happend, ⟨.number, hmeans⟩, hlongest⟩
  | error cause =>
    rw [hkind] at hmeans
    rw [← happend]
    exact .number hmeans hlongest

theorem answers_text {c : Char} {cs : List Char} (hc : IsQuote c) :
    Answers (c :: cs) (match cutQuoted c cs with
      | some (taken, rest) => .ok ⟨textKind taken, c :: taken, rest⟩
      | none => .error .unterminatedText) := by
  cases hcut : cutQuoted c cs with
  | some found =>
    obtain ⟨taken, rest⟩ := found
    obtain ⟨hmeans, hlongest⟩ := means_of_cutQuoted hc hcut
    exact ⟨congrArg (c :: ·) (cutQuoted_append hcut), ⟨.text, hmeans⟩, hlongest⟩
  | none =>
    refine Offends.text hc fun taken rest shape result heq hmeans => ?_
    obtain ⟨d, ds, rfl⟩ := List.exists_cons_of_ne_nil hmeans.ne_nil
    rw [List.cons_append, List.cons.injEq] at heq
    obtain ⟨rfl, rfl⟩ := heq
    cases Option.some.inj (hmeans.shape?_eq.symm.trans (shape?_of_isQuote hc))
    cases hmeans with
    | text _ hbody =>
      rw [List.append_assoc, List.singleton_append, hbody.cutQuoted hc] at hcut
      cases hcut

theorem startsNumber_append {c : Char} {cs : List Char} (h : startsNumber c cs = true)
    (rest : List Char) : startsNumber c (cs ++ rest) = true := by
  cases cs with
  | nil =>
    have hdigit : c.isDigit = true := by simpa [startsNumber] using h
    simp [startsNumber, hdigit]
  | cons d cs => exact h

theorem answers_symbol {c : Char} {cs : List Char} (hnumber : ¬startsNumber c cs = true)
    (hword : ¬startsWord c = true) (hquote : ¬IsQuote c) :
    Answers (c :: cs) (cutSymbol c cs) := by
  cases hcut : cutSymbol c cs with
  | ok l =>
    obtain ⟨hmeans, hlongest⟩ := means_of_cutSymbol hcut
    exact ⟨cutSymbol_append hcut, ⟨.symbol, hmeans⟩, hlongest⟩
  | error cause =>
    have hnone : symbol? c = none ∧ cause = .unexpectedCharacter c := by
      unfold cutSymbol at hcut
      split at hcut
      · cases hcut
      · split at hcut
        · cases hcut
        · next hsymbol =>
          cases hcut
          exact ⟨hsymbol, rfl⟩
    obtain ⟨hsymbol, rfl⟩ := hnone
    refine Offends.character hquote fun taken rest shape result heq hmeans => ?_
    cases hmeans with
    | number hc _ =>
      cases heq
      exact hnumber (startsNumber_append hc rest)
    | word hc _ =>
      cases heq
      exact hword hc
    | text hc _ =>
      cases heq
      exact hquote hc
    | symbol h =>
      cases heq
      rw [hsymbol] at h
      cases h
    | slashes =>
      cases heq
      cases hsymbol

/-- **Cutting gives the right answer.** -/
theorem answers_cut (c : Char) (cs : List Char) : Answers (c :: cs) (cut c cs) := by
  by_cases hnumber : startsNumber c cs = true
  · exact answers_number hnumber
  · by_cases hword : startsWord c = true
    · rw [cut, if_neg hnumber, if_pos hword]
      obtain ⟨hmeans, hlongest⟩ := @means_word c cs hword
      exact ⟨List.takeWhile_append_dropWhile, ⟨.word, hmeans⟩, hlongest⟩
    · rw [cut, if_neg hnumber, if_neg hword]
      by_cases hquote : c = '"' ∨ c = '\''
      · rw [if_pos hquote]
        exact answers_text hquote
      · rw [if_neg hquote]
        exact answers_symbol hnumber hword hquote

/-! ## There is one right answer -/

/-- A lexeme determines what it means. -/
theorem Means.unique {shape shape' : Shape} {taken : List Char}
    {result result' : Except SyntaxError.Cause TokenKind} (h : Means shape taken result)
    (h' : Means shape' taken result') : result = result' := by
  have hall : Means shape' (taken ++ []) result' := by rwa [List.append_nil]
  cases h.shape_eq hall
  cases h with
  | number =>
    cases h' with
    | number => rfl
  | word =>
    cases h' with
    | word => rfl
  | @text quote body =>
    generalize htaken : quote :: (body ++ [quote]) = taken at h'
    cases h' with
    | text =>
      obtain ⟨rfl, hbody⟩ := List.cons.inj htaken
      rw [(List.append_inj' hbody rfl).1]
  | symbol h =>
    cases h' with
    | symbol h' => rw [Option.some.inj (h.symm.trans h')]
  | slashes =>
    cases h' with
    | slashes => rfl

/-- There is one longest lexeme. -/
theorem Longest.unique {shape shape' : Shape} {taken taken' rest rest' : List Char}
    {result result' : Except SyntaxError.Cause TokenKind} (hlongest : Longest taken rest)
    (hlongest' : Longest taken' rest') (hmeans : Means shape taken result)
    (hmeans' : Means shape' taken' result') (h : taken ++ rest = taken' ++ rest') :
    taken = taken' := by
  rcases List.append_eq_append_iff.mp h with ⟨more, rfl, hrest⟩ | ⟨more, rfl, hrest⟩
  · rw [hlongest more rest' _ _ hrest hmeans', List.append_nil]
  · rw [hlongest' more rest _ _ hrest hmeans, List.append_nil]

theorem Offends.exists_cons {cause : SyntaxError.Cause} {cs : List Char}
    (h : Offends cause cs) : ∃ c rest, cs = c :: rest := by
  cases h with
  | number hmeans =>
    obtain ⟨c, cs, rfl⟩ := List.exists_cons_of_ne_nil hmeans.ne_nil
    exact ⟨c, _, rfl⟩
  | text => exact ⟨_, _, rfl⟩
  | character => exact ⟨_, _, rfl⟩

theorem Offends.not_means {cause : SyntaxError.Cause} {cs taken rest : List Char} {shape : Shape}
    {kind : TokenKind} (h : Offends cause cs) (hcs : taken ++ rest = cs)
    (hmeans : Means shape taken (.ok kind)) (hlongest : Longest taken rest) : False := by
  cases h with
  | number hmeans' hlongest' =>
    cases hlongest.unique hlongest' hmeans hmeans' hcs
    cases hmeans.unique hmeans'
  | text _ hnone => exact hnone taken rest _ _ hcs.symm hmeans
  | character _ hnone => exact hnone taken rest _ _ hcs.symm hmeans

theorem Offends.unique {cause cause' : SyntaxError.Cause} {cs : List Char} (h : Offends cause cs)
    (h' : Offends cause' cs) : cause = cause' := by
  cases h with
  | @number _ taken rest hmeans hlongest =>
    generalize hcs : taken ++ rest = cs at h'
    cases h' with
    | number hmeans' hlongest' =>
      cases hlongest.unique hlongest' hmeans hmeans' hcs
      exact Except.error.inj (hmeans.unique hmeans')
    | text _ hnone => exact absurd hmeans (hnone taken rest _ _ hcs.symm)
    | character _ hnone => exact absurd hmeans (hnone taken rest _ _ hcs.symm)
  | @text quote cs hquote hnone =>
    generalize hcs : quote :: cs = all at h' hnone
    cases h' with
    | number hmeans => exact absurd hmeans (hnone _ _ _ _ rfl)
    | text => rfl
    | character hother =>
      cases hcs
      exact absurd hquote hother
  | @character c cs hother hnone =>
    generalize hcs : c :: cs = all at h' hnone
    cases h' with
    | number hmeans => exact absurd hmeans (hnone _ _ _ _ rfl)
    | text hquote =>
      cases hcs
      exact absurd hquote hother
    | character =>
      cases hcs
      rfl

theorem Answers.unique {cs : List Char} {r r' : Except SyntaxError.Cause Lexeme}
    (h : Answers cs r) (h' : Answers cs r') : r = r' := by
  match r, r', h, h' with
  | .ok l, .ok l', ⟨hcs, ⟨_, hmeans⟩, hlongest⟩, ⟨hcs', ⟨_, hmeans'⟩, hlongest'⟩ =>
    obtain ⟨kind, taken, rest⟩ := l
    obtain ⟨kind', taken', rest'⟩ := l'
    have hsame := hcs.trans hcs'.symm
    obtain rfl : taken = taken' := hlongest.unique hlongest' hmeans hmeans' hsame
    obtain rfl : rest = rest' := List.append_cancel_left hsame
    cases hmeans.unique hmeans'
    rfl
  | .ok _, .error _, ⟨hcs, ⟨_, hmeans⟩, hlongest⟩, h' =>
    exact (h'.not_means hcs hmeans hlongest).elim
  | .error _, .ok _, h, ⟨hcs, ⟨_, hmeans⟩, hlongest⟩ =>
    exact (h.not_means hcs hmeans hlongest).elim
  | .error _, .error _, h, h' => exact congrArg Except.error (Offends.unique h h')

/-- The longest lexeme is cut off. -/
theorem cut_of_longest {shape : Shape} {c : Char} {cs rest : List Char} {kind : TokenKind}
    (hmeans : Means shape (c :: cs) (.ok kind)) (hlongest : Longest (c :: cs) rest) :
    cut c (cs ++ rest) = .ok ⟨kind, c :: cs, rest⟩ :=
  have hanswer : Answers (c :: (cs ++ rest)) (.ok ⟨kind, c :: cs, rest⟩) :=
    ⟨rfl, ⟨shape, hmeans⟩, hlongest⟩
  (answers_cut c (cs ++ rest)).unique hanswer

/-- Where there is no token, nothing is cut off. -/
theorem cut_of_offends {cause : SyntaxError.Cause} {c : Char} {cs : List Char}
    (h : Offends cause (c :: cs)) : cut c cs = .error cause :=
  (answers_cut c cs).unique h

end Lexeme

end StackScript
