import StackScript.Script.Lexer

/-!
# Reading undoes spelling

Every token that a tree can need has a spelling: numbers without a sign, texts in single
quotes, words, and punctuation.  Tokens are written one after another with nothing between
them, so what comes next decides whether the spelling of a token is read to its end and no
further.  Only three things can go wrong: two words or numbers in a row run together, two
slashes make one operator, and the end of a line is not seen inside parentheses.  `Arranged`
rules them out, and then the tokens are read back (`scan_spelling`).

Where the tokens then stand is of no interest here; it matters to error messages alone.
-/

namespace StackScript

namespace TokenKind

/-! ## Spellings -/

/-- How a character stands between single quotes. -/
def escaped (c : Char) : List Char :=
  if c = '\\' then ['\\', '\\']
  else if c = '\'' then ['\\', '\'']
  else if c = '\n' then ['\\', 'n']
  else [c]

/-- The spelling of a literal. -/
def literalSpelling : Constant → List Char
  | .none => "None".toList
  | .bool true => "True".toList
  | .bool false => "False".toList
  | .int n => Word.decimal n.toInt
  | .float x => FloatText.render x
  | .str s => '\'' :: (s.toList.flatMap escaped ++ ['\''])

/-- The spelling of a token. -/
def spelling : TokenKind → List Char
  | .literal value => literalSpelling value
  | .name word => word.toList
  | .operator op => op.symbol.toList
  | .lparen => ['(']
  | .rparen => [')']
  | .comma => [',']
  | .equals => ['=']
  | .newline => ['\n']

/-- A word that starts like one and is not reserved. -/
def IsIdentifier (word : String) : Prop :=
  (∃ c cs, word.toList = c :: cs ∧ Lexeme.startsWord c = true ∧
    cs.all Lexeme.continuesWord = true) ∧ keyword? word = Option.none

/-- A finite double whose sign is not set. -/
def IsUnsigned (x : Double) : Prop := ∃ m q, Binary64.shape x = .finite false m q

/-- The tokens whose spelling means them: no number has a sign, the decimal of a double reads
back as that double, and names are identifiers. -/
def Spellable : TokenKind → Prop
  | .literal (.int n) => 0 ≤ n.toInt
  | .literal (.float x) => IsUnsigned x ∧ FloatText.read? (FloatText.render x) = some x
  | .name word => IsIdentifier word
  | _ => True

/-- Whether a token is a literal or a name. -/
def isOperand : TokenKind → Bool
  | .literal _ => true
  | .name _ => true
  | _ => false

/-- Whether a token may be followed by anything, wherever it stands: it is neither an operand nor a
division nor the end of a line. -/
def standsAlone : TokenKind → Bool
  | .literal _ => false
  | .name _ => false
  | .operator op => op ≠ .div
  | .newline => false
  | _ => true

/-- Whether a token starts with a slash. -/
def isSlash : TokenKind → Bool
  | .operator .div => true
  | .operator .floorDiv => true
  | _ => false

/-- One token may stand right behind another. -/
def Separate (k next : TokenKind) : Prop :=
  (k.isOperand = true → next.isOperand = false) ∧ (k = .operator .div → next.isSlash = false)

end TokenKind

namespace Lexer

open TokenKind Lexeme

/-- No token runs together with the next one, and lines end outside parentheses only. -/
def Arranged (depth : Nat) : List TokenKind → Prop
  | [] => True
  | k :: ks =>
      (k = .newline → depth = 0) ∧ (∀ next ∈ ks.head?, Separate k next) ∧
        Arranged (depthAfter depth k) ks

theorem arranged_of_standsAlone {k : TokenKind} {depth : Nat} {ks : List TokenKind}
    (hk : k.standsAlone = true) (h : Arranged (depthAfter depth k) ks) :
    Arranged depth (k :: ks) := by
  have hne : k ≠ .newline ∧ k.isOperand = false ∧ k ≠ .operator .div := by
    cases k <;> simp_all [standsAlone, isOperand]
  obtain ⟨hline, hoperand, hdiv⟩ := hne
  refine ⟨fun h => absurd h hline, fun next _ => ⟨fun h => ?_, fun h => absurd h hdiv⟩, h⟩
  rw [hoperand] at h
  cases h

/-- An operand with no other behind it. -/
theorem arranged_operand {k : TokenKind} {depth : Nat} {ks : List TokenKind}
    (hk : k.isOperand = true) (hks : ∀ next ∈ ks.head?, next.isOperand = false)
    (h : Arranged depth ks) : Arranged depth (k :: ks) := by
  have hdepth : depthAfter depth k = depth := by
    cases k with
    | literal | name => rfl
    | operator | lparen | rparen | comma | equals | newline => cases hk
  refine ⟨?_, fun next hnext => ⟨fun _ => hks next hnext, ?_⟩, hdepth.symm ▸ h⟩
  · rintro rfl
    cases hk
  · rintro rfl
    cases hk

/-! ## First characters -/

/-- The characters that punctuation starts with. -/
def delimiters : List Char := "()+-*/%,=\n".toList

/-- The text ends, or goes on with punctuation. -/
def Delimited (cs : List Char) : Prop := ∀ c ∈ cs.head?, c ∈ delimiters

theorem lt_of_isDigit {c : Char} (h : c.isDigit = true) : c.toNat < 0x3a := by
  simp only [Char.isDigit, Bool.and_eq_true, decide_eq_true_eq] at h
  exact Nat.lt_succ_of_le h.2

theorem le_of_startsWord {c : Char} (h : startsWord c = true) : 0x41 ≤ c.toNat := by
  rcases Nat.lt_or_ge c.toNat 0x41 with hlt | hge
  · have hout : Text.alphabetic.contains c.toNat = false :=
      CodePointSet.sweep_cons_of_lt hlt _ _
    rw [startsWord, hout, Bool.or_false, beq_iff_eq] at h
    subst h
    exact absurd hlt (by decide)
  · exact hge

/-- A test tells characters apart. -/
theorem ne_of_test {p : Char → Bool} {c d : Char} (hc : p c = true) (hd : p d = false) :
    c ≠ d := by
  rintro rfl
  rw [hc] at hd
  cases hd

theorem isDigit_of_startsWord {c : Char} (h : startsWord c = true) : c.isDigit = false := by
  cases hd : c.isDigit with
  | false => rfl
  | true =>
    have hle := le_of_startsWord h
    have hlt := lt_of_isDigit hd
    omega

/-- Words stop in front of punctuation. -/
theorem continuesWord_of_delimiter {c : Char} (h : c ∈ delimiters) : continuesWord c = false := by
  have hall : delimiters.all (fun c => !continuesWord c) = true := by decide
  simpa using List.all_eq_true.mp hall c h

/-- Numbers stop in front of punctuation. -/
theorem endsNumber_of_delimiter {c : Char} (h : c ∈ delimiters) :
    (c.isDigit || c == '_') = false ∧ (c == '.') = false ∧ isExponentMark c = false := by
  have hall : delimiters.all (fun c => !(c.isDigit || c == '_' || c == '.' || isExponentMark c)) =
      true := by decide
  have hc := List.all_eq_true.mp hall c h
  simp only [Bool.not_eq_true', Bool.or_eq_false_iff] at hc ⊢
  exact ⟨hc.1.1, hc.1.2, hc.2⟩

/-- Whether a character belongs to a gap wherever it stands. -/
def opensGap (c : Char) : Bool := isBlank c || c == '#' || c == '\\'

/-- What the first character of a token tells. -/
structure Begins (k : TokenKind) (c : Char) : Prop where
  /-- It is no gap. -/
  visible : opensGap c = false
  /-- A line feed is the end of a line. -/
  newline : c = '\n' → k = .newline
  /-- Punctuation starts with a delimiter. -/
  delimiter : k.isOperand = false → c ∈ delimiters
  /-- A slash starts an operator. -/
  slash : c = '/' → k.isSlash = true

/-- Digits, quotes and the first characters of words start nothing but literals and names. -/
theorem Begins.of_isOperand {k : TokenKind} {c : Char} (hk : k.isOperand = true)
    (hc : c.isDigit = true ∨ c = '\'' ∨ startsWord c = true) : Begins k c := by
  have hother : ∀ d : Char, d.isDigit = false → d ≠ '\'' → startsWord d = false → c ≠ d := by
    intro d hdigit hquote hword
    rcases hc with h | rfl | h
    · exact ne_of_test h hdigit
    · exact hquote.symm
    · exact ne_of_test h hword
  refine ⟨?_, fun h => ?_, fun h => ?_, fun h => ?_⟩
  · have hne : c ≠ ' ' ∧ c ≠ '\t' ∧ c ≠ '\r' ∧ c ≠ '#' ∧ c ≠ '\\' := by
      refine ⟨?_, ?_, ?_, ?_, ?_⟩ <;> exact hother _ (by decide) (by decide) (by decide)
    simp [opensGap, isBlank, hne]
  · exact absurd h (hother _ (by decide) (by decide) (by decide))
  · rw [hk] at h
    cases h
  · exact absurd h (hother _ (by decide) (by decide) (by decide))

/-! ## Words -/

/-- A word is cut off where punctuation follows. -/
theorem cut_word {c : Char} {cs rest : List Char} (hc : startsWord c = true)
    (hcs : cs.all continuesWord = true) (hrest : Delimited rest) :
    cut c (cs ++ rest) = .ok ⟨wordKind (c :: cs), c :: cs, rest⟩ := by
  have hnumber : startsNumber c (cs ++ rest) = false := by
    have hpoint : c ≠ '.' := ne_of_test hc (by decide)
    simp [startsNumber, isDigit_of_startsWord hc, hpoint]
  have hall : ∀ d ∈ c :: cs, continuesWord d = true := by
    rintro d (_ | ⟨_, hd⟩)
    · rw [continuesWord, hc, Bool.true_or]
    · exact List.all_eq_true.mp hcs d hd
  have hstop : rest.takeWhile continuesWord = [] ∧ rest.dropWhile continuesWord = rest := by
    rcases rest with _ | ⟨d, ds⟩
    · exact ⟨rfl, rfl⟩
    · have hd := continuesWord_of_delimiter (hrest d rfl)
      simp [hd]
  unfold cut
  rw [if_neg (by simp [hnumber]), if_pos hc, ← List.cons_append,
    List.takeWhile_append_of_pos hall, List.dropWhile_append_of_pos hall, hstop.1, hstop.2,
    List.append_nil]

/-! ## Numbers -/

theorem isDigit_digits (n : Nat) : ∀ c ∈ Word.digits n, c.isDigit = true :=
  fun _ hc => Nat.isDigit_of_mem_toDigits (by decide) (by decide) hc

theorem exists_digits_cons (n : Nat) :
    ∃ c cs, Word.digits n = c :: cs ∧ c.isDigit = true := by
  obtain ⟨c, cs, heq⟩ := List.exists_cons_of_ne_nil
    (show Word.digits n ≠ [] from Nat.toDigits_ne_nil)
  exact ⟨c, cs, heq, isDigit_digits n c (heq ▸ List.mem_cons_self)⟩

/-- Digits are part of the number that they stand in. -/
theorem cutNumber_digits {fractional : Bool} {ds cs : List Char}
    (h : ∀ c ∈ ds, c.isDigit = true) :
    cutNumber fractional (ds ++ cs) = keep ds (cutNumber fractional cs) := by
  induction ds with
  | nil => rfl
  | cons d ds ih =>
    have hd : d.isDigit = true := h d List.mem_cons_self
    rw [List.cons_append, cutNumber.eq_def]
    dsimp only
    rw [if_pos (by rw [hd, Bool.true_or]), ih fun c hc => h c (List.mem_cons_of_mem d hc)]
    rfl

theorem cutNumber_point {cs : List Char} :
    cutNumber false ('.' :: cs) = keep ['.'] (cutNumber true cs) := by
  rw [cutNumber.eq_def]
  rfl

theorem cutNumber_of_delimited {fractional : Bool} {rest : List Char} (h : Delimited rest) :
    cutNumber fractional rest = ([], rest) := by
  rcases rest with _ | ⟨c, cs⟩
  · rfl
  · obtain ⟨hdigit, hpoint, hmark⟩ := endsNumber_of_delimiter (h c rfl)
    rw [cutNumber.eq_def]
    simp only [hdigit, hpoint, hmark, Bool.false_and, Bool.false_eq_true, if_false]

theorem isSign_eq_false_of_isDigit {c : Char} (h : c.isDigit = true) : isSign c = false := by
  have hne : c ≠ '+' ∧ c ≠ '-' := ⟨ne_of_test h (by decide), ne_of_test h (by decide)⟩
  simp [isSign, hne]

/-- An exponent mark belongs to the number if digits follow. -/
theorem cutNumber_mark {fractional : Bool} {d : Char} {cs : List Char} (hd : d.isDigit = true) :
    cutNumber fractional ('e' :: d :: cs) = keep ['e'] (cutNumber true (d :: cs)) := by
  have hsign : isSign d = false := isSign_eq_false_of_isDigit hd
  rw [cutNumber.eq_def]
  rcases cs with _ | ⟨f, fs⟩ <;> simp [hd, hsign, isExponentMark]

theorem cutNumber_mark_minus {fractional : Bool} {d : Char} {cs : List Char}
    (hd : d.isDigit = true) :
    cutNumber fractional ('e' :: '-' :: d :: cs) =
      keep ['e', '-'] (cutNumber true (d :: cs)) := by
  rw [cutNumber.eq_def]
  simp [hd, isSign, isExponentMark]

/-- A whole exponent belongs to the number. -/
theorem cutNumber_exponent {fractional : Bool} (n : Int) {cs : List Char} :
    cutNumber fractional ('e' :: (Word.decimal n ++ cs)) =
      keep ('e' :: Word.decimal n) (cutNumber true cs) := by
  obtain ⟨d, ds, hds, hd⟩ := exists_digits_cons n.natAbs
  have hcut : cutNumber true (d :: (ds ++ cs)) = keep (d :: ds) (cutNumber true cs) := by
    rw [← List.cons_append, ← hds, cutNumber_digits (isDigit_digits n.natAbs)]
  unfold Word.decimal
  split
  · rw [hds, List.cons_append, List.cons_append, cutNumber_mark_minus hd, hcut]
    rfl
  · rw [hds, List.cons_append, cutNumber_mark hd, hcut]
    rfl

/-- What stands behind the first digits of a double: a point and digits, an exponent, or both. -/
inductive Fraction : List Char → Prop
  | point {ds : List Char} (h : ∀ c ∈ ds, c.isDigit = true) : Fraction ('.' :: ds)
  | exponent (n : Int) : Fraction ('e' :: Word.decimal n)
  | both {ds : List Char} (h : ∀ c ∈ ds, c.isDigit = true) (n : Int) :
      Fraction ('.' :: (ds ++ 'e' :: Word.decimal n))

theorem Fraction.cutNumber {part rest : List Char} (h : Fraction part) (hrest : Delimited rest) :
    cutNumber false (part ++ rest) = (part, rest) := by
  cases h with
  | point h =>
    rw [List.cons_append, cutNumber_point, cutNumber_digits h, cutNumber_of_delimited hrest]
    simp [keep]
  | exponent n =>
    rw [List.cons_append, cutNumber_exponent, cutNumber_of_delimited hrest]
    simp [keep]
  | both h n =>
    rw [List.cons_append, List.append_assoc, List.cons_append, cutNumber_point, cutNumber_digits h,
      cutNumber_exponent, cutNumber_of_delimited hrest]
    simp [keep]

/-- The characters of numbers that are written here. -/
def isPlain (c : Char) : Bool := c.isDigit || c == '.' || c == 'e' || c == '-'

theorem isPlain_of_isDigit {c : Char} (h : c.isDigit = true) : isPlain c = true := by
  simp [isPlain, h]

theorem plainNumber_of_isPlain {cs : List Char} (h : ∀ c ∈ cs, isPlain c = true) :
    plainNumber cs = cs := by
  have hfilter : cs.filter (· != '_') = cs :=
    List.filter_eq_self.mpr fun c hc => by simpa using ne_of_test (h c hc) (by decide)
  unfold plainNumber
  rw [hfilter]
  have hmap : cs.map (fun c => if c = 'E' then 'e' else c) = cs.map id :=
    List.map_congr_left fun c hc => if_neg (ne_of_test (h c hc) (by decide))
  rw [hmap, List.map_id]

theorem isPlain_decimal (n : Int) : ∀ c ∈ Word.decimal n, isPlain c = true := by
  have hdigits : ∀ c ∈ Word.digits n.natAbs, isPlain c = true :=
    fun c hc => isPlain_of_isDigit (isDigit_digits _ c hc)
  unfold Word.decimal
  split
  · rintro c (_ | ⟨_, hc⟩)
    · rfl
    · exact hdigits c hc
  · exact hdigits

theorem Fraction.isPlain {part : List Char} (h : Fraction part) :
    ∀ c ∈ part, isPlain c = true := by
  intro c hc
  cases h with
  | point h =>
    rcases List.mem_cons.mp hc with rfl | hc
    · rfl
    · exact isPlain_of_isDigit (h c hc)
  | exponent n =>
    rcases List.mem_cons.mp hc with rfl | hc
    · rfl
    · exact isPlain_decimal n c hc
  | both h n =>
    rcases List.mem_cons.mp hc with rfl | hc
    · rfl
    · rcases List.mem_append.mp hc with hc | hc
      · exact isPlain_of_isDigit (h c hc)
      · rcases List.mem_cons.mp hc with rfl | hc
        · rfl
        · exact isPlain_decimal n c hc

theorem Fraction.isFractional {part : List Char} (h : Fraction part) (ds : List Char) :
    isFractional (ds ++ part) = true := by
  unfold Lexeme.isFractional
  rw [List.any_append, Bool.or_eq_true]
  right
  cases h <;> rfl

theorem not_isFractional {ds : List Char} (h : ∀ c ∈ ds, c.isDigit = true) :
    isFractional ds = false := by
  refine List.any_eq_false.mpr fun c hc => ?_
  have hne : c ≠ '.' ∧ c ≠ 'e' ∧ c ≠ 'E' := by
    refine ⟨?_, ?_, ?_⟩ <;> exact ne_of_test (h c hc) (by decide)
  simp [isExponentMark, hne]

/-- A number starts with its first digit and is read as its token. -/
theorem cut_number {c : Char} {cs rest : List Char} {k : TokenKind} (hc : c.isDigit = true)
    (hcut : cutNumber false (c :: (cs ++ rest)) = (c :: cs, rest))
    (hkind : numberKind (c :: cs) = .ok k) :
    cut c (cs ++ rest) = .ok ⟨k, c :: cs, rest⟩ := by
  have hnumber : startsNumber c (cs ++ rest) = true := by simp [startsNumber, hc]
  unfold cut
  rw [if_pos hnumber, hcut]
  dsimp only
  rw [hkind]
  rfl

theorem valueOfDigits_digits (n : Nat) : Word.valueOfDigits (Word.digits n) = n := by
  have hvalue := @Nat.ofDigitChars_ten_toDigits n
  rw [Nat.ofDigitChars_eq_foldl] at hvalue
  exact hvalue

/-- Whether digits make a word can be told by counting as far as the limit, with either sign. -/
theorem narrow?_valueUpTo (ds : List Char) :
    Word.narrow? (Word.valueUpTo Word.beyondWords ds) = Word.narrow? (Word.valueOfDigits ds) ∧
      Word.narrow? (-(Word.valueUpTo Word.beyondWords ds : Int)) =
        Word.narrow? (-(Word.valueOfDigits ds : Int)) := by
  have hnone : ∀ n : Nat, Word.beyondWords ≤ n →
      Word.narrow? n = none ∧ Word.narrow? (-(n : Int)) = none := by
    intro n hn
    unfold Word.beyondWords at hn
    exact ⟨Word.narrow?_eq_none_iff.mpr (by omega), Word.narrow?_eq_none_iff.mpr (by omega)⟩
  rcases Nat.lt_or_ge (Word.valueOfDigits ds) Word.beyondWords with hlt | hge
  · rw [Word.valueUpTo_of_lt hlt]
    exact ⟨rfl, rfl⟩
  · obtain ⟨hplus, hminus⟩ := hnone _ (Word.le_valueUpTo hge)
    rw [hplus, hminus, (hnone _ hge).1, (hnone _ hge).2]
    exact ⟨rfl, rfl⟩

theorem natural?_of_isDigit {limit : Nat} {d : Char} {ds : List Char}
    (h : ∀ c ∈ d :: ds, c.isDigit = true) :
    Word.natural? limit (d :: ds) = some (Word.valueUpTo limit (d :: ds)) := by
  rw [Word.natural?, List.all_eq_true.mpr h]
  rfl

/-- Digits are read as the word of their value, if there is one. -/
theorem ofDecimal?_of_isDigit {d : Char} {ds : List Char}
    (h : ∀ c ∈ d :: ds, c.isDigit = true) :
    Word.ofDecimal? (d :: ds) = Word.narrow? (Word.valueOfDigits (d :: ds)) := by
  have hsign : ∀ c : Char, c.isDigit = false → ∀ cs, d :: ds ≠ c :: cs := by
    rintro c hc cs heq
    exact ne_of_test (h c (heq ▸ List.mem_cons_self)) hc rfl
  unfold Word.ofDecimal?
  split
  · next cs heq => exact absurd heq (hsign '+' (by decide) cs)
  · next cs heq => exact absurd heq (hsign '-' (by decide) cs)
  · rw [natural?_of_isDigit h, Option.bind_some, (narrow?_valueUpTo _).1]

theorem ofDecimal?_digits (n : Nat) : Word.ofDecimal? (Word.digits n) = Word.narrow? n := by
  obtain ⟨d, ds, hds, -⟩ := exists_digits_cons n
  have hdigits := isDigit_digits n
  have hvalue := valueOfDigits_digits n
  rw [hds] at hdigits hvalue ⊢
  rw [ofDecimal?_of_isDigit hdigits, hvalue]

theorem numberKind_int {n : Int64} (h : 0 ≤ n.toInt) :
    numberKind (Word.decimal n.toInt) = .ok (.literal (.int n)) := by
  have hdecimal : Word.decimal n.toInt = Word.digits n.toInt.natAbs :=
    if_neg (Int.not_lt.mpr h)
  have hread : Word.ofDecimal? (Word.digits n.toInt.natAbs) = some n := by
    rw [ofDecimal?_digits, Int.natAbs_of_nonneg h, Word.narrow?_toInt]
  have hplain := plainNumber_of_isPlain (isPlain_decimal n.toInt)
  unfold numberKind
  dsimp only
  rw [hplain, hdecimal, not_isFractional (isDigit_digits _), if_neg Bool.false_ne_true, hread]

theorem isDigit_replicate_zero (n : Nat) :
    ∀ c ∈ List.replicate n '0', c.isDigit = true := by
  intro c hc
  rw [List.eq_of_mem_replicate hc]
  rfl

/-- Digits in front, and behind them a point, an exponent, or both. -/
def IsFractionalNumber (cs : List Char) : Prop :=
  ∃ d ds part, cs = d :: (ds ++ part) ∧ (∀ c ∈ d :: ds, c.isDigit = true) ∧ Fraction part

theorem isFractionalNumber_positional {d : Char} {ds : List Char} (leading : Int)
    (h : ∀ c ∈ d :: ds, c.isDigit = true) :
    IsFractionalNumber (FloatText.positional (d :: ds) leading) := by
  unfold FloatText.positional
  split
  · refine ⟨'0', [], _, rfl, by simp, .point fun c hc => ?_⟩
    rcases List.mem_append.mp hc with hc | hc
    · exact isDigit_replicate_zero _ c hc
    · exact h c hc
  · refine ⟨d, ds.take leading.toNat ++ List.replicate (leading.toNat + 1 - (d :: ds).length) '0',
      _, rfl, fun c hc => ?_, .point fun c hc => ?_⟩
    · rcases List.mem_cons.mp hc with rfl | hc
      · exact h c List.mem_cons_self
      · rcases List.mem_append.mp hc with hc | hc
        · exact h c (List.mem_cons_of_mem _ (List.mem_of_mem_take hc))
        · exact isDigit_replicate_zero _ c hc
    · split at hc
      · rw [List.mem_singleton.mp hc]
        rfl
      · exact h c (List.mem_of_mem_drop hc)

theorem isFractionalNumber_scientific {d : Char} {ds : List Char} (leading : Int)
    (h : ∀ c ∈ d :: ds, c.isDigit = true) :
    IsFractionalNumber (FloatText.scientific (d :: ds) leading) := by
  have hd : ∀ c ∈ [d], c.isDigit = true := fun c hc => h c (by simp_all)
  rcases ds with _ | ⟨e, ds⟩
  · exact ⟨d, [], _, rfl, hd, .exponent leading⟩
  · exact ⟨d, [], _, rfl, hd, .both (fun c hc => h c (List.mem_cons_of_mem d hc)) leading⟩

/-- What is written of a finite double behind its sign has a point or an exponent. -/
theorem isFractionalNumber_magnitude (m : Nat) (q : Int) :
    IsFractionalNumber
      (if m = 0 then "0.0".toList else FloatText.ofDecimal (Shortest.ofScaled m q)) := by
  split
  · exact ⟨'0', [], ['.', '0'], rfl, by simp, .point (by simp)⟩
  · obtain ⟨d, ds, hds, -⟩ := exists_digits_cons (Shortest.ofScaled m q).significand
    have hdigits := isDigit_digits (Shortest.ofScaled m q).significand
    unfold FloatText.ofDecimal
    rw [hds] at hdigits ⊢
    dsimp only
    split
    · exact isFractionalNumber_positional _ hdigits
    · exact isFractionalNumber_scientific _ hdigits

/-- The text of a double without a sign has a point or an exponent. -/
theorem isFractionalNumber_render {x : Double} (h : IsUnsigned x) :
    IsFractionalNumber (FloatText.render x) := by
  obtain ⟨m, q, hshape⟩ := h
  unfold FloatText.render
  rw [hshape]
  exact isFractionalNumber_magnitude m q

theorem IsFractionalNumber.isPlain {cs : List Char} (h : IsFractionalNumber cs) :
    ∀ c ∈ cs, isPlain c = true := by
  obtain ⟨d, ds, part, rfl, hdigits, hpart⟩ := h
  intro c hc
  rw [← List.cons_append] at hc
  rcases List.mem_append.mp hc with hc | hc
  · exact isPlain_of_isDigit (hdigits c hc)
  · exact hpart.isPlain c hc

/-! ## Texts -/

theorem cutQuoted_escaped (c : Char) (cs : List Char) :
    cutQuoted '\'' (escaped c ++ cs) = (cutQuoted '\'' cs).map (keep (escaped c)) := by
  unfold escaped
  split
  · rfl
  · split
    · rfl
    · split
      · rfl
      · next hslash hquote hline =>
        rw [List.singleton_append, cutQuoted.eq_def]
        dsimp only
        rw [if_neg hline, if_neg hquote, if_neg hslash]

/-- A text ends at its closing quote. -/
theorem cutQuoted_text (s rest : List Char) :
    cutQuoted '\'' (s.flatMap escaped ++ '\'' :: rest) =
      some (s.flatMap escaped ++ ['\''], rest) := by
  induction s with
  | nil =>
    rw [List.flatMap_nil, List.nil_append, cutQuoted.eq_def]
    simp
  | cons c s ih =>
    rw [List.flatMap_cons, List.append_assoc, cutQuoted_escaped, ih, Option.map_some]
    simp [keep]

theorem unescape_escaped (c : Char) (cs : List Char) :
    unescape (escaped c ++ cs) = c :: unescape cs := by
  unfold escaped
  split
  · next h => rw [h]; rfl
  · split
    · next h => rw [h]; rfl
    · split
      · next h => rw [h]; rfl
      · next hslash _ _ =>
        rcases cs with _ | ⟨d, cs⟩
        · rfl
        · rw [List.singleton_append, unescape.eq_def]
          dsimp only
          rw [if_neg hslash]

theorem unescape_text (s : List Char) : unescape (s.flatMap escaped) = s := by
  induction s with
  | nil => rfl
  | cons c s ih => rw [List.flatMap_cons, unescape_escaped, ih]

theorem textKind_text (s : String) :
    textKind (s.toList.flatMap escaped ++ ['\'']) = .literal (.str s) := by
  unfold textKind
  rw [List.dropLast_concat, unescape_text, String.ofList_toList]

theorem cut_text (s : String) (rest : List Char) :
    cut '\'' (s.toList.flatMap escaped ++ ['\''] ++ rest) =
      .ok ⟨.literal (.str s), literalSpelling (.str s), rest⟩ := by
  have hnumber : ∀ cs, ¬startsNumber '\'' cs = true := fun _ => Bool.false_ne_true
  have hword : ¬startsWord '\'' = true := by decide
  unfold cut
  rw [if_neg (hnumber _), if_neg hword, if_pos (.inr rfl), List.append_assoc,
    List.singleton_append, cutQuoted_text]
  dsimp only
  rw [textKind_text]
  rfl

/-! ## Every spelling is read as its token -/

/-- The spelling of a token, with what follows it, starts as it should and is cut off again. -/
def Cuts (k : TokenKind) (rest : List Char) : Prop :=
  ∃ c cs, k.spelling = c :: cs ∧ Begins k c ∧ cut c (cs ++ rest) = .ok ⟨k, k.spelling, rest⟩

theorem cuts_word {k : TokenKind} {c : Char} {cs rest : List Char} (hk : k.isOperand = true)
    (hspelling : k.spelling = c :: cs) (hkind : wordKind (c :: cs) = k)
    (hc : startsWord c = true) (hcs : cs.all continuesWord = true) (hrest : Delimited rest) :
    Cuts k rest := by
  refine ⟨c, cs, hspelling, .of_isOperand hk (.inr (.inr hc)), ?_⟩
  rw [cut_word hc hcs hrest, hkind, hspelling]

theorem cuts_number {k : TokenKind} {c : Char} {cs rest : List Char} (hk : k.isOperand = true)
    (hspelling : k.spelling = c :: cs) (hkind : numberKind (c :: cs) = .ok k)
    (hc : c.isDigit = true) (hcut : cutNumber false (c :: (cs ++ rest)) = (c :: cs, rest)) :
    Cuts k rest := by
  refine ⟨c, cs, hspelling, .of_isOperand hk (.inl hc), ?_⟩
  rw [cut_number hc hcut hkind, hspelling]

theorem cuts_int {n : Int64} {rest : List Char} (h : 0 ≤ n.toInt) (hrest : Delimited rest) :
    Cuts (.literal (.int n)) rest := by
  obtain ⟨c, cs, hcs, hc⟩ := exists_digits_cons n.toInt.natAbs
  have hdecimal : Word.decimal n.toInt = c :: cs := by
    rw [Word.decimal, if_neg (Int.not_lt.mpr h), hcs]
  refine cuts_number rfl hdecimal (hdecimal ▸ numberKind_int h) hc ?_
  rw [← List.cons_append, ← hcs, cutNumber_digits (isDigit_digits _),
    cutNumber_of_delimited hrest]
  simp [keep]

theorem cuts_float {x : Double} {rest : List Char} (h : IsUnsigned x)
    (hread : FloatText.read? (FloatText.render x) = some x) (hrest : Delimited rest) :
    Cuts (.literal (.float x)) rest := by
  have hplain := plainNumber_of_isPlain (isFractionalNumber_render h).isPlain
  obtain ⟨d, ds, part, hrender, hdigits, hpart⟩ := isFractionalNumber_render h
  rw [hrender] at hplain
  have hkind : numberKind (d :: (ds ++ part)) = .ok (.literal (.float x)) := by
    unfold numberKind
    dsimp only
    rw [hplain, ← List.cons_append, if_pos (hpart.isFractional (d :: ds)), List.cons_append,
      ← hrender, hread]
  refine cuts_number rfl hrender hkind (hdigits d List.mem_cons_self) ?_
  rw [List.append_assoc, ← List.cons_append, cutNumber_digits hdigits, hpart.cutNumber hrest]
  rfl

theorem cuts_name {word : String} {rest : List Char} (h : IsIdentifier word)
    (hrest : Delimited rest) : Cuts (.name word) rest := by
  obtain ⟨⟨c, cs, hword, hc, hcs⟩, hkeyword⟩ := h
  refine cuts_word rfl hword ?_ hc hcs hrest
  unfold wordKind
  dsimp only
  rw [← hword, String.ofList_toList, hkeyword]
  rfl

theorem cuts_operator (op : BinaryOp) {rest : List Char}
    (h : op = .div → ∀ c ∈ rest.head?, c ≠ '/') : Cuts (.operator op) rest := by
  cases op with
  | div =>
    refine ⟨'/', [], rfl, ⟨by decide, by decide, by decide, fun _ => rfl⟩, ?_⟩
    rcases rest with _ | ⟨c, cs⟩
    · rfl
    · have hc : c ≠ '/' := h rfl c rfl
      show cutSymbol '/' (c :: cs) = _
      unfold cutSymbol
      split
      · next heq => exact absurd (List.cons.inj heq).1 hc
      · rfl
  | floorDiv => exact ⟨'/', ['/'], rfl, ⟨by decide, by decide, by decide, fun _ => rfl⟩, rfl⟩
  | add => exact ⟨'+', [], rfl, ⟨by decide, by decide, by decide, by decide⟩, rfl⟩
  | sub => exact ⟨'-', [], rfl, ⟨by decide, by decide, by decide, by decide⟩, rfl⟩
  | mul => exact ⟨'*', [], rfl, ⟨by decide, by decide, by decide, by decide⟩, rfl⟩
  | mod => exact ⟨'%', [], rfl, ⟨by decide, by decide, by decide, by decide⟩, rfl⟩

/-- A spelling is read to its end and no further. -/
theorem cuts_spelling {k : TokenKind} {rest : List Char} (hk : k.Spellable)
    (hoperand : k.isOperand = true → Delimited rest)
    (hslash : k = .operator .div → ∀ c ∈ rest.head?, c ≠ '/') : Cuts k rest := by
  cases k with
  | literal value =>
    have hrest : Delimited rest := hoperand rfl
    cases value with
    | none => exact cuts_word rfl rfl rfl (by decide) (by decide) hrest
    | bool b =>
      cases b with
      | false => exact cuts_word rfl rfl rfl (by decide) (by decide) hrest
      | true => exact cuts_word rfl rfl rfl (by decide) (by decide) hrest
    | int n => exact cuts_int hk hrest
    | float x => exact cuts_float hk.1 hk.2 hrest
    | str s =>
      exact ⟨'\'', _, rfl, .of_isOperand rfl (.inr (.inl rfl)), cut_text s rest⟩
  | name word => exact cuts_name hk (hoperand rfl)
  | operator op => exact cuts_operator op fun h => hslash (h ▸ rfl)
  | lparen => exact ⟨'(', [], rfl, ⟨by decide, by decide, by decide, by decide⟩, rfl⟩
  | rparen => exact ⟨')', [], rfl, ⟨by decide, by decide, by decide, by decide⟩, rfl⟩
  | comma => exact ⟨',', [], rfl, ⟨by decide, by decide, by decide, by decide⟩, rfl⟩
  | equals => exact ⟨'=', [], rfl, ⟨by decide, by decide, by decide, by decide⟩, rfl⟩
  | newline => exact ⟨'\n', [], rfl, ⟨by decide, fun _ => rfl, by decide, by decide⟩, rfl⟩

/-! ## One step of the scanner -/

/-- Where the gap reaches the end of a script, nothing is left to read. -/
theorem scan_end {depth : Nat} {here : Position} {seen : List Token} {cs : List Char}
    (h : (gap depth false cs).2 = []) :
    scan depth here seen cs = .ok ⟨seen.reverse, here.after cs⟩ := by
  have hgap := gap_append depth false cs
  rw [h, List.append_nil] at hgap
  rw [scan.eq_def]
  dsimp only
  split
  · rw [hgap]
  · next heq =>
    rw [h] at heq
    cases heq

/-- Behind a gap a lexeme is cut, and what follows it is read. -/
theorem scan_lexeme {depth : Nat} {here : Position} {seen : List Token} {c : Char}
    {cs rest : List Char} (h : (gap depth false cs).2 = c :: rest) :
    scan depth here seen cs =
      match cut c rest with
      | .error cause => .error ⟨here.after (gap depth false cs).1, cause⟩
      | .ok l =>
          scan (depthAfter depth l.kind) ((here.after (gap depth false cs).1).after l.taken)
            (⟨l.kind, here.after (gap depth false cs).1⟩ :: seen) l.rest := by
  rw [scan.eq_def]
  dsimp only
  split
  · next heq =>
    rw [h] at heq
    cases heq
  · next heq =>
    rw [h] at heq
    cases heq
    cases cut c rest <;> rfl

/-- Everything that reading the tokens of a script can have done. -/
theorem scan_cases {depth : Nat} {here : Position} {seen : List Token} {cs : List Char}
    {s : TokenStream} (h : scan depth here seen cs = .ok s) :
    ((gap depth false cs).2 = [] ∧ s = ⟨seen.reverse, here.after cs⟩) ∨
    ∃ c rest l, (gap depth false cs).2 = c :: rest ∧ cut c rest = .ok l ∧
      l.rest.length < cs.length ∧
      scan (depthAfter depth l.kind) ((here.after (gap depth false cs).1).after l.taken)
        (⟨l.kind, here.after (gap depth false cs).1⟩ :: seen) l.rest = .ok s := by
  rcases hgap : (gap depth false cs).2 with _ | ⟨c, rest⟩
  · rw [scan_end hgap] at h
    cases h
    exact .inl ⟨rfl, rfl⟩
  · rw [scan_lexeme hgap] at h
    cases hcut : cut c rest with
    | error cause =>
      rw [hcut] at h
      cases h
    | ok l =>
      rw [hcut] at h
      have hlength := gap_rest_length depth false cs
      have hshorter := cut_rest_length hcut
      rw [hgap] at hlength
      exact .inr ⟨c, rest, l, rfl, hcut, by omega, h⟩

/-! ## Whole texts -/

theorem gap_of_begins {k : TokenKind} {c : Char} {cs : List Char} {depth : Nat}
    (hc : Begins k c) (hdepth : k = .newline → depth = 0) :
    gap depth false (c :: cs) = ([], c :: cs) := by
  have hvisible := hc.visible
  simp only [opensGap, Bool.or_eq_false_iff, beq_eq_false_iff_ne] at hvisible
  obtain ⟨⟨hblank, hcomment⟩, hslash⟩ := hvisible
  rw [gap.eq_def]
  dsimp only
  split
  · next hline =>
    rw [if_neg (by rw [hdepth (hc.newline hline)]; exact Nat.lt_irrefl 0)]
  · simp [hblank]

/-- One token is read from its spelling, and then the rest. -/
theorem scan_cuts {k : TokenKind} {rest : List Char} {depth : Nat} {here : Position}
    {seen : List Token} (h : Cuts k rest) (hdepth : k = .newline → depth = 0) :
    scan depth here seen (k.spelling ++ rest) =
      scan (depthAfter depth k) (here.after k.spelling) (⟨k, here⟩ :: seen) rest := by
  obtain ⟨c, cs, hspelling, hbegins, hcut⟩ := h
  have hgap : gap depth false (k.spelling ++ rest) = ([], c :: (cs ++ rest)) := by
    rw [hspelling]
    exact gap_of_begins hbegins hdepth
  rw [scan_lexeme (congrArg Prod.snd hgap), hgap, hcut]
  rfl

theorem exists_begins {k : TokenKind} (hk : k.Spellable) :
    ∃ c cs, k.spelling = c :: cs ∧ Begins k c := by
  have hcuts : Cuts k [] := cuts_spelling hk (by simp [Delimited]) (by simp)
  obtain ⟨c, cs, hspelling, hbegins, -⟩ := hcuts
  exact ⟨c, cs, hspelling, hbegins⟩

/-- What follows a token in a text of spellings is what it has to be. -/
theorem cuts_of_separate {k : TokenKind} {ks : List TokenKind} (hk : k.Spellable)
    (hks : ∀ next ∈ ks, next.Spellable) (h : ∀ next ∈ ks.head?, Separate k next) :
    Cuts k (ks.flatMap spelling) := by
  rcases ks with _ | ⟨next, ks⟩
  · exact cuts_spelling hk (by simp [Delimited]) (by simp)
  · obtain ⟨hoperand, hslash⟩ := h next rfl
    obtain ⟨c, cs, hspelling, hbegins⟩ := exists_begins (hks next List.mem_cons_self)
    have hhead : ((next :: ks).flatMap spelling).head? = some c := by
      rw [List.flatMap_cons, hspelling]
      rfl
    refine cuts_spelling hk (fun h d hd => ?_) fun h d hd => ?_
    · rw [hhead] at hd
      cases hd
      exact hbegins.delimiter (hoperand h)
    · rw [hhead] at hd
      cases hd
      rintro rfl
      have hnext := hslash h
      rw [hbegins.slash rfl] at hnext
      cases hnext

/-- Tokens are read back from their spellings. -/
theorem scan_spelling {ks : List TokenKind} {depth : Nat} {here : Position} {seen : List Token}
    (hks : ∀ k ∈ ks, k.Spellable) (h : Arranged depth ks) :
    ∃ ts stop, scan depth here seen (ks.flatMap spelling) = .ok ⟨seen.reverse ++ ts, stop⟩ ∧
      ts.map Token.kind = ks := by
  induction ks generalizing depth here seen with
  | nil =>
    refine ⟨[], here, ?_, rfl⟩
    rw [List.flatMap_nil, List.append_nil]
    exact scan_end rfl
  | cons k ks ih =>
    obtain ⟨hdepth, hseparate, harranged⟩ := h
    have hks' : ∀ next ∈ ks, next.Spellable := fun next hn => hks next (List.mem_cons_of_mem k hn)
    have hcuts := cuts_of_separate (hks k List.mem_cons_self) hks' hseparate
    rw [List.flatMap_cons, scan_cuts hcuts hdepth]
    obtain ⟨ts, stop, hscan, hkinds⟩ := ih hks' harranged
    refine ⟨⟨k, here⟩ :: ts, stop, ?_, ?_⟩
    · rw [hscan, List.reverse_cons, List.append_assoc, List.singleton_append]
    · rw [List.map_cons, hkinds]

end Lexer

/-! ## Tokens of given kinds -/

/-- The first of some tokens, if it is known what they are. -/
theorem Token.exists_cons_of_map_kind {k : TokenKind} {ks : List TokenKind} {ts : List Token}
    (h : ts.map Token.kind = k :: ks) :
    ∃ pos us, ts = ⟨k, pos⟩ :: us ∧ us.map Token.kind = ks := by
  obtain ⟨⟨kind, pos⟩, us, rfl, rfl, hus⟩ := List.map_eq_cons_iff.mp h
  exact ⟨pos, us, rfl, hus⟩

/-- Tokens in parentheses, and those behind them. -/
theorem Token.exists_parentheses_of_map_kind {ks more : List TokenKind} {ts : List Token}
    (h : ts.map Token.kind = .lparen :: (ks ++ .rparen :: more)) :
    ∃ p inner q behind, ts = ⟨.lparen, p⟩ :: (inner ++ ⟨.rparen, q⟩ :: behind) ∧
      inner.map Token.kind = ks ∧ behind.map Token.kind = more := by
  obtain ⟨p, us, rfl, hus⟩ := Token.exists_cons_of_map_kind h
  obtain ⟨inner, closing, rfl, hinner, hclosing⟩ := List.map_eq_append_iff.mp hus
  obtain ⟨q, behind, rfl, hbehind⟩ := Token.exists_cons_of_map_kind hclosing
  exact ⟨p, inner, q, behind, rfl, hinner, hbehind⟩

/-- A text made of spellings has the tokens that were spelled. -/
theorem TokenStream.ofText_spelling {ks : List TokenKind} (hks : ∀ k ∈ ks, k.Spellable)
    (h : Lexer.Arranged 0 ks) :
    ∃ s, TokenStream.ofText (String.ofList (ks.flatMap TokenKind.spelling)) = .ok s ∧
      s.tokens.map Token.kind = ks := by
  obtain ⟨ts, stop, hscan, hkinds⟩ := Lexer.scan_spelling hks h
  refine ⟨⟨ts, stop⟩, ?_, hkinds⟩
  rw [TokenStream.ofText, String.toList_ofList]
  exact hscan

end StackScript
