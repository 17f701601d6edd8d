import Mathlib.Data.List.TakeWhile
import StackScript.Proofs.Folding
import StackScript.Proofs.Script.Nesting
import StackScript.Proofs.Script.Shapes
import StackScript.Proofs.WholeNumbers

/-!
# Giving back what was printed

A whole number is printed in decimal, and there are two ways to give the decimal back to a program:
as a text to the builtin `int`, and as a part of a script.

The builtin takes the sign as a part of the number, so it takes all that can be printed, from the
least word to the greatest, and white space around it does not matter (`Builtin.int_inverts_str`).
A script has no negative literals.  There a minus sign is an operator, and the digits behind it have
to be a word before anything is negated.  The least word has a magnitude that is no word, and so it
is the one number that cannot be written where it was printed (`Script.assigns_decimal`).

Without a sign the two readers agree about every numeral, underscores included, and about those
that are too large for a word.
-/

namespace StackScript

open Lexer Lexeme

/-! ## Decimals and numerals -/

namespace Word

/-- A decimal is read as the word that it is the decimal of. -/
theorem ofDecimal?_decimal (w : Int64) : ofDecimal? (decimal w.toInt) = some w := by
  unfold decimal
  split
  · next hneg =>
    obtain ⟨d, ds, hds, -⟩ := exists_digits_cons w.toInt.natAbs
    have hdigits := isDigit_digits w.toInt.natAbs
    have hvalue := valueOfDigits_digits w.toInt.natAbs
    rw [hds] at hdigits hvalue ⊢
    have hminus : -(w.toInt.natAbs : Int) = w.toInt := by omega
    -- The limit lies above the magnitude of the least word, which is therefore read exactly.
    rw [ofDecimal?, natural?_of_isDigit hdigits, Option.bind_some, (narrow?_valueUpTo _).2, hvalue,
      hminus, narrow?_toInt]
  · next hpos =>
    rw [ofDecimal?_digits, Int.natAbs_of_nonneg (Int.not_lt.mp hpos), narrow?_toInt]

/-- A digit, and behind it digits and underscores. -/
def isNumeral : List Char → Bool
  | [] => false
  | d :: cs => d.isDigit && cs.all fun c => c.isDigit || c == '_'

/-- The digits of a numeral. -/
def numeralDigits (cs : List Char) : List Char := cs.filter (· != '_')

/-- The value of a numeral, in which underscores mean nothing. -/
def numeralValue (cs : List Char) : Nat := valueOfDigits (numeralDigits cs)

theorem exists_cons_of_isNumeral {cs : List Char} (h : isNumeral cs = true) :
    ∃ d ds, cs = d :: ds ∧ d.isDigit = true ∧ ∀ c ∈ d :: ds, c.isDigit = true ∨ c = '_' := by
  match cs, h with
  | d :: ds, h =>
    have hparts : d.isDigit = true ∧ ∀ c ∈ ds, c.isDigit = true ∨ c = '_' := by
      simpa [isNumeral] using h
    exact ⟨d, ds, rfl, hparts.1, List.forall_mem_cons.mpr ⟨.inl hparts.1, hparts.2⟩⟩

theorem isDigit_numeralDigits {cs : List Char} (h : ∀ c ∈ cs, c.isDigit = true ∨ c = '_') :
    ∀ c ∈ numeralDigits cs, c.isDigit = true := by
  intro c hc
  rw [numeralDigits, List.mem_filter, bne_iff_ne] at hc
  exact (h c hc.1).resolve_right hc.2

theorem numeralDigits_of_not_mem {cs : List Char} (h : '_' ∉ cs) : numeralDigits cs = cs := by
  refine List.filter_eq_self.mpr fun c hc => bne_iff_ne.mpr ?_
  rintro rfl
  exact h hc

theorem isNumeral_digits (n : Nat) : isNumeral (digits n) = true := by
  obtain ⟨d, ds, hds, hd⟩ := exists_digits_cons n
  have hdigits := isDigit_digits n
  rw [hds] at hdigits ⊢
  rw [isNumeral, hd, Bool.true_and]
  exact List.all_eq_true.mpr fun c hc => by rw [hdigits c (.tail d hc), Bool.true_or]

theorem numeralDigits_digits (n : Nat) : numeralDigits (digits n) = digits n :=
  numeralDigits_of_not_mem fun hc => ne_of_test (isDigit_digits n '_' hc) (by decide) rfl

/-- The digits of a numeral are read as the word of its value, if there is one. -/
theorem ofDecimal?_numeralDigits {cs : List Char} (h : isNumeral cs = true) :
    ofDecimal? (numeralDigits cs) = narrow? (numeralValue cs) := by
  obtain ⟨d, ds, rfl, hd, hall⟩ := exists_cons_of_isNumeral h
  have hcons : numeralDigits (d :: ds) = d :: numeralDigits ds :=
    List.filter_cons_of_pos (by simpa using ne_of_test hd (by decide))
  have hdigits := isDigit_numeralDigits hall
  rw [hcons] at hdigits
  rw [numeralValue, hcons, ofDecimal?_of_isDigit hdigits]

end Word

/-! ## White space -/

namespace Text

theorem isWhitespace_of_visible {c : Char} (hlow : 0x21 ≤ c.toNat) (hhigh : c.toNat < 0x85) :
    isWhitespace c = false := by
  rw [isWhitespace, CodePointSet.contains, whitespace, CodePointSet.sweep_cons_of_le (by omega),
    CodePointSet.sweep_cons_of_le (by omega), CodePointSet.sweep_cons_of_le (by omega),
    CodePointSet.sweep_cons_of_le (by omega), CodePointSet.sweep_cons_of_lt (by omega)]
  rfl

theorem isWhitespace_of_isDigit {c : Char} (h : c.isDigit = true) : isWhitespace c = false := by
  have hlow : 0x30 ≤ c.toNat := by
    simp only [Char.isDigit, Bool.and_eq_true, decide_eq_true_eq] at h
    exact h.1
  have hhigh := lt_of_isDigit h
  exact isWhitespace_of_visible (by omega) (by omega)

/-- Stripping leaves what has no white space in it. -/
theorem trim_append {before cs after : List Char} (hbefore : before.all isWhitespace = true)
    (hafter : after.all isWhitespace = true) (hcs : ∀ c ∈ cs, isWhitespace c = false) :
    trim (before ++ (cs ++ after)) = cs := by
  have hbehind : ∀ c ∈ after.reverse, isWhitespace c = true := fun c hc =>
    List.all_eq_true.mp hafter c (List.mem_reverse.mp hc)
  rw [trim, List.dropWhile_append_of_pos (List.all_eq_true.mp hbefore)]
  cases cs with
  | nil =>
    rw [List.nil_append, List.dropWhile_eq_nil_iff.mpr (List.all_eq_true.mp hafter)]
    rfl
  | cons c cs =>
    have hlast : (c :: cs).reverse.dropWhile isWhitespace = (c :: cs).reverse := by
      rw [List.dropWhile_eq_self_iff]
      intro hlt
      simpa using hcs _ (List.mem_reverse.mp (List.getElem_mem hlt))
    rw [List.cons_append, List.dropWhile_cons_of_neg (by simp [hcs c List.mem_cons_self]),
      ← List.cons_append, List.reverse_append, List.dropWhile_append_of_pos hbehind, hlast,
      List.reverse_reverse]

end Text

/-! ## The builtin -/

namespace Builtin

/-- The number that a text spells is that of its digits, whatever white space there is around. -/
theorem integerOfText?_of_append {s : String} {before cs after : List Char}
    (hs : s.toList = before ++ (cs ++ after)) (hbefore : before.all Text.isWhitespace = true)
    (hafter : after.all Text.isWhitespace = true)
    (hcs : ∀ c ∈ cs, Text.isWhitespace c = false) :
    integerOfText? s = Word.ofDecimal? (Word.numeralDigits cs) := by
  rw [integerOfText?, hs, Text.trim_append hbefore hafter hcs]
  rfl

/-- Conversion gives back what was printed. -/
theorem integerOfText?_text (v : Int64) {before after : String}
    (hbefore : Text.isBlank before = true) (hafter : Text.isBlank after = true) :
    integerOfText? (before ++ Word.text v ++ after) = some v := by
  have hplain := isPlain_decimal v.toInt
  have hvisible : ∀ c ∈ Word.decimal v.toInt, Text.isWhitespace c = false := by
    intro c hc
    have h := hplain c hc
    simp only [isPlain, Bool.or_eq_true, beq_iff_eq] at h
    rcases h with ((hdigit | rfl) | rfl) | rfl
    · exact Text.isWhitespace_of_isDigit hdigit
    · decide
    · decide
    · decide
  have hdigits : Word.numeralDigits (Word.decimal v.toInt) = Word.decimal v.toInt :=
    Word.numeralDigits_of_not_mem fun hc => ne_of_test (hplain '_' hc) (by decide) rfl
  have hs : (before ++ Word.text v ++ after).toList =
      before.toList ++ (Word.decimal v.toInt ++ after.toList) := by
    rw [Word.text, String.toList_append, String.toList_append, String.toList_ofList,
      List.append_assoc]
  rw [integerOfText?_of_append hs hbefore hafter hvisible, hdigits, Word.ofDecimal?_decimal]

/-- A numeral is converted to the word of its value, if there is one. -/
theorem integerOfText?_numeral {s : String} (h : Word.isNumeral s.toList = true) :
    integerOfText? s = Word.narrow? (Word.numeralValue s.toList) := by
  obtain ⟨d, ds, hs, -, hall⟩ := Word.exists_cons_of_isNumeral h
  have hvisible : ∀ c ∈ s.toList, Text.isWhitespace c = false := by
    intro c hc
    rw [hs] at hc
    rcases hall c hc with hdigit | rfl
    · exact Text.isWhitespace_of_isDigit hdigit
    · decide
  have happend : s.toList = [] ++ (s.toList ++ []) := by rw [List.append_nil, List.nil_append]
  rw [integerOfText?_of_append happend rfl rfl hvisible, Word.ofDecimal?_numeralDigits h]

end Builtin

/-! ## Numerals as scripts -/

namespace Lexeme

/-- Nothing follows at the end of a script. -/
theorem longest_nil (taken : List Char) : Longest taken [] :=
  fun _ _ _ _ h _ => (List.append_eq_nil_iff.mp h.symm).1

/-- What a numeral means is the word of its value, if there is one. -/
theorem numberKind_numeral {cs : List Char} (h : Word.isNumeral cs = true) :
    numberKind cs =
      match Word.narrow? (Word.numeralValue cs) with
      | some n => .ok (.literal (.int n))
      | none => .error (.integerTooLarge (String.ofList (Word.numeralDigits cs))) := by
  obtain ⟨d, ds, hcs, -, hall⟩ := Word.exists_cons_of_isNumeral h
  rw [← hcs] at hall
  have hother : ∀ c ∈ cs, ∀ e : Char, e.isDigit = false → e ≠ '_' → c ≠ e := by
    intro c hc e hdigit hline
    rcases hall c hc with h | rfl
    · exact ne_of_test h hdigit
    · exact hline.symm
  have hplain : plainNumber cs = Word.numeralDigits cs := by
    have hmap : (Word.numeralDigits cs).map (fun c => if c = 'E' then 'e' else c) =
        (Word.numeralDigits cs).map id := by
      refine List.map_congr_left fun c hc => if_neg ?_
      exact hother c (List.mem_of_mem_filter hc) 'E' (by decide) (by decide)
    rw [List.map_id] at hmap
    exact hmap
  have hwhole : isFractional cs = false := by
    refine List.any_eq_false.mpr fun c hc => ?_
    have hne : c ≠ '.' ∧ c ≠ 'e' ∧ c ≠ 'E' := by
      refine ⟨?_, ?_, ?_⟩ <;> exact hother c hc _ (by decide) (by decide)
    simp [isExponentMark, hne]
  have hread := Word.ofDecimal?_numeralDigits h
  unfold numberKind
  dsimp only
  rw [hplain, hwhole, if_neg Bool.false_ne_true]
  cases hvalue : Word.narrow? (Word.numeralValue cs) with
  | none => simp only [hread, hvalue]
  | some n => simp only [hread, hvalue]

theorem NumberForm.of_digits {cs : List Char} (h : ∀ c ∈ cs, c.isDigit = true ∨ c = '_') :
    NumberForm false cs := by
  induction cs with
  | nil => exact .nil
  | cons c cs ih => exact .digit (h c List.mem_cons_self) (ih fun d hd => h d (.tail c hd))

/-- A numeral is a lexeme. -/
theorem means_numeral {cs : List Char} (h : Word.isNumeral cs = true) :
    Means .number cs (numberKind cs) := by
  obtain ⟨d, ds, rfl, hd, hall⟩ := Word.exists_cons_of_isNumeral h
  exact .number (by simp [startsNumber, hd]) (.of_digits hall)

end Lexeme

/-- At the end of a script a numeral is one token, or none if its value is too large. -/
theorem Lexer.scan_numeral {depth : Nat} {here : Position} {seen : List Token} {cs : List Char}
    (h : Word.isNumeral cs = true) :
    scan depth here seen cs =
      match Word.narrow? (Word.numeralValue cs) with
      | some n => .ok ⟨(⟨.literal (.int n), here⟩ :: seen).reverse, here.after cs⟩
      | none => .error ⟨here, .integerTooLarge (String.ofList (Word.numeralDigits cs))⟩ := by
  have hmeans := means_numeral h
  rw [numberKind_numeral h] at hmeans
  obtain ⟨d, ds, rfl, hd, -⟩ := Word.exists_cons_of_isNumeral h
  have hlongest := longest_nil (d :: ds)
  have hgap : gap depth false (d :: ds) = ([], d :: ds) :=
    gap_of_begins (Begins.of_isOperand (k := .literal .none) rfl (.inl hd)) nofun
  rw [scan_lexeme (congrArg Prod.snd hgap), hgap]
  cases hvalue : Word.narrow? (Word.numeralValue (d :: ds)) with
  | none =>
    rw [hvalue] at hmeans
    have hoffends := Offends.number hmeans hlongest
    rw [List.append_nil] at hoffends
    rw [cut_of_offends hoffends]
    rfl
  | some n =>
    rw [hvalue] at hmeans
    have hcut := cut_of_longest hmeans hlongest
    rw [List.append_nil] at hcut
    rw [hcut]
    exact scan_end rfl

namespace Builtin

theorem int_str_eq (s : String) :
    int [.str s] = match integerOfText? s with
      | some n => .ok (.int n)
      | none => .error (.badInteger s) := rfl

theorem int_str_eq_ok_iff {s : String} {n : Int64} :
    int [.str s] = .ok (.int n) ↔ integerOfText? s = some n := by
  rw [int_str_eq]
  cases integerOfText? s <;> simp [Value.int]

theorem exists_int_str_eq_error_iff {s : String} :
    (∃ e, int [.str s] = .error e ∧ e.kind = .valueError) ↔ integerOfText? s = none := by
  rw [int_str_eq]
  cases integerOfText? s <;> simp [RuntimeError.kind]

/-- **Converting undoes printing, and agrees with reading.**  What is printed for a number is
converted to that number, with any white space around it.  A numeral is one token of a script if and
only if it can be converted, and to the number that the token means: its value without the
underscores.  Both readers refuse it if no word has that value, and that is the only reason. -/
theorem int_inverts_str (v : Int64) {before after numeral : String}
    (hbefore : Text.isBlank before = true) (hafter : Text.isBlank after = true)
    (hnumeral : Word.isNumeral numeral.toList = true) :
    (∃ shown, str [.int v] = .ok (.str shown) ∧
      int [.str (before ++ shown ++ after)] = .ok (.int v)) ∧
    (∀ n, (∃ place stop, TokenStream.ofText numeral = .ok ⟨[⟨.literal (.int n), place⟩], stop⟩) ↔
      int [.str numeral] = .ok (.int n)) ∧
    ((∃ e, TokenStream.ofText numeral = .error e) ↔
      ∃ e, int [.str numeral] = .error e ∧ e.kind = .valueError) ∧
    (∀ e, TokenStream.ofText numeral = .error e → e.position = .start ∧
      e.cause = .integerTooLarge (String.ofList (Word.numeralDigits numeral.toList))) ∧
    ∀ n, int [.str numeral] = .ok (.int n) ↔ n.toInt = Word.numeralValue numeral.toList := by
  have hlex : TokenStream.ofText numeral = _ := scan_numeral hnumeral
  have hint := integerOfText?_numeral hnumeral
  simp only [int_str_eq_ok_iff, exists_int_str_eq_error_iff, hint]
  refine ⟨⟨Word.text v, rfl, ?_⟩, fun n => ?_, ?_, fun e he => ?_, fun n => ?_⟩
  · exact integerOfText?_text v hbefore hafter
  · rw [hlex]
    cases Word.narrow? (Word.numeralValue numeral.toList) <;> simp
  · rw [hlex]
    cases Word.narrow? (Word.numeralValue numeral.toList) <;> simp
  · rw [hlex] at he
    cases hvalue : Word.narrow? (Word.numeralValue numeral.toList) with
    | some n => simp [hvalue] at he
    | none =>
      rw [hvalue] at he
      cases he
      exact ⟨rfl, rfl⟩
  · exact Word.narrow?_eq_some_iff

/-- The least number with white space of several sorts around it, and the greatest with
underscores. -/
theorem int_inverts_str_extremes :
    Text.isBlank "\u2003\u0085" = true ∧ Text.isBlank "\u00a0\n" = true ∧
      Word.isNumeral "9_223_372_036_854_775_807_".toList = true ∧
      int [.str ("\u2003\u0085" ++ "-9223372036854775808" ++ "\u00a0\n")] =
        .ok (.int Int64.minValue) ∧
      ∃ place stop, TokenStream.ofText "9_223_372_036_854_775_807_" =
        .ok ⟨[⟨.literal (.int Int64.maxValue), place⟩], stop⟩ := by
  have hbefore : Text.isBlank "\u2003\u0085" = true := by decide
  have hafter : Text.isBlank "\u00a0\n" = true := by decide
  have hnumeral : Word.isNumeral "9_223_372_036_854_775_807_".toList = true := by decide
  have hshown : str [.int Int64.minValue] = .ok (.str "-9223372036854775808") := by decide
  have hvalue : Int64.maxValue.toInt =
      Word.numeralValue "9_223_372_036_854_775_807_".toList := by decide
  obtain ⟨⟨shown, hshown', hprinted⟩, htoken, -, -, hword⟩ :=
    int_inverts_str Int64.minValue hbefore hafter hnumeral
  cases hshown.symm.trans hshown'
  exact ⟨hbefore, hafter, hnumeral, hprinted, (htoken _).mpr ((hword _).mpr hvalue)⟩

end Builtin

/-! ## Decimals in scripts -/

/-- The tokens that the decimal of a number is made of, and the expression that they make.  A
negative number is the opposite of a literal. -/
inductive Word.Written : Int64 → List TokenKind → Expr → Prop
  | plain {n : Int64} (h : 0 ≤ n.toInt) : Written n [.literal (.int n)] (.constant (.int n))
  | negative {n m : Int64} (h : 0 < m.toInt) (hn : Word.neg? m = some n) :
      Written n [.operator .sub, .literal (.int m)] (.unary .neg (.constant (.int m)))

namespace Word.Written

variable {n : Int64} {ks : List TokenKind} {e : Expr}

/-- Every number but the least is written: if it is negative, its opposite is a word. -/
theorem exists_of_ne (h : n ≠ Int64.minValue) : ∃ ks e, Written n ks e := by
  by_cases hpos : 0 ≤ n.toInt
  · exact ⟨_, _, .plain hpos⟩
  · have hlow : n.toInt ≠ Int64.minValue.toInt := fun heq => h (Int64.toInt_inj.mp heq)
    have hleast : Int64.minValue.toInt = -0x8000000000000000 := rfl
    have hlow' := n.le_toInt
    obtain ⟨m, hm⟩ : ∃ m, narrow? (-n.toInt) = some m := by
      rw [← Option.ne_none_iff_exists', ne_eq, narrow?_eq_none_iff]
      omega
    have hvalue := toInt_of_narrow?_eq_some hm
    refine ⟨_, _, .negative (m := m) (by omega) ?_⟩
    rw [neg?, hvalue, Int.neg_neg, narrow?_toInt]

theorem spelling_eq (h : Written n ks e) :
    ks.flatMap TokenKind.spelling = decimal n.toInt := by
  cases h with
  | plain => exact List.append_nil _
  | @negative m hpos hn =>
    have hvalue : n.toInt = -m.toInt := toInt_of_narrow?_eq_some hn
    show '-' :: (decimal m.toInt ++ []) = _
    rw [decimal, decimal, if_neg (by omega), if_pos (by omega), hvalue, Int.natAbs_neg,
      List.append_nil]

theorem spellable (h : Written n ks e) : ∀ k ∈ ks, k.Spellable := by
  cases h with
  | plain hpos => exact List.forall_mem_singleton.mpr hpos
  | negative hpos => exact List.forall_mem_cons.mpr ⟨trivial, List.forall_mem_singleton.mpr hpos.le⟩

theorem arranged (h : Written n ks e) : Arranged 0 ks := by
  cases h with
  | plain => exact arranged_operand rfl (by simp) trivial
  | negative => exact arranged_of_standsAlone rfl (arranged_operand rfl (by simp) trivial)

open StackScript.Parser in
theorem readExpression_eq (h : Written n ks e) {stop : Position} {ts : List Token}
    (hts : ts.map Token.kind = ks) : readExpression stop maxNesting 0 ts = .ok (e, []) := by
  cases h with
  | plain =>
    obtain ⟨p, none, rfl, hnone⟩ := Token.exists_cons_of_map_kind hts
    obtain rfl := List.map_eq_nil_iff.mp hnone
    rw [readExpression_literal, readChain_of_ends ends_nil]
  | negative =>
    obtain ⟨p, digits, rfl, hdigits⟩ := Token.exists_cons_of_map_kind hts
    obtain ⟨q, none, rfl, hnone⟩ := Token.exists_cons_of_map_kind hdigits
    obtain rfl := List.map_eq_nil_iff.mp hnone
    obtain ⟨levels, hlevels⟩ : ∃ levels, maxNesting = levels + 1 := ⟨199, rfl⟩
    rw [hlevels, readExpression_sign rfl, readExpression_literal, readChain_of_ends ends_nil]
    exact readChain_of_ends ends_nil

theorem unary_neg_eq {n m : Int64} (h : neg? m = some n) :
    Arithmetic.unary .neg (.int m) = .ok (.int n) := by
  rw [Arithmetic.unary_neg_of_integer rfl]
  exact congrArg (Arithmetic.checked "-") h

theorem eval_eq (h : Written n ks e) (table : BuiltinTable) : e.eval table = pure (.int n) := by
  cases h with
  | plain => rw [Expr.eval]; rfl
  | negative _ hn =>
    rw [Expr.eval, Expr.eval, pure_bind, Evaluation.unary, unary_neg_eq hn]
    rfl

/-- What is optimised is the same or a literal. -/
theorem optimize_eq (h : Written n ks e) (target : String) (options : OptimizeOptions) :
    Script.optimize options [.assign target e] = [.assign target e] ∨
      Script.optimize options [.assign target e] = [.assign target (.constant (.int n))] := by
  obtain ⟨pairs, peephole, deep⟩ := options
  cases h with
  | plain => cases pairs <;> cases deep <;> exact .inl rfl
  | @negative m _ hn =>
    -- The cheap pass looks at binary operators only, so the thorough one alone folds a sign.
    have hdeep : (Expr.unary .neg (.constant (.int m))).foldDeep.1 = .constant (.int n) := by
      simp [Expr.foldDeep, foldUnary, Expr.constant?, unary_neg_eq hn]
    cases deep with
    | false => cases pairs <;> exact .inl rfl
    | true =>
      right
      cases pairs <;>
        simp [Script.optimize, Script.foldPairs, Script.replace, Stmt.replace, Expr.replace,
          foldPair?, Script.foldDeep, Stmt.foldDeep, hdeep]

/-- Whatever is switched on, an assignment of a number is compiled. -/
theorem exists_compile (h : Written n ks e) (target filename : String)
    (options : OptimizeOptions) :
    ∃ code, Script.compile options filename [.assign target e] = .ok code := by
  have hlower : ∃ code, (Script.optimize options [.assign target e]).lower filename = .ok code := by
    rcases h.optimize_eq target options with heq | heq
    · rw [heq]
      cases h <;> exact ⟨_, rfl⟩
    · rw [heq]
      exact ⟨_, rfl⟩
  obtain ⟨code, hcode⟩ := hlower
  simp only [Script.compile, Script.compileWith, Code.peephole, ite_self, hcode]
  exact ⟨code, rfl⟩

end Word.Written

namespace Lexer

/-- A blank in front changes nothing but the place. -/
theorem scan_blank {depth : Nat} {here : Position} {seen : List Token} {c : Char} {cs : List Char}
    (hc : isBlank c = true) :
    scan depth here seen (c :: cs) = scan depth (here.next c) seen cs := by
  have hline : c ≠ '\n' := ne_of_test hc (by decide)
  have hgap : gap depth false (c :: cs) = keep [c] (gap depth false cs) := by
    rw [gap.eq_def]
    simp [hline, hc]
  cases hrest : (gap depth false cs).2 with
  | nil =>
    rw [scan_end hrest, scan_end (by rw [hgap]; exact hrest), Position.after_cons]
  | cons d ds =>
    rw [scan_lexeme hrest, scan_lexeme (by rw [hgap]; exact hrest), hgap]
    rfl

end Lexer

/-- The name and the sign of an assignment are read, and then its value. -/
theorem TokenStream.ofText_assignment (s : String) :
    TokenStream.ofText ("x = " ++ s) =
      scan 0 ⟨1, 5⟩ [⟨.equals, ⟨1, 3⟩⟩, ⟨.name "x", ⟨1, 1⟩⟩] s.toList := by
  have hsource : ("x = " ++ s).toList = 'x' :: ' ' :: '=' :: ' ' :: s.toList := by
    rw [String.toList_append]
    rfl
  have hname : ∀ cs, cut 'x' (' ' :: cs) = .ok ⟨.name "x", ['x'], ' ' :: cs⟩ := fun _ => rfl
  have hequals : ∀ cs, cut '=' cs = .ok ⟨.equals, ['='], cs⟩ := fun _ => rfl
  rw [TokenStream.ofText, hsource, scan_lexeme rfl, hname]
  dsimp only
  rw [scan_blank rfl, scan_lexeme rfl, hequals]
  dsimp only
  rw [scan_blank rfl]
  rfl

namespace Script

/-- The decimal of a number is read as an expression. -/
theorem ofText_written {n : Int64} {ks : List TokenKind} {e : Expr} (h : Word.Written n ks e) :
    Script.ofText ("x = " ++ Word.text n) = .ok [.assign "x" e] := by
  obtain ⟨ts, stop, hscan, hkinds⟩ := @scan_spelling ks 0 ⟨1, 5⟩
    [⟨.equals, ⟨1, 3⟩⟩, ⟨.name "x", ⟨1, 1⟩⟩] h.spellable h.arranged
  have hread : Parser.readStatement stop (⟨.name "x", ⟨1, 1⟩⟩ :: ⟨.equals, ⟨1, 3⟩⟩ :: ts) =
      .ok (.assign "x" e, []) := by
    rw [Parser.readStatement_assign, h.readExpression_eq hkinds]
    rfl
  rw [Script.ofText, TokenStream.ofText_assignment, Word.text, String.toList_ofList,
    ← h.spelling_eq, hscan]
  exact Parser.statements_last hread

/-- The digits of the least number are no literal. -/
theorem ofText_least : Script.ofText ("x = " ++ Word.text Int64.minValue) =
    .error ⟨⟨1, 6⟩, .integerTooLarge "9223372036854775808"⟩ := by
  have hdecimal : Word.decimal Int64.minValue.toInt =
      (TokenKind.operator .sub).spelling ++ Word.digits 0x8000000000000000 := rfl
  have hnone : Word.narrow? (Word.numeralValue (Word.digits 0x8000000000000000)) = none := by
    rw [Word.numeralValue, Word.numeralDigits_digits, valueOfDigits_digits]
    rfl
  have hdigits : String.ofList (Word.digits 0x8000000000000000) = "9223372036854775808" := by
    decide
  have hminus : ∀ rest, Cuts (.operator .sub) rest := fun _ =>
    cuts_operator .sub fun h => absurd h (by decide)
  rw [Script.ofText, TokenStream.ofText_assignment, Word.text, String.toList_ofList, hdecimal,
    scan_cuts (hminus _) fun _ => rfl, scan_numeral (Word.isNumeral_digits _), hnone,
    Word.numeralDigits_digits, hdigits]
  rfl

/-- A script that assigns an expression with a value binds the name to it. -/
theorem perform_assign {e : Expr} {v : Value} {table : BuiltinTable}
    (h : e.eval table = pure v) (target : String) (state : State) :
    Script.perform table [.assign target e] state.scope =
      { state with globals := state.globals.set target v : State }.scope.flushed (.ok .none) := by
  have heval : (Script.eval table [.assign target e]).start state.scope =
      (.ok (), { state with globals := state.globals.set target v : State }.scope) := by
    rw [Script.eval, Script.eval, Stmt.eval, h, State.scope_set]
    rfl
  rw [Script.perform, heval]
  rfl

/-- **A number can be written where it was printed, unless it is the least.**  Whatever is switched
on, a script that assigns what is printed for a number is read and compiled, and running it binds
the name to that number and does nothing else, for all bindings, builtins and sinks to begin with:
every other name keeps its value, and the output is flushed.  The least number is the only one that
this fails for. -/
theorem assigns_decimal (v : Int64) (options : OptimizeOptions) (filename : String) :
    (∃ shown script code, Builtin.str [.int v] = .ok (.str shown) ∧
      Script.ofText ("x = " ++ shown) = .ok script ∧
      script.compile options filename = .ok code ∧
      ∀ table state, ∃ bound : Globals,
        Machine.execute table code state =
          Machine.flushed (.ok .none) { state with globals := bound } ∧
        bound.get? "x" = some (.int v) ∧
        ∀ other, other ≠ "x" → bound.get? other = state.globals.get? other) ↔
    v ≠ Int64.minValue := by
  constructor
  · rintro ⟨shown, script, code, hshown, hscript, -⟩ rfl
    cases hshown
    cases ofText_least.symm.trans hscript
  · intro hv
    obtain ⟨ks, e, hwritten⟩ := Word.Written.exists_of_ne hv
    obtain ⟨code, hcode⟩ := hwritten.exists_compile "x" filename options
    refine ⟨Word.text v, [.assign "x" e], code, rfl, ofText_written hwritten, hcode, ?_⟩
    intro table state
    refine ⟨state.globals.set "x" (.int v), ?_, state.globals.get?_set_self "x" _,
      fun other hother => state.globals.get?_set_of_ne hother _⟩
    refine State.outcome_eq ?_
    rw [Machine.execute_compile table hcode, perform_assign (hwritten.eval_eq table),
      State.scope_flushed]

/-- **The least number cannot be written where it was printed**: what is printed for it is refused
for its digits, although a minus sign stands before them. -/
theorem least_decimal_refused :
    Builtin.str [.int Int64.minValue] = .ok (.str "-9223372036854775808") ∧
      Script.ofText ("x = " ++ "-9223372036854775808") =
        .error ⟨⟨1, 6⟩, .integerTooLarge "9223372036854775808"⟩ := by
  have htext : Word.text Int64.minValue = "-9223372036854775808" := by decide
  rw [← htext]
  exact ⟨rfl, ofText_least⟩

end Script

end StackScript
