import StackScript.Code.Listing
import StackScript.Proofs.Decimals
import StackScript.Proofs.Lowering.Canonical
import StackScript.Proofs.Quoting
import StackScript.Proofs.Script.Words

/-!
# A listing tells which code it lists

Two scripts that are compiled under one name have the same listing only if they have the same code
(`listing_faithful`).  A listing does not show the tables.  It shows entries of them, one at a time
and where an instruction refers to them, so three things have to be true.

## 1.  The text falls apart in one way

Lines end where a line feed stands, because nothing that is written into a line contains one: texts
are quoted, names are words, numbers are digits and signs (`Listing.splitOn_listing`).  A line falls
into its fields because an instruction has no blank in its name, a column has blanks in front of its
digits and no digit behind them, and the parenthesis that is closed last closes what an operand
points to (`Listing.instruction_inj`).

## 2.  A field has one meaning

The text of a constant shows of which kind it is (`Listing.shownType_constant`).  Only a quoted text
begins with a quote; the three words are of letters that no number has; the text of a double, be it
finite or not, has a character that is neither a digit nor a sign, and that of a whole number has
none.  Within its kind a constant is known from its text.  For doubles this is the one thing that is
taken for granted here: that what is printed of two of them differs if they do.  It cannot be had
for doubles that are no number, which all have one text.  So it is assumed up to them in one of two
statements, and code is then known up to them (`Code.SameUpTo`).

## 3.  Nothing is out of sight

Every entry of a table of compiled code is referred to by some instruction, and every reference is
in range (`Script.compiled_of_compile`).  So where the instructions agree, and the entries that
they refer to, the tables are as long as each other and agree everywhere
(`NumberedByUse.forall₂_table`).
-/

namespace StackScript

open Lexer (isPlain isDigit_digits ne_of_test)

/-! ## Up to what is no number -/

/-- Two doubles are the same, or neither is a number. -/
def Double.SameNumber (x y : Double) : Prop := x = y ∨ (x.isNaN = true ∧ y.isNaN = true)

/-- Two constants are the same, doubles as far as a relation between them goes. -/
inductive Constant.SameUpTo (same : Double → Double → Prop) : Constant → Constant → Prop
  | refl (k : Constant) : SameUpTo same k k
  | float {x y : Double} (h : same x y) : SameUpTo same (.float x) (.float y)

theorem Constant.SameUpTo.eq {a b : Constant} (h : a.SameUpTo Eq b) : a = b := by
  cases h with
  | refl => rfl
  | float h => rw [h]

/-- Two code objects are the same, doubles as far as a relation between them goes. -/
structure Code.SameUpTo (same : Double → Double → Prop) (c d : Code) : Prop where
  /-- They have one name. -/
  filename : c.filename = d.filename
  /-- Their constants are the same one by one. -/
  constants : List.Forall₂ (Constant.SameUpTo same) c.constants d.constants
  /-- They have the same names. -/
  names : c.names = d.names
  /-- They have the same instructions. -/
  instructions : c.instructions = d.instructions

theorem Code.SameUpTo.eq {c d : Code} (h : c.SameUpTo Eq d) : c = d := by
  have hconstants : c.constants = d.constants := by
    rw [← List.forall₂_eq_eq_eq]
    exact h.constants.imp fun _ _ => Constant.SameUpTo.eq
  obtain ⟨_, _, _, _⟩ := c
  obtain ⟨_, _, _, _⟩ := d
  cases h.filename
  cases hconstants
  cases h.names
  cases h.instructions
  rfl

/-! ## Numbers -/

namespace FloatText

/-- The characters that the texts of doubles are made of. -/
theorem forall_mem_render (x : Double) :
    ∀ c ∈ render x, isPlain c = true ∨ c ∈ ['N', 'a', 'i', 'n', 'f'] := by
  unfold render
  split
  · simp [isPlain]
  · split <;> simp [isPlain]
  · next negative m q _ =>
    have hplain := (Lexer.isFractionalNumber_magnitude m q).isPlain
    intro c hc
    dsimp only at hc
    split at hc
    · rcases List.mem_cons.mp hc with rfl | hc
      · exact .inl rfl
      · exact .inl (hplain c hc)
    · exact .inl (hplain c hc)

/-- The text of a double is never that of a whole number. -/
theorem exists_mem_render (x : Double) : ∃ c ∈ render x, (c.isDigit || c == '-') = false := by
  unfold render
  split
  · exact ⟨'N', by decide⟩
  · exact ⟨'i', by split <;> decide⟩
  · next negative m q _ =>
    obtain ⟨d, ds, part, hmagnitude, -, hpart⟩ := Lexer.isFractionalNumber_magnitude m q
    have hmark : ∃ c ∈ part, (c.isDigit || c == '-') = false := by
      cases hpart with
      | point | both => exact ⟨'.', List.mem_cons_self, rfl⟩
      | exponent => exact ⟨'e', List.mem_cons_self, rfl⟩
    obtain ⟨c, hc, htest⟩ := hmark
    have hmem : c ∈ d :: (ds ++ part) := .tail d (List.mem_append_right ds hc)
    dsimp only
    rw [hmagnitude]
    split
    · exact ⟨c, .tail '-' hmem, htest⟩
    · exact ⟨c, hmem, htest⟩

theorem not_mem_render {x : Double} {c : Char} (hplain : isPlain c = false)
    (hletters : c ∉ ['N', 'a', 'i', 'n', 'f']) : c ∉ render x := by
  intro hc
  rcases forall_mem_render x c hc with h | h
  · exact Bool.false_ne_true (hplain.symm.trans h)
  · exact hletters h

end FloatText

theorem Word.isDigit_or_of_mem_decimal (n : Int) :
    ∀ c ∈ decimal n, (c.isDigit || c == '-') = true := by
  have hdigits : ∀ c ∈ digits n.natAbs, (c.isDigit || c == '-') = true := fun c hc => by
    rw [isDigit_digits _ c hc, Bool.true_or]
  unfold decimal
  split
  · exact List.forall_mem_cons.mpr ⟨rfl, hdigits⟩
  · exact hdigits

theorem Word.text_injective {v w : Int64} (h : Word.text v = Word.text w) : v = w := by
  have hdecimal : decimal v.toInt = decimal w.toInt := by
    have hlist := congrArg String.toList h
    rwa [text, text, String.toList_ofList, String.toList_ofList] at hlist
  have hread := ofDecimal?_decimal v
  rw [hdecimal, ofDecimal?_decimal] at hread
  exact (Option.some.inj hread).symm

namespace Listing

/-! ## Constants -/

/-- The kind of the constant that a text in a listing shows. -/
def shownType (cs : List Char) : String :=
  if cs.head? = some '"' then "str"
  else if cs = "None".toList then "NoneType"
  else if cs = "True".toList ∨ cs = "False".toList then "bool"
  else if cs.all fun c => c.isDigit || c == '-' then "int"
  else "float"

theorem shownType_of_chars {cs : List Char} (hquote : '"' ∉ cs) (ho : 'o' ∉ cs) (hT : 'T' ∉ cs)
    (hF : 'F' ∉ cs) : shownType cs =
      if cs.all fun c => c.isDigit || c == '-' then "int" else "float" := by
  have hhead : cs.head? ≠ some '"' := fun h => hquote (List.mem_of_head? h)
  have hnone : cs ≠ "None".toList := by rintro rfl; exact ho (by decide)
  have hbool : ¬ (cs = "True".toList ∨ cs = "False".toList) := by
    rintro (rfl | rfl)
    · exact hT (by decide)
    · exact hF (by decide)
  rw [shownType, if_neg hhead, if_neg hnone, if_neg hbool]

theorem toList_constant_int (n : Int64) :
    (constant (some (.int n))).toList = Word.decimal n.toInt := String.toList_ofList

theorem toList_constant_float (x : Double) :
    (constant (some (.float x))).toList = FloatText.render x := String.toList_ofList

theorem toList_constant_str (s : String) :
    (constant (some (.str s))).toList = (Text.quote s).toList := rfl

/-- The text of a constant shows its kind. -/
theorem shownType_constant (k : Constant) :
    shownType (constant (some k)).toList = k.typeName := by
  cases k with
  | none => decide
  | bool b => cases b <;> decide
  | int n =>
    have hdigits := Word.isDigit_or_of_mem_decimal n.toInt
    have hnot : ∀ c : Char, (c.isDigit || c == '-') = false → c ∉ Word.decimal n.toInt :=
      fun c hc hmem => Bool.false_ne_true (hc.symm.trans (hdigits c hmem))
    rw [toList_constant_int, shownType_of_chars (hnot _ rfl) (hnot _ rfl) (hnot _ rfl) (hnot _ rfl),
      if_pos (List.all_eq_true.mpr hdigits)]
    rfl
  | float x =>
    obtain ⟨c, hc, htest⟩ := FloatText.exists_mem_render x
    have hall : ¬ ((FloatText.render x).all fun c => c.isDigit || c == '-') = true := by
      intro h
      exact Bool.false_ne_true (htest.symm.trans (List.all_eq_true.mp h c hc))
    rw [toList_constant_float, shownType_of_chars (FloatText.not_mem_render rfl (by decide))
      (FloatText.not_mem_render rfl (by decide)) (FloatText.not_mem_render rfl (by decide))
      (FloatText.not_mem_render rfl (by decide)), if_neg hall]
    rfl
  | str s =>
    rw [toList_constant_str, Text.toList_quote]
    exact if_pos rfl

/-- A constant is known from its text, as far as a double is. -/
theorem constant_inj {same : Double → Double → Prop} {a b : Constant}
    (hfloat : ∀ x y, a = .float x → b = .float y → FloatText.text x = FloatText.text y → same x y)
    (h : constant (some a) = constant (some b)) : a.SameUpTo same b := by
  have htype : a.typeName = b.typeName := by
    rw [← shownType_constant a, h, shownType_constant b]
  cases a <;> cases b <;> simp only [Constant.typeName, String.reduceEq] at htype
  case none.none => exact .refl _
  case bool.bool p q => cases p <;> cases q <;> first | exact .refl _ | exact absurd h (by decide)
  case int.int n m =>
    obtain rfl := Word.text_injective h
    exact .refl _
  case float.float x y => exact .float (hfloat x y rfl rfl h)
  case str.str s t =>
    have hquote : (Text.quote s).toList ++ [] = (Text.quote t).toList ++ [] :=
      congrArg (fun u : String => u.toList ++ []) h
    obtain rfl := (Text.quote_append_inj hquote).1
    exact .refl _

theorem newline_not_mem_constant : ∀ k : Option Constant, '\n' ∉ (constant k).toList
  | none => by decide
  | some .none => by decide
  | some (.bool true) => by decide
  | some (.bool false) => by decide
  | some (.int n) => by
      rw [toList_constant_int]
      exact fun h => absurd (Word.isDigit_or_of_mem_decimal _ _ h) (by decide)
  | some (.float x) => by
      rw [toList_constant_float]
      exact FloatText.not_mem_render rfl (by decide)
  | some (.str s) => Text.newline_not_mem_quote s

/-! ## Columns -/

theorem toList_column (width n : Nat) :
    (column width n).toList =
      List.replicate (width - (Word.natText n).length) ' ' ++ Word.digits n := by
  rw [column, padLeft, String.toList_append, String.toList_ofList, Word.natText,
    String.toList_ofList]

theorem newline_not_mem_column (width n : Nat) : '\n' ∉ (column width n).toList := by
  rw [toList_column, List.mem_append, List.mem_replicate]
  rintro (⟨-, h⟩ | h)
  · exact absurd h (by decide)
  · exact absurd (isDigit_digits n _ h) (by decide)

/-- A number is known from its column, whatever stands behind that but more digits. -/
theorem column_append_inj {width n m : Nat} {xs ys : List Char}
    (h : (column width n).toList ++ xs = (column width m).toList ++ ys)
    (hxs : ∀ c ∈ xs.head?, c.isDigit = false) (hys : ∀ c ∈ ys.head?, c.isDigit = false) :
    n = m ∧ xs = ys := by
  have hblanks : ∀ k, ∀ c ∈ List.replicate k ' ', (c == ' ') = true := fun k c hc =>
    beq_iff_eq.mpr (List.eq_of_mem_replicate hc)
  have hstop : ∀ k (zs : List Char), ∀ c ∈ (Word.digits k ++ zs).head?, (c == ' ') = false := by
    intro k zs c hc
    obtain ⟨d, ds, hds, hd⟩ := Lexer.exists_digits_cons k
    rw [hds] at hc
    cases hc
    exact beq_eq_false_iff_ne.mpr (ne_of_test hd rfl)
  rw [toList_column, toList_column, List.append_assoc, List.append_assoc] at h
  obtain ⟨-, hdigits⟩ := Text.append_inj_of_test h (hblanks _) (hblanks _) (hstop n xs) (hstop m ys)
  obtain ⟨hnumber, hrest⟩ :=
    Text.append_inj_of_test hdigits (isDigit_digits n) (isDigit_digits m) hxs hys
  refine ⟨?_, hrest⟩
  rw [← Lexer.valueOfDigits_digits n, hnumber, Lexer.valueOfDigits_digits]

/-! ## Instructions -/

/-- The name of an instruction. -/
def operation : Instr → String
  | .loadConst _ => "LOAD_CONST"
  | .loadName _ => "LOAD_NAME"
  | .storeName _ => "STORE_NAME"
  | .binary _ => "BINARY_OP"
  | .unary .neg => "UNARY_NEGATIVE"
  | .unary .pos => "UNARY_POSITIVE"
  | .call _ => "CALL"
  | .pop => "POP_TOP"
  | .ret => "RETURN_VALUE"

/-- What stands behind the name of an instruction. -/
def operands (code : Code) : Instr → String
  | .loadConst i => s!"    {operand i} ({constant (code.constant? i)})"
  | .loadName i => s!"     {operand i} ({name (code.name? i)})"
  | .storeName i => s!"    {operand i} ({name (code.name? i)})"
  | .binary op => s!"          ({op.symbol})"
  | .call n => s!"          {operand n}"
  | _ => ""

theorem append_pointing (op blanks operand shown : String) :
    op ++ blanks ++ operand ++ " (" ++ shown ++ ")" =
      op ++ (blanks ++ operand ++ " (" ++ shown ++ ")") := by
  simp only [String.append_assoc]

/-- The line of an instruction is its name and what stands behind that. -/
theorem instruction_eq (code : Code) (i : Instr) :
    instruction code i = operation i ++ operands code i := by
  cases i with
  | loadConst index => exact append_pointing "LOAD_CONST" "    " _ _
  | loadName index => exact append_pointing "LOAD_NAME" "     " _ _
  | storeName index => exact append_pointing "STORE_NAME" "    " _ _
  | binary op =>
    have hsplit : "BINARY_OP" ++ "          (" ++ op.symbol ++ ")" =
        "BINARY_OP" ++ ("          (" ++ op.symbol ++ ")") := by simp only [String.append_assoc]
    exact hsplit
  | unary op => cases op <;> exact String.append_empty.symm
  | call count => exact @String.append_assoc "CALL" "          " _
  | pop | ret => exact String.append_empty.symm

theorem blank_of_head_operands (code : Code) (i : Instr) :
    ∀ c ∈ (operands code i).toList.head?, (c != ' ') = false := by
  cases i with
  | unary | pop | ret => simp [operands]
  | _ => simp [operands, toString, String.toList_append]

theorem ne_of_mem_operation (i : Instr) :
    ∀ c ∈ (operation i).toList, (c != ' ') = true ∧ c ≠ '\n' := by
  cases i with
  | unary op => cases op <;> simp [operation]
  | _ => simp [operation]

theorem operation_and_operands_inj {code code' : Code} {i j : Instr}
    (h : instruction code i = instruction code' j) :
    operation i = operation j ∧ operands code i = operands code' j := by
  have hlist := congrArg String.toList h
  rw [instruction_eq, instruction_eq, String.toList_append, String.toList_append] at hlist
  obtain ⟨hop, hrest⟩ := Text.append_inj_of_test hlist
    (fun c hc => (ne_of_mem_operation i c hc).1) (fun c hc => (ne_of_mem_operation j c hc).1)
    (blank_of_head_operands code i) (blank_of_head_operands code' j)
  exact ⟨String.toList_inj.mp hop, String.toList_inj.mp hrest⟩

/-- An operand and what it points to are known from what shows them. -/
theorem pointing_inj {blanks shown shown' : String} {a b : UInt32}
    (h : blanks ++ operand a ++ " (" ++ shown ++ ")" =
      blanks ++ operand b ++ " (" ++ shown' ++ ")") : a = b ∧ shown = shown' := by
  have hlist := congrArg String.toList h
  simp only [String.toList_append, List.append_assoc, operand] at hlist
  obtain ⟨hnumber, hrest⟩ :=
    column_append_inj (List.append_cancel_left hlist) (by simp) (by simp)
  have hshown := List.append_cancel_right (List.append_cancel_left hrest)
  exact ⟨UInt32.toNat_inj.mp hnumber, String.toList_inj.mp hshown⟩

theorem shown_inj {opening shown shown' : String}
    (h : opening ++ shown ++ ")" = opening ++ shown' ++ ")") : shown = shown' := by
  rw [String.append_left_inj, String.append_right_inj] at h
  exact h

theorem operand_inj {blanks : String} {a b : UInt32}
    (h : blanks ++ operand a = blanks ++ operand b) : a = b := by
  rw [String.append_right_inj] at h
  have hlist : (operand a).toList ++ [] = (operand b).toList ++ [] := by rw [h]
  exact UInt32.toNat_inj.mp (column_append_inj hlist (by simp) (by simp)).1

/-- **An instruction is known from its line**, and so are the texts of what it points to. -/
theorem instruction_inj {code code' : Code} {i j : Instr}
    (h : instruction code i = instruction code' j) :
    i = j ∧
      (∀ k, i.constantRef? = some k →
        constant code.constants[k]? = constant code'.constants[k]?) ∧
      ∀ k, i.nameRef? = some k → name code.names[k]? = name code'.names[k]? := by
  obtain ⟨hop, hrest⟩ := operation_and_operands_inj h
  -- The names tell instructions of different kinds apart, which leaves the pairs of one kind.
  rcases i with _ | _ | _ | _ | (_ | _) | _ | _ | _ <;>
    rcases j with _ | _ | _ | _ | (_ | _) | _ | _ | _ <;>
      simp only [operation, String.reduceEq] at hop
  case loadConst.loadConst a b =>
    obtain ⟨rfl, hshown⟩ := pointing_inj hrest
    refine ⟨rfl, ?_, nofun⟩
    rintro k ⟨⟩
    exact hshown
  case loadName.loadName a b | storeName.storeName a b =>
    obtain ⟨rfl, hshown⟩ := pointing_inj hrest
    refine ⟨rfl, nofun, ?_⟩
    rintro k ⟨⟩
    exact hshown
  case binary.binary a b =>
    obtain rfl := BinaryOp.symbol_injective a b (shown_inj hrest)
    exact ⟨rfl, nofun, nofun⟩
  case call.call a b =>
    obtain rfl := operand_inj hrest
    exact ⟨rfl, nofun, nofun⟩
  all_goals exact ⟨rfl, nofun, nofun⟩

theorem newline_not_mem_name {code : Code} (hnames : ∀ word ∈ code.names, '\n' ∉ word.toList)
    (i : UInt32) : '\n' ∉ (name (code.name? i)).toList := by
  cases hword : code.name? i with
  | none => decide
  | some word => exact hnames word (List.mem_of_getElem? hword)

/-- An instruction has one line. -/
theorem newline_not_mem_instruction {code : Code}
    (hnames : ∀ word ∈ code.names, '\n' ∉ word.toList) (i : Instr) :
    '\n' ∉ (instruction code i).toList := by
  have hname := newline_not_mem_name hnames
  have hconstant := fun i => newline_not_mem_constant (code.constant? i)
  have hoperand : ∀ n, '\n' ∉ (operand n).toList := fun n => newline_not_mem_column 4 n.toNat
  rw [instruction_eq, String.toList_append, List.mem_append]
  rintro (h | h)
  · exact (ne_of_mem_operation i _ h).2 rfl
  · cases i with
    | binary op => cases op <;> simp [operands, BinaryOp.symbol, toString] at h
    | _ => simp [operands, toString, String.toList_append, hname, hconstant, hoperand] at h

/-! ## Lines -/

/-- The first line. -/
def heading (filename : String) : String := s!"code object for {filename}:"

/-- The line of an instruction without its end. -/
def row (code : Code) (offset : Nat) (i : Instr) : List Char :=
  (column 6 offset ++ "  ").toList ++ (instruction code i).toList

theorem toList_line (code : Code) (offset : Nat) (i : Instr) :
    (line code offset i).toList = row code offset i ++ ['\n'] := by
  simp [line, row, toString, String.toList_append]

theorem flatMap_lines (code : Code) (offset : Nat) (is : List Instr) :
    (lines code offset is).flatMap String.toList =
      (is.mapIdx fun n => row code (offset + n)).flatMap (· ++ ['\n']) := by
  induction is generalizing offset with
  | nil => rfl
  | cons i is ih =>
    rw [lines, List.flatMap_cons, toList_line, ih, List.mapIdx_cons, List.flatMap_cons]
    simp only [Nat.add_zero, Nat.add_assoc, Nat.add_comm 1]

/-- Lines that are all ended are lines with ends between them, the last one empty. -/
theorem intercalate_terminated (ls : List (List Char)) :
    ['\n'].intercalate (ls ++ [[]]) = ls.flatMap (· ++ ['\n']) := by
  induction ls with
  | nil => rfl
  | cons l ls ih =>
    have hne : ls ++ [[]] ≠ [] := List.append_ne_nil_of_right_ne_nil ls (List.cons_ne_nil _ _)
    rw [List.cons_append, List.intercalate_cons_of_ne_nil hne, ih, List.flatMap_cons]

/-- The lines of a listing, and the empty one behind its end. -/
theorem toList_listing (code : Code) : code.listing.toList = ['\n'].intercalate
    ((heading code.filename).toList :: code.instructions.mapIdx (row code) ++ [[]]) := by
  have hrows := flatMap_lines code 0 code.instructions
  simp only [Nat.zero_add] at hrows
  have hheading : s!"code object for {code.filename}:\n" = heading code.filename ++ "\n" :=
    (@String.append_assoc _ ":" "\n").symm
  rw [intercalate_terminated, Code.listing, String.toList_join, List.flatMap_cons, hrows,
    List.flatMap_cons, hheading, String.toList_append]
  rfl

theorem newline_not_mem_row {code : Code} (hnames : ∀ word ∈ code.names, '\n' ∉ word.toList)
    (offset : Nat) (i : Instr) : '\n' ∉ row code offset i := by
  simp [row, newline_not_mem_column, newline_not_mem_instruction hnames]

/-- **A listing has one line for each instruction**, and these are they. -/
theorem splitOn_listing {code : Code} (hfile : '\n' ∉ code.filename.toList)
    (hnames : ∀ word ∈ code.names, '\n' ∉ word.toList) : code.listing.toList.splitOn '\n' =
      (heading code.filename).toList :: code.instructions.mapIdx (row code) ++ [[]] := by
  have hheading : '\n' ∉ (heading code.filename).toList := by
    have htext : heading code.filename = "code object for " ++ code.filename ++ ":" := rfl
    rw [htext]
    simp [hfile]
  have hrows : ∀ l ∈ code.instructions.mapIdx (row code), '\n' ∉ l := by
    intro l hl
    obtain ⟨k, hk, rfl⟩ := List.mem_mapIdx.mp hl
    exact newline_not_mem_row hnames k _
  rw [toList_listing]
  refine List.splitOn_intercalate '\n' (fun l hl => ?_) (by simp)
  rcases List.mem_append.mp hl with hl | hl
  · rcases List.mem_cons.mp hl with rfl | hl
    · exact hheading
    · exact hrows l hl
  · rw [List.mem_singleton.mp hl]
    exact List.not_mem_nil

/-- Where two listings are one, the instructions are the same, and the constants and names that they
refer to look the same. -/
theorem instructions_of_listing_eq {c c' : Code} (hfile : '\n' ∉ c.filename.toList)
    (hsame : c'.filename = c.filename) (hnames : ∀ word ∈ c.names, '\n' ∉ word.toList)
    (hnames' : ∀ word ∈ c'.names, '\n' ∉ word.toList) (h : c.listing = c'.listing) :
    c.instructions = c'.instructions ∧ ∀ i ∈ c.instructions,
      (∀ k, i.constantRef? = some k → constant c.constants[k]? = constant c'.constants[k]?) ∧
      ∀ k, i.nameRef? = some k → name c.names[k]? = name c'.names[k]? := by
  have hsplit := splitOn_listing hfile hnames
  rw [h, splitOn_listing (hsame ▸ hfile) hnames', hsame] at hsplit
  have hrows := (List.cons.inj (List.append_cancel_right hsplit)).2
  have hlength : c.instructions.length = c'.instructions.length := by
    simpa using (congrArg List.length hrows).symm
  have hline : ∀ k (hk : k < c.instructions.length) (hk' : k < c'.instructions.length),
      instruction c c.instructions[k] = instruction c' c'.instructions[k] := by
    intro k hk hk'
    have hrow := congrArg (·[k]?) hrows
    simp only [List.getElem?_mapIdx, List.getElem?_eq_getElem hk, List.getElem?_eq_getElem hk',
      Option.map_some, Option.some.injEq, row] at hrow
    exact String.toList_inj.mp (List.append_cancel_left hrow).symm
  constructor
  · exact List.ext_getElem hlength fun k hk hk' => (instruction_inj (hline k hk hk')).1
  · intro i hi
    obtain ⟨k, hk, rfl⟩ := List.getElem_of_mem hi
    exact (instruction_inj (hline k hk (hlength ▸ hk))).2

end Listing

/-! ## Tables -/

/-- Two tables that go with the same code have the same size. -/
theorem NumberedByUse.size_le {ref : Instr → Option Nat} {code : List Instr} {n m : Nat}
    (h : NumberedByUse ref code n) (h' : NumberedByUse ref code m) : n ≤ m := by
  by_contra hlt
  obtain ⟨i, hi, href⟩ := h.used m (Nat.lt_of_not_le hlt)
  exact Nat.lt_irrefl m (h'.inRange i hi m href)

/-- Tables that go with the same code agree everywhere if they agree where the code refers to
them. -/
theorem NumberedByUse.forall₂_table {α : Type} {R : α → α → Prop} {ref : Instr → Option Nat}
    {code : List Instr} {as bs : List α} (has : NumberedByUse ref code as.length)
    (hbs : NumberedByUse ref code bs.length)
    (h : ∀ i ∈ code, ∀ k, ref i = some k → ∀ a b, as[k]? = some a → bs[k]? = some b → R a b) :
    List.Forall₂ R as bs := by
  refine List.forall₂_iff_get.mpr
    ⟨Nat.le_antisymm (has.size_le hbs) (hbs.size_le has), fun k hk hk' => ?_⟩
  obtain ⟨i, hi, href⟩ := has.used k hk
  exact h i hi k href _ _ (List.getElem?_eq_getElem hk) (List.getElem?_eq_getElem hk')

/-! ## The listing of compiled code -/

/-- What is known of code that a script was compiled to under some name. -/
structure Code.Compiled (identifier : String) (c : Code) : Prop where
  /-- It has that name. -/
  filename : c.filename = identifier
  /-- Its names have one line. -/
  newline_not_mem : ∀ word ∈ c.names, '\n' ∉ word.toList
  /-- Its constants are those that its instructions refer to. -/
  constants : NumberedByUse Instr.constantRef? c.instructions c.constants.length
  /-- Its names are those that its instructions refer to. -/
  names : NumberedByUse Instr.nameRef? c.instructions c.names.length

theorem Script.compiled_of_compile {source identifier : String} {m : Script}
    {options : OptimizeOptions} {c : Code} (h : Script.ofText source = .ok m)
    (hcompile : m.compile options identifier = .ok c) : c.Compiled identifier := by
  obtain ⟨code, t, i, hcode, hnone, hfile, hc⟩ :=
    Lower.lower_iff.mp (Script.lower_optimize_of_compile hcompile)
  have hemits := (Lower.emits_of_stmts hcode).append (.loadConst hnone)
  have hinstr : c.instructions = (code ++ [.loadConst i]) ++ [.ret] := by
    rw [hc, List.append_assoc]
    rfl
  refine ⟨hfile, fun word hword => ?_, ?_, ?_⟩
  · exact (Script.isWord_of_compile h hcompile word hword).newline_not_mem
  · rw [hinstr]
    exact (hemits.constants.append (.single_plain rfl)).numberedByUse
  · rw [hinstr]
    exact (hemits.names.append (.single_plain rfl)).numberedByUse

/-- Two pieces of compiled code with one listing are one, as far as doubles are known from their
texts. -/
theorem Code.Compiled.sameUpTo_of_listing_eq {same : Double → Double → Prop} {identifier : String}
    {c c' : Code} (h : c.Compiled identifier) (h' : c'.Compiled identifier)
    (hidentifier : '\n' ∉ identifier.toList)
    (hfloat : ∀ x y, .float x ∈ c.constants → .float y ∈ c'.constants →
      FloatText.text x = FloatText.text y → same x y)
    (hlisting : c.listing = c'.listing) : c.SameUpTo same c' := by
  obtain ⟨hinstr, htexts⟩ := Listing.instructions_of_listing_eq (h.filename ▸ hidentifier)
    (h'.filename.trans h.filename.symm) h.newline_not_mem h'.newline_not_mem hlisting
  refine ⟨h.filename.trans h'.filename.symm, ?_, ?_, hinstr⟩
  · refine h.constants.forall₂_table (hinstr ▸ h'.constants) fun i hi k href a b ha hb => ?_
    have htext := (htexts i hi).1 k href
    rw [ha, hb] at htext
    refine Listing.constant_inj (fun x y hx hy => hfloat x y ?_ ?_) htext
    · exact List.mem_of_getElem? (hx ▸ ha)
    · exact List.mem_of_getElem? (hy ▸ hb)
  · rw [← List.forall₂_eq_eq_eq]
    refine h.names.forall₂_table (hinstr ▸ h'.names) fun i hi k href a b ha hb => ?_
    have htext := (htexts i hi).2 k href
    rw [ha, hb] at htext
    exact htext

/-- **A listing is faithful.**  Behind the heading there is one line for each instruction, and each
begins with its offset.  No other code that a script is compiled to under the same name, whatever
the script and the switches, has the same listing, if only the doubles in the two can be told from
their texts.  If what is no number cannot be told from what is no number either, then other code
with the same listing is the same up to that. -/
theorem listing_faithful {source identifier : String} {m : Script} {options : OptimizeOptions}
    {c : Code} (hidentifier : '\n' ∉ identifier.toList) (h : Script.ofText source = .ok m)
    (hcompile : m.compile options identifier = .ok c) :
    (∃ rows : List (List Char),
      c.listing.toList.splitOn '\n' = (Listing.heading identifier).toList :: rows ++ [[]] ∧
      rows.length = c.length ∧
      ∀ k (hk : k < rows.length), (Listing.column 6 k ++ "  ").toList <+: rows[k]) ∧
    ∀ source' m' options' c', Script.ofText source' = .ok m' →
      m'.compile options' identifier = .ok c' → c.listing = c'.listing →
      ((∀ x y, .float x ∈ c.constants → .float y ∈ c'.constants →
        FloatText.text x = FloatText.text y → x = y) → c = c') ∧
      ((∀ x y, .float x ∈ c.constants → .float y ∈ c'.constants →
        FloatText.text x = FloatText.text y → x.SameNumber y) →
        c.SameUpTo Double.SameNumber c') := by
  have hc := Script.compiled_of_compile h hcompile
  constructor
  · refine ⟨_, hc.filename ▸ Listing.splitOn_listing (hc.filename ▸ hidentifier)
      hc.newline_not_mem, List.length_mapIdx, fun k hk => ?_⟩
    rw [List.getElem_mapIdx]
    exact List.prefix_append _ _
  · intro source' m' options' c' h' hcompile' hlisting
    have hc' := Script.compiled_of_compile h' hcompile'
    exact ⟨fun hfloat => (hc.sameUpTo_of_listing_eq hc' hidentifier hfloat hlisting).eq,
      fun hfloat => hc.sameUpTo_of_listing_eq hc' hidentifier hfloat hlisting⟩

/-- The statements `s = 'a\n"b'` and `f(s, 1 + 2)`. -/
def Script.quotedLine : Script :=
  [.assign "s" (.constant (.str "a\n\"b")),
    .expr (.call (.name "f") [.name "s",
      .binary .add (.constant (.int 1)) (.constant (.int 2))])]

theorem Script.ofText_quotedLine :
    Script.ofText "s = 'a\\n\"b'\nf(s, 1 + 2)" = .ok Script.quotedLine := by cbv

/-- The same with the sum worked out. -/
def Script.quotedLineFolded : Script :=
  [.assign "s" (.constant (.str "a\n\"b")),
    .expr (.call (.name "f") [.name "s", .constant (.int 3)])]

theorem Script.ofText_quotedLineFolded :
    Script.ofText "s='a\\n\"b' # c\nf(s,3)" = .ok Script.quotedLineFolded := by cbv

/-- The quoted text has a line feed in it, and there are nine lines for nine instructions. -/
theorem listing_faithful_quotedLine :
    ∃ c c', Script.quotedLine.compile {} "t" = .ok c ∧
      Script.quotedLineFolded.compile .off "t" = .ok c' ∧ c.listing = c'.listing ∧ c = c' ∧
      ∃ rows : List (List Char), rows.length = 9 ∧
        c.listing.toList.splitOn '\n' = "code object for t:".toList :: rows ++ [[]] := by
  have hcompile : ∃ c, Script.quotedLine.compile {} "t" = .ok c ∧
      Script.quotedLineFolded.compile .off "t" = .ok c ∧ c.length = 9 ∧
        c.constants = [.str "a\n\"b", .int 3, .none] :=
    ⟨_, rfl, rfl, rfl, rfl⟩
  obtain ⟨c, hc, hc', hlength, hconstants⟩ := hcompile
  obtain ⟨⟨rows, hsplit, hrows, -⟩, hfaithful⟩ :=
    listing_faithful (by decide) Script.ofText_quotedLine hc
  refine ⟨c, c, hc, hc', rfl, ?_, rows, hrows.trans hlength, hsplit⟩
  exact (hfaithful _ _ _ _ Script.ofText_quotedLineFolded hc' rfl).1 (by simp [hconstants])

end StackScript
