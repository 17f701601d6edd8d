import Mathlib
import StackScript.Code.Compile
import StackScript.Proofs.Lowering.Tables
import StackScript.Proofs.Malformed

/-!
# The form of lowered code

Lowered code has one form for each script, and this file says which.  Four facts make it up.

## 1.  The tables

No entry of a table is there twice, and the entries are numbered in the order in which the
instructions first refer to them.  Lowering hands out an operand when it emits the instruction
that needs it: it is an operand that was handed out before, or the number of entries there were.
Read along the code, this is a count that a reference either stays below or raises by one
(`Numbers`), and the count composes where the code does.  Everything about references follows from
it (`Numbers.numberedByUse`): the last value of the count is the size of the table, so every
operand is in range; the count passes every number, so every entry is referred to; and it passes
them in order.

## 2.  The stack

The code of an expression leaves one value more than there was, and from its first instruction on
there is always at least one more (`Pushes`).  So a statement is a stretch of code with an empty
stack at its two ends and at no place between them (`StretchOf`): the boundaries between
statements can be seen in the code.

## 3.  The end

No statement returns.  The code ends by loading `None` and returning it.
-/

namespace StackScript

/-! ## Constants by their bits -/

/-- Whether two constants count as one for a table: they are of one kind, and doubles have the
same bits, also where they are no numbers. -/
def Constant.sameEntry : Constant → Constant → Bool
  | .none, .none => true
  | .bool a, .bool b => a == b
  | .int m, .int n => m == n
  | .float x, .float y => x.bits == y.bits
  | .str s, .str t => s == t
  | _, _ => false

/-- Constants that count as one are the same constant. -/
theorem Constant.sameEntry_iff {a b : Constant} : a.sameEntry b = true ↔ a = b := by
  cases a <;> cases b <;> simp [sameEntry, Double.ext_iff]

/-! ## References -/

namespace Instr

/-- The entry of the constant table that an instruction refers to. -/
def constantRef? : Instr → Option Nat
  | .loadConst index => some index.toNat
  | _ => none

/-- The entry of the name table that an instruction refers to. -/
def nameRef? : Instr → Option Nat
  | .loadName index => some index.toNat
  | .storeName index => some index.toNat
  | _ => none

end Instr

/-- The place of the first instruction that refers to an entry. -/
def firstUse (ref : Instr → Option Nat) (code : List Instr) (k : Nat) : Nat :=
  code.findIdx fun i => ref i = some k

/-- A table of the given size goes with some code: all references are to entries of it, every entry
is referred to, and the entries are numbered in the order in which this first happens. -/
structure NumberedByUse (ref : Instr → Option Nat) (code : List Instr) (size : Nat) : Prop where
  /-- Every reference is in range. -/
  inRange : ∀ i ∈ code, ∀ k, ref i = some k → k < size
  /-- Every entry is used. -/
  used : ∀ k < size, ∃ i ∈ code, ref i = some k
  /-- An entry is used before those with greater numbers are. -/
  ordered : ∀ j k, j < k → k < size → firstUse ref code j < firstUse ref code k

/-- Along some code the number of entries grows from one number to another: each reference is to an
entry there is, or to the next one. -/
inductive Numbers (ref : Instr → Option Nat) : Nat → List Instr → Nat → Prop
  | nil {n : Nat} : Numbers ref n [] n
  | plain {n m : Nat} {i : Instr} {is : List Instr} (h : ref i = none) (rest : Numbers ref n is m) :
      Numbers ref n (i :: is) m
  | old {n m k : Nat} {i : Instr} {is : List Instr} (h : ref i = some k) (hk : k < n)
      (rest : Numbers ref n is m) : Numbers ref n (i :: is) m
  | new {n m : Nat} {i : Instr} {is : List Instr} (h : ref i = some n)
      (rest : Numbers ref (n + 1) is m) : Numbers ref n (i :: is) m

section References

variable {ref : Instr → Option Nat} {n m l k : Nat} {i : Instr} {code more : List Instr}

theorem firstUse_cons_self (h : ref i = some k) : firstUse ref (i :: code) k = 0 := by
  simp [firstUse, List.findIdx_cons, h]

theorem firstUse_cons_of_ne (h : ref i ≠ some k) :
    firstUse ref (i :: code) k = firstUse ref code k + 1 := by
  simp [firstUse, List.findIdx_cons, h]

namespace Numbers

theorem append (h : Numbers ref n code m) (h' : Numbers ref m more l) :
    Numbers ref n (code ++ more) l := by
  induction h with
  | nil => exact h'
  | plain h _ ih => exact .plain h (ih h')
  | old h hk _ ih => exact .old h hk (ih h')
  | new h _ ih => exact .new h (ih h')

/-- Nothing but the operand counts. -/
theorem single_plain (h : ref i = none) : Numbers ref n [i] n := .plain h .nil

theorem le (h : Numbers ref n code m) : n ≤ m := by
  induction h with
  | nil => exact Nat.le_refl _
  | plain _ _ ih => exact ih
  | old _ _ _ ih => exact ih
  | new _ _ ih => exact Nat.le_of_succ_le ih

theorem inRange (h : Numbers ref n code m) : ∀ i ∈ code, ∀ k, ref i = some k → k < m := by
  induction h with
  | nil => exact fun i hi => absurd hi List.not_mem_nil
  | plain h _ ih =>
    refine List.forall_mem_cons.mpr ⟨fun k hk => ?_, ih⟩
    rw [h] at hk
    cases hk
  | old h hlt rest ih =>
    refine List.forall_mem_cons.mpr ⟨fun k hk => ?_, ih⟩
    rw [h] at hk
    cases hk
    exact Nat.lt_of_lt_of_le hlt rest.le
  | new h rest ih =>
    refine List.forall_mem_cons.mpr ⟨fun k hk => ?_, ih⟩
    rw [h] at hk
    cases hk
    exact rest.le

/-- Every entry that was added is referred to. -/
theorem used (h : Numbers ref n code m) : ∀ k, n ≤ k → k < m → ∃ i ∈ code, ref i = some k := by
  induction h with
  | nil => exact fun k hn hm => absurd hm (Nat.not_lt.mpr hn)
  | plain _ _ ih =>
    intro k hn hm
    obtain ⟨i, hi, href⟩ := ih k hn hm
    exact ⟨i, List.mem_cons_of_mem _ hi, href⟩
  | old _ _ _ ih =>
    intro k hn hm
    obtain ⟨i, hi, href⟩ := ih k hn hm
    exact ⟨i, List.mem_cons_of_mem _ hi, href⟩
  | @new n m i is h _ ih =>
    intro k hn hm
    rcases Nat.eq_or_lt_of_le hn with rfl | hlt
    · exact ⟨i, List.mem_cons_self, h⟩
    · obtain ⟨j, hj, href⟩ := ih k hlt hm
      exact ⟨j, List.mem_cons_of_mem _ hj, href⟩

/-- Entries that were added are first referred to in the order of their numbers. -/
theorem ordered (h : Numbers ref n code m) :
    ∀ j k, n ≤ j → j < k → k < m → firstUse ref code j < firstUse ref code k := by
  induction h with
  | nil => intro j k hn hjk hm; omega
  | plain h _ ih =>
    intro j k hn hjk hm
    rw [firstUse_cons_of_ne (by simp [h]), firstUse_cons_of_ne (by simp [h])]
    exact Nat.succ_lt_succ (ih j k hn hjk hm)
  | old h hlt _ ih =>
    intro j k hn hjk hm
    rw [firstUse_cons_of_ne (by rw [h, ne_eq, Option.some_inj]; omega),
      firstUse_cons_of_ne (by rw [h, ne_eq, Option.some_inj]; omega)]
    exact Nat.succ_lt_succ (ih j k hn hjk hm)
  | @new n m i is h _ ih =>
    intro j k hn hjk hm
    have hk : firstUse ref (i :: is) k = firstUse ref is k + 1 :=
      firstUse_cons_of_ne (by rw [h, ne_eq, Option.some_inj]; omega)
    rcases Nat.eq_or_lt_of_le hn with rfl | hlt
    · rw [firstUse_cons_self h, hk]
      exact Nat.succ_pos _
    · rw [hk, firstUse_cons_of_ne (by rw [h, ne_eq, Option.some_inj]; omega)]
      exact Nat.succ_lt_succ (ih j k hlt hjk hm)

/-- **Counted from nothing, the entries are numbered by use.** -/
theorem numberedByUse (h : Numbers ref 0 code m) : NumberedByUse ref code m where
  inRange := h.inRange
  used k hk := h.used k (Nat.zero_le k) hk
  ordered j k hjk hk := h.ordered j k (Nat.zero_le j) hjk hk

end Numbers

end References

/-! ## What lowering emits -/

namespace Lower

section Intern

variable {α : Type} [DecidableEq α] {table : List α} {a : α}

/-- An entry that is there is found, and a new one goes to the end. -/
theorem intern_cases (table : List α) (a : α) :
    ((intern table a).1 < table.length ∧ (intern table a).2 = table) ∨
      (a ∉ table ∧ (intern table a).1 = table.length ∧ (intern table a).2 = table ++ [a]) := by
  unfold intern
  split
  · next i hi =>
    obtain ⟨hlt, -⟩ := List.idxOf?_eq_some_iff.mp hi
    exact .inl ⟨hlt, rfl⟩
  · next hnone => exact .inr ⟨List.idxOf?_eq_none_iff.mp hnone, rfl, rfl⟩

theorem nodup_intern (h : table.Nodup) : (intern table a).2.Nodup := by
  rcases intern_cases table a with ⟨-, htable⟩ | ⟨hnew, -, htable⟩
  · rw [htable]
    exact h
  · rw [htable]
    simpa using h.concat hnew

/-- A reference to what was entered counts it. -/
theorem numbers_intern {ref : Instr → Option Nat} {i : Instr}
    (h : ref i = some (intern table a).1) :
    Numbers ref table.length [i] (intern table a).2.length := by
  rcases intern_cases table a with ⟨hold, htable⟩ | ⟨-, hnew, htable⟩
  · rw [htable]
    exact .old h hold .nil
  · rw [htable, List.length_append]
    exact .new (by rw [h, hnew]) .nil

end Intern

/-- What holds of code that was emitted while the tables grew from one state to another. -/
structure Emits (t : Tables) (code : List Instr) (t' : Tables) : Prop where
  /-- The constants are counted. -/
  constants : Numbers Instr.constantRef? t.constants.length code t'.constants.length
  /-- The names are counted. -/
  names : Numbers Instr.nameRef? t.names.length code t'.names.length
  /-- No constant is entered twice. -/
  nodup_constants : t.constants.Nodup → t'.constants.Nodup
  /-- No name is entered twice. -/
  nodup_names : t.names.Nodup → t'.names.Nodup
  /-- Nothing returns. -/
  no_ret : .ret ∉ code

variable {filename : String} {t t' t'' : Tables} {code more : List Instr}

namespace Emits

theorem nil : Emits t [] t := ⟨.nil, .nil, id, id, List.not_mem_nil⟩

theorem append (h : Emits t code t') (h' : Emits t' more t'') : Emits t (code ++ more) t'' where
  constants := h.constants.append h'.constants
  names := h.names.append h'.names
  nodup_constants := h'.nodup_constants ∘ h.nodup_constants
  nodup_names := h'.nodup_names ∘ h.nodup_names
  no_ret hret := (List.mem_append.mp hret).elim h.no_ret h'.no_ret

/-- An instruction without reference. -/
theorem plain {i : Instr} (hconstant : i.constantRef? = none) (hname : i.nameRef? = none)
    (hret : i ≠ .ret) : Emits t [i] t :=
  ⟨.single_plain hconstant, .single_plain hname, id, id, by simpa using hret.symm⟩

theorem loadConst {c : Constant} {i : UInt32} (h : constant filename c t = .ok (i, t')) :
    Emits t [.loadConst i] t' := by
  obtain ⟨hi, rfl⟩ := constant_iff.mp h
  refine ⟨numbers_intern ?_, .single_plain rfl, nodup_intern, id, by simp⟩
  rw [Instr.constantRef?, toNat_of_operand? hi]

/-- An instruction that refers to a name. -/
theorem ofName {word : String} {i : UInt32} {instr : Instr}
    (h : name filename word t = .ok (i, t')) (hconstant : instr.constantRef? = none)
    (hname : instr.nameRef? = some i.toNat) (hret : instr ≠ .ret) : Emits t [instr] t' := by
  obtain ⟨hi, rfl⟩ := name_iff.mp h
  refine ⟨.single_plain hconstant, numbers_intern ?_, id, nodup_intern, by simpa using hret.symm⟩
  rw [hname, toNat_of_operand? hi]

end Emits

mutual

theorem emits_of_expr : ∀ {e : Expr} {t t' : Tables} {code : List Instr},
    expr filename t e = .ok (code, t') → Emits t code t'
  | .constant _, _, _, _, h => by
      obtain ⟨i, hentry, rfl⟩ := expr_constant_iff.mp h
      exact .loadConst hentry
  | .name _, _, _, _, h => by
      obtain ⟨i, hentry, rfl⟩ := expr_name_iff.mp h
      exact .ofName hentry rfl rfl nofun
  | .unary _ e, _, _, _, h => by
      obtain ⟨code₁, h₁, rfl⟩ := expr_unary_iff.mp h
      exact (emits_of_expr h₁).append (.plain rfl rfl nofun)
  | .binary _ e₁ e₂, _, _, _, h => by
      obtain ⟨code₁, t₁, code₂, h₁, h₂, rfl⟩ := expr_binary_iff.mp h
      exact ((emits_of_expr h₁).append (emits_of_expr h₂)).append (.plain rfl rfl nofun)
  | .call e es, _, _, _, h => by
      obtain ⟨code₁, t₁, code₂, n, h₁, h₂, -, rfl⟩ := expr_call_iff.mp h
      exact ((emits_of_expr h₁).append (emits_of_exprs h₂)).append (.plain rfl rfl nofun)

theorem emits_of_exprs : ∀ {es : List Expr} {t t' : Tables} {code : List Instr},
    exprs filename t es = .ok (code, t') → Emits t code t'
  | [], _, _, _, h => by
      obtain ⟨rfl, rfl⟩ := exprs_nil_iff.mp h
      exact .nil
  | e :: es, _, _, _, h => by
      obtain ⟨code₁, t₁, code₂, h₁, h₂, rfl⟩ := exprs_cons_iff.mp h
      exact (emits_of_expr h₁).append (emits_of_exprs h₂)

end

theorem emits_of_stmt {u : Stmt} (h : stmt filename t u = .ok (code, t')) : Emits t code t' := by
  cases u with
  | assign target value =>
    obtain ⟨code₁, t₁, i, h₁, h₂, rfl⟩ := stmt_assign_iff.mp h
    exact (emits_of_expr h₁).append (.ofName h₂ rfl rfl nofun)
  | expr value =>
    obtain ⟨code₁, h₁, rfl⟩ := stmt_expr_iff.mp h
    exact (emits_of_expr h₁).append (.plain rfl rfl nofun)

theorem emits_of_stmts {us : List Stmt} (h : stmts filename t us = .ok (code, t')) :
    Emits t code t' := by
  induction us generalizing t code with
  | nil =>
    obtain ⟨rfl, rfl⟩ := stmts_nil_iff.mp h
    exact .nil
  | cons u us ih =>
    obtain ⟨code₁, t₁, code₂, h₁, h₂, rfl⟩ := stmts_cons_iff.mp h
    exact (emits_of_stmt h₁).append (ih h₂)

end Lower

/-! ## The stack -/

/-- The number of values on the stack behind some instructions, if each of them finds as many as it
needs. -/
def depthBehind : Nat → List Instr → Option Nat
  | depth, [] => some depth
  | depth, i :: is => if i.needs ≤ depth then depthBehind (i.depthAfter depth) is else none

theorem depthBehind_append (depth : Nat) (front back : List Instr) :
    depthBehind depth (front ++ back) =
      (depthBehind depth front).bind fun d => depthBehind d back := by
  induction front generalizing depth with
  | nil => rfl
  | cons i front ih =>
    rw [List.cons_append, depthBehind, depthBehind]
    split
    · exact ih _
    · rfl

/-- An instruction that finds what it needs. -/
theorem depthBehind_single {i : Instr} {depth : Nat} :
    depthBehind (depth + i.needs) [i] = some (depth + i.leaves) := by
  rw [depthBehind, if_pos (Nat.le_add_left _ _), Instr.depthAfter, Nat.add_sub_cancel]
  rfl

/-- Where instructions can run, those in front of any place can. -/
theorem isSome_depthBehind_of_prefix {depth : Nat} {front code : List Instr} (h : front <+: code)
    (hcode : (depthBehind depth code).isSome = true) : (depthBehind depth front).isSome = true := by
  obtain ⟨back, rfl⟩ := h
  rw [depthBehind_append] at hcode
  cases hfront : depthBehind depth front with
  | none => rw [hfront] at hcode; cases hcode
  | some d => rfl

/-- Some code adds so many values to any stack, and at no place behind its first instruction are
there as few as before. -/
structure Pushes (n : Nat) (code : List Instr) : Prop where
  /-- The values at the end. -/
  depth : ∀ d, depthBehind d code = some (d + n)
  /-- The values on the way. -/
  inside : ∀ d front, front <+: code → front ≠ [] → ∃ k, depthBehind d front = some (d + k + 1)

namespace Pushes

variable {n m : Nat} {code more : List Instr} {i : Instr}

theorem nil : Pushes 0 [] where
  depth _ := rfl
  inside _ _ h hne := absurd (List.prefix_nil.mp h) hne

theorem append (h : Pushes n code) (h' : Pushes m more) : Pushes (n + m) (code ++ more) where
  depth d := by rw [depthBehind_append, h.depth, Option.bind_some, h'.depth, Nat.add_assoc]
  inside d front hfront hne := by
    obtain ⟨back, hback⟩ := hfront
    rcases List.append_eq_append_iff.mp hback with ⟨rest, rfl, -⟩ | ⟨rest, rfl, hmore⟩
    · exact h.inside d front (List.prefix_append front rest) hne
    · rw [depthBehind_append, h.depth, Option.bind_some]
      rcases rest with _ | ⟨i, rest⟩
      · obtain ⟨k, hk⟩ := h.inside d code (List.prefix_refl code) (by simpa using hne)
        rw [h.depth] at hk
        exact ⟨k, hk⟩
      · obtain ⟨k, hk⟩ := h'.inside (d + n) (i :: rest) ⟨back, hmore.symm⟩ (List.cons_ne_nil i rest)
        exact ⟨n + k, by rw [hk, ← Nat.add_assoc d n k]⟩

/-- An instruction behind some code, which takes what the code has pushed and leaves one value. -/
theorem concat (h : Pushes n code) (hneeds : i.needs = n) (hleaves : i.leaves = 1) :
    Pushes 1 (code ++ [i]) := by
  have hdepth : ∀ d, depthBehind d (code ++ [i]) = some (d + 1) := by
    intro d
    rw [depthBehind_append, h.depth, Option.bind_some, ← hneeds, depthBehind_single, hleaves]
  refine ⟨hdepth, fun d front hfront hne => ?_⟩
  rcases List.prefix_concat_iff.mp hfront with rfl | hfront
  · exact ⟨0, hdepth d⟩
  · exact h.inside d front hfront hne

end Pushes

/-- Some code is a statement's: the stack is empty at its ends and nowhere between them, and its
last instruction does with the value what the statement says. -/
structure StretchOf (c : Code) (u : Stmt) (code : List Instr) : Prop where
  /-- Nothing is left at the end. -/
  depth : depthBehind 0 code = some 0
  /-- On the way there is something. -/
  inside : ∀ front, front <+: code → front ≠ [] → front ≠ code →
    ∃ k, depthBehind 0 front = some (k + 1)
  /-- The value is bound to the target, or dropped if there is none. -/
  last : match u.target? with
    | some target => ∃ i, code.getLast? = some (.storeName i) ∧ c.name? i = some target
    | none => code.getLast? = some .pop

namespace Lower

variable {filename : String} {t t' : Tables} {code : List Instr} {c : Code}

mutual

/-- The code of an expression pushes one value. -/
theorem pushes_of_expr : ∀ {e : Expr} {t t' : Tables} {code : List Instr},
    expr filename t e = .ok (code, t') → Pushes 1 code
  | .constant _, _, _, _, h => by
      obtain ⟨i, -, rfl⟩ := expr_constant_iff.mp h
      exact Pushes.nil.concat rfl rfl
  | .name _, _, _, _, h => by
      obtain ⟨i, -, rfl⟩ := expr_name_iff.mp h
      exact Pushes.nil.concat rfl rfl
  | .unary _ e, _, _, _, h => by
      obtain ⟨code₁, h₁, rfl⟩ := expr_unary_iff.mp h
      exact (pushes_of_expr h₁).concat rfl rfl
  | .binary _ e₁ e₂, _, _, _, h => by
      obtain ⟨code₁, t₁, code₂, h₁, h₂, rfl⟩ := expr_binary_iff.mp h
      exact ((pushes_of_expr h₁).append (pushes_of_expr h₂)).concat rfl rfl
  | .call e es, _, _, _, h => by
      obtain ⟨code₁, t₁, code₂, n, h₁, h₂, hn, rfl⟩ := expr_call_iff.mp h
      have hneeds : (Instr.call n).needs = 1 + es.length := by
        rw [Instr.needs, toNat_of_operand? hn, Nat.add_comm]
      exact ((pushes_of_expr h₁).append (pushes_of_exprs h₂)).concat hneeds rfl

/-- The code of a list of expressions pushes one value for each. -/
theorem pushes_of_exprs : ∀ {es : List Expr} {t t' : Tables} {code : List Instr},
    exprs filename t es = .ok (code, t') → Pushes es.length code
  | [], _, _, _, h => by
      obtain ⟨rfl, -⟩ := exprs_nil_iff.mp h
      exact .nil
  | e :: es, _, _, _, h => by
      obtain ⟨code₁, t₁, code₂, h₁, h₂, rfl⟩ := exprs_cons_iff.mp h
      rw [List.length_cons, Nat.add_comm]
      exact (pushes_of_expr h₁).append (pushes_of_exprs h₂)

end

/-- A value is pushed, and one instruction takes it. -/
theorem depth_inside_of_pushes {i : Instr} (h : Pushes 1 code) (hneeds : i.needs = 1)
    (hleaves : i.leaves = 0) : depthBehind 0 (code ++ [i]) = some 0 ∧
      ∀ front, front <+: code ++ [i] → front ≠ [] → front ≠ code ++ [i] →
        ∃ k, depthBehind 0 front = some (k + 1) := by
  constructor
  · have hsingle : depthBehind (0 + i.needs) [i] = some (0 + i.leaves) := depthBehind_single
    rw [hneeds, hleaves] at hsingle
    rw [depthBehind_append, h.depth]
    exact hsingle
  · intro front hfront hne hwhole
    rcases List.prefix_concat_iff.mp hfront with rfl | hfront
    · exact absurd rfl hwhole
    · simpa using h.inside 0 front hfront hne

theorem stretchOf_of_stmt {u : Stmt} (h : stmt filename t u = .ok (code, t'))
    (hg : Grows t' c.tables) : StretchOf c u code := by
  cases u with
  | assign target value =>
    obtain ⟨code₁, t₁, i, h₁, h₂, rfl⟩ := stmt_assign_iff.mp h
    obtain ⟨hdepth, hinside⟩ :=
      depth_inside_of_pushes (i := .storeName i) (pushes_of_expr h₁) rfl rfl
    exact ⟨hdepth, hinside, i, List.getLast?_concat, hg.name h₂⟩
  | expr value =>
    obtain ⟨code₁, h₁, rfl⟩ := stmt_expr_iff.mp h
    obtain ⟨hdepth, hinside⟩ := depth_inside_of_pushes (i := .pop) (pushes_of_expr h₁) rfl rfl
    exact ⟨hdepth, hinside, List.getLast?_concat⟩

theorem stretches_of_stmts {us : List Stmt} (h : stmts filename t us = .ok (code, t'))
    (hg : Grows t' c.tables) :
    ∃ stretches, List.Forall₂ (StretchOf c) us stretches ∧ code = stretches.flatten := by
  induction us generalizing t code with
  | nil =>
    obtain ⟨rfl, rfl⟩ := stmts_nil_iff.mp h
    exact ⟨[], .nil, rfl⟩
  | cons u us ih =>
    obtain ⟨code₁, t₁, code₂, h₁, h₂, rfl⟩ := stmts_cons_iff.mp h
    obtain ⟨stretches, hstretches, rfl⟩ := ih h₂
    have hfirst : StretchOf c u code₁ := stretchOf_of_stmt h₁ ((grows_of_stmts h₂).trans hg)
    exact ⟨code₁ :: stretches, .cons hfirst hstretches, rfl⟩

/-- Behind any number of statements the stack is empty. -/
theorem depthBehind_flatten {us : List Stmt} {stretches : List (List Instr)}
    (h : List.Forall₂ (StretchOf c) us stretches) : depthBehind 0 stretches.flatten = some 0 := by
  induction h with
  | nil => rfl
  | cons hfirst _ ih =>
    rw [List.flatten_cons, depthBehind_append, hfirst.depth, Option.bind_some, ih]

end Lower

/-! ## The form of lowered code -/

/-- **Lowered code is in canonical form.**

* Constants differ from each other, in kind or value and doubles in their bits, and so do names.
* Every reference is in range, every entry of a table is referred to, and entries are numbered in
  the order of their first use.
* Wherever one stops, each instruction so far found the values it needs.
* The code is one stretch for each statement, and then a load of `None` and a return, which is the
  only one.  Behind any number of statements the stack is empty; inside one it is not.
* The code has the name that it was lowered under. -/
theorem lower_canonical {filename : String} {s : Script} {c : Code}
    (h : s.lower filename = .ok c) :
    (c.constants.Pairwise fun a b => a.sameEntry b = false) ∧ c.names.Nodup ∧
    NumberedByUse Instr.constantRef? c.instructions c.constants.length ∧
    NumberedByUse Instr.nameRef? c.instructions c.names.length ∧
    (∀ front, front <+: c.instructions → (depthBehind 0 front).isSome = true) ∧
    (∃ stretches i, List.Forall₂ (StretchOf c) s stretches ∧
      (∀ n, depthBehind 0 (stretches.take n).flatten = some 0) ∧
      c.instructions = stretches.flatten ++ [.loadConst i, .ret] ∧
      c.constant? i = some .none) ∧
    c.instructions.count .ret = 1 ∧ c.filename = filename := by
  obtain ⟨code, t, i, hcode, hnone, hfile, hc⟩ := Lower.lower_iff.mp h
  have hend : Lower.Emits t [.loadConst i] c.tables := .loadConst hnone
  have hemits : Lower.Emits ⟨[], []⟩ (code ++ [.loadConst i]) c.tables :=
    (Lower.emits_of_stmts hcode).append hend
  obtain ⟨stretches, hstretches, rfl⟩ :=
    Lower.stretches_of_stmts (c := c) hcode (Lower.grows_of_constant hnone)
  have hinstr : c.instructions = (stretches.flatten ++ [.loadConst i]) ++ [.ret] := by
    rw [hc, List.append_assoc]
    rfl
  have hdepth : depthBehind 0 c.instructions = some 0 := by
    rw [hc, depthBehind_append, Lower.depthBehind_flatten hstretches]
    rfl
  refine ⟨?_, hemits.nodup_names List.nodup_nil, ?_, ?_, ?_, ?_, ?_, hfile⟩
  · refine (hemits.nodup_constants List.nodup_nil).imp fun {a b} hne => ?_
    rw [← Bool.not_eq_true, Constant.sameEntry_iff]
    exact hne
  · rw [hinstr]
    exact (hemits.constants.append (.single_plain rfl)).numberedByUse
  · rw [hinstr]
    exact (hemits.names.append (.single_plain rfl)).numberedByUse
  · exact fun front hfront => isSome_depthBehind_of_prefix hfront (by rw [hdepth]; rfl)
  · refine ⟨stretches, i, hstretches, fun n => ?_, hc, (Lower.Grows.refl c.tables).constant hnone⟩
    exact Lower.depthBehind_flatten (List.forall₂_take n hstretches)
  · rw [hinstr, List.count_append, List.count_eq_zero_of_not_mem hemits.no_ret]
    rfl

/-- The statements `x = x + 1 + -0.0` and `f(x, 1, True, 0.0)`, and a call with two doubles that
are no number and differ in their signs. -/
def Script.sharedEntries : Script :=
  [.assign "x" (.binary .add (.binary .add (.name "x") (.constant (.int 1)))
      (.constant (.float (Binary64.zero true)))),
    .expr (.call (.name "f") [.name "x", .constant (.int 1), .constant (.bool true),
      .constant (.float (Binary64.zero false))]),
    .expr (.call (.name "f") [.constant (.float .indefinite), .constant (.float (-.indefinite)),
      .constant (.float .indefinite)])]

theorem lower_canonical_sharedEntries :
    ∃ c, Script.sharedEntries.lower "t" = .ok c ∧
      c.constants = [.int 1, .float (Binary64.zero true), .bool true,
        .float (Binary64.zero false), .float .indefinite, .float (-.indefinite), .none] ∧
      c.names = ["x", "f"] ∧ NumberedByUse Instr.constantRef? c.instructions 7 := by
  have h : ∃ c, Script.sharedEntries.lower "t" = .ok c ∧ c.constants = [.int 1,
      .float (Binary64.zero true), .bool true, .float (Binary64.zero false), .float .indefinite,
      .float (-.indefinite), .none] ∧ c.names = ["x", "f"] := ⟨_, rfl, rfl, rfl⟩
  obtain ⟨c, hc, hconstants, hnames⟩ := h
  obtain ⟨-, -, hnumbered, -⟩ := lower_canonical hc
  rw [hconstants] at hnumbered
  exact ⟨c, hc, hconstants, hnames, hnumbered⟩

/-- The statements `x = i - i` and `y = -(i - i)`, where `i` is infinity. -/
def Script.noNumbers : Script :=
  let infinity : Expr := .constant (.float (Binary64.infinity false))
  [.assign "x" (.binary .sub infinity infinity),
    .assign "y" (.unary .neg (.binary .sub infinity infinity))]

/-- Folded to doubles that are no number, the two values differ in their signs, and so they are two
constants. -/
example : (Script.noNumbers.compile { deepFolding := true } "t").map Code.constants =
    .ok [.float .indefinite, .float (-.indefinite), .none] := by rfl

end StackScript
