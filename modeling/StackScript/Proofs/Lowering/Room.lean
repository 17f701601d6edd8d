import StackScript.Proofs.Folding
import StackScript.Proofs.Script.Room
import StackScript.Proofs.Wire.Room

/-!
# How much room compiled code needs

Lowering enters a constant or a name into its table at most once for each node that needs it, so
code takes no more room than its tree (`Script.room_of_lower`); what is used twice is entered once
and makes it less.

Folding replaces nodes by their value.  A number takes no more room than the operator that it is
the value of, and two texts joined take no more than the two.  A text times a number does, but the
value is never longer than `Arithmetic.maxTextBytes`, so folding makes no tree larger if that much
is set aside for each product (`Script.room_optimize_le`).
-/

namespace StackScript

open Payload

/-! ## Lowering -/

namespace Lower

/-- The room of the tables. -/
def tablesRoom (t : Tables) : Nat :=
  listRoom constantRoom t.constants + listRoom strRoom t.names

theorem listRoom_concat {α : Type} (room : α → Nat) (as : List α) (a : α) :
    listRoom room (as ++ [a]) = listRoom room as + room a := by
  have happend := listRoom_append room as [a]
  rw [listRoom, listRoom] at happend
  omega

/-- Entering something takes its room at most. -/
theorem listRoom_intern_le {α : Type} [DecidableEq α] (room : α → Nat) (table : List α) (a : α) :
    listRoom room (intern table a).2 ≤ listRoom room table + room a := by
  unfold intern
  split
  · exact Nat.le_add_right _ _
  · rw [listRoom_concat]

variable {filename : String} {t t' : Tables} {code : List Instr} {product : Nat}

theorem room_of_constant {c : Constant} {i : UInt32} (h : constant filename c t = .ok (i, t')) :
    tablesRoom t' ≤ tablesRoom t + constantRoom c := by
  obtain ⟨-, rfl⟩ := constant_iff.mp h
  have hintern := listRoom_intern_le constantRoom t.constants c
  simp only [tablesRoom]
  omega

theorem room_of_name {word : String} {i : UInt32} (h : name filename word t = .ok (i, t')) :
    tablesRoom t' ≤ tablesRoom t + strRoom word := by
  obtain ⟨-, rfl⟩ := name_iff.mp h
  have hintern := listRoom_intern_le strRoom t.names word
  simp only [tablesRoom]
  omega

/-- The room of instructions and of the tables they were made with.  The length of the list is
counted once, however the list is put together. -/
def roomWith (code : List Instr) (t : Tables) : Nat := listRoom instrRoom code + tablesRoom t

mutual

/-- An expression takes no more than its room. -/
theorem room_of_expr : ∀ {e : Expr} {t t' : Tables} {code : List Instr},
    expr filename t e = .ok (code, t') → roomWith code t' ≤ roomWith [] t + e.room product
  | .constant c, _, _, _, h => by
      obtain ⟨i, hentry, rfl⟩ := expr_constant_iff.mp h
      have htables := room_of_constant hentry
      simp only [roomWith, listRoom, instrRoom, Expr.room]
      omega
  | .name word, _, _, _, h => by
      obtain ⟨i, hentry, rfl⟩ := expr_name_iff.mp h
      have htables := room_of_name hentry
      simp only [roomWith, listRoom, instrRoom, Expr.room]
      omega
  | .unary op e, _, _, _, h => by
      obtain ⟨code₁, h₁, rfl⟩ := expr_unary_iff.mp h
      have hoperand := room_of_expr h₁
      simp only [roomWith, listRoom_concat, instrRoom, Expr.room] at hoperand ⊢
      omega
  | .binary op e₁ e₂, _, _, _, h => by
      obtain ⟨code₁, t₁, code₂, h₁, h₂, rfl⟩ := expr_binary_iff.mp h
      have hleft := room_of_expr h₁
      have hright := room_of_expr h₂
      have happend := listRoom_append instrRoom code₁ code₂
      simp only [roomWith, listRoom_concat, listRoom, instrRoom, Expr.room] at hleft hright ⊢
      omega
  | .call e es, _, _, _, h => by
      obtain ⟨code₁, t₁, code₂, n, h₁, h₂, -, rfl⟩ := expr_call_iff.mp h
      have hcallee := room_of_expr h₁
      have harguments := room_of_exprs h₂
      have happend := listRoom_append instrRoom code₁ code₂
      simp only [roomWith, listRoom_concat, listRoom, instrRoom, Expr.room] at hcallee harguments ⊢
      omega

theorem room_of_exprs : ∀ {es : List Expr} {t t' : Tables} {code : List Instr},
    exprs filename t es = .ok (code, t') →
      roomWith code t' ≤ roomWith [] t + Expr.roomAll product es
  | [], _, _, _, h => by
      obtain ⟨rfl, rfl⟩ := exprs_nil_iff.mp h
      exact Nat.le_refl _
  | e :: es, _, _, _, h => by
      obtain ⟨code₁, t₁, code₂, h₁, h₂, rfl⟩ := exprs_cons_iff.mp h
      have hhead := room_of_expr h₁
      have htail := room_of_exprs h₂
      have happend := listRoom_append instrRoom code₁ code₂
      simp only [roomWith, listRoom, Expr.roomAll] at hhead htail ⊢
      omega

end

theorem room_of_stmt {s : Stmt} (h : stmt filename t s = .ok (code, t')) :
    roomWith code t' ≤ roomWith [] t + s.room product := by
  cases s with
  | assign target value =>
    obtain ⟨code₁, t₁, i, h₁, h₂, rfl⟩ := stmt_assign_iff.mp h
    have hvalue : _ ≤ _ + value.room product := room_of_expr h₁
    have htarget := room_of_name h₂
    simp only [roomWith, listRoom_concat, instrRoom, Stmt.room] at hvalue ⊢
    omega
  | expr value =>
    obtain ⟨code₁, h₁, rfl⟩ := stmt_expr_iff.mp h
    have hvalue : _ ≤ _ + value.room product := room_of_expr h₁
    simp only [roomWith, listRoom_concat, instrRoom, Stmt.room] at hvalue ⊢
    omega

theorem room_of_stmts {s : Script} (h : stmts filename t s = .ok (code, t')) :
    roomWith code t' ≤ roomWith [] t + s.room product := by
  induction s generalizing t code with
  | nil =>
    obtain ⟨rfl, rfl⟩ := stmts_nil_iff.mp h
    exact Nat.le_refl _
  | cons u us ih =>
    obtain ⟨code₁, t₁, code₂, h₁, h₂, rfl⟩ := stmts_cons_iff.mp h
    have hhead : _ ≤ _ + u.room product := room_of_stmt h₁
    have htail := ih h₂
    have happend := listRoom_append instrRoom code₁ code₂
    simp only [roomWith, listRoom, Script.room] at hhead htail ⊢
    omega

end Lower

/-- **Code takes no more room than its tree**, its name, and what every code object takes. -/
theorem Script.room_of_lower {filename : String} {s : Script} {c : Code} (product : Nat)
    (h : s.lower filename = .ok c) :
    c.room ≤ s.room product + filename.utf8ByteSize + 48 := by
  obtain ⟨code, t, i, hcode, hnone, rfl, hinstructions⟩ := Lower.lower_iff.mp h
  have hstatements : _ ≤ _ + s.room product := Lower.room_of_stmts hcode
  have htables := Lower.room_of_constant hnone
  have happend := listRoom_append instrRoom code [.loadConst i, .ret]
  simp only [Lower.roomWith, Lower.tablesRoom, Code.tables, listRoom, constantRoom, instrRoom]
    at hstatements htables happend
  rw [Code.room, strRoom, hinstructions]
  omega

/-! ## Folding -/

namespace Arithmetic

/-- A number takes twelve bytes. -/
theorem constantRoom_checked {op : String} {n : Option Int64} {c : Constant}
    (h : checked op n = .ok c) : constantRoom c = 12 := by
  unfold checked at h
  split at h <;> cases h
  rfl

theorem constantRoom_floatOp {op : BinaryOp} {a b : Double} {c : Constant}
    (h : floatOp op a b = .ok c) : constantRoom c = 12 := by
  unfold floatOp at h
  split at h
  · cases h
    rfl
  · cases h
    rfl
  · cases h
    rfl
  · split at h <;> cases h
    rfl
  · split at h <;> cases h
    rfl
  · split at h
    · cases h
    · dsimp only at h
      split at h <;> cases h <;> rfl

theorem constantRoom_intOp {op : BinaryOp} {a b : Int64} {c : Constant}
    (h : intOp op a b = .ok c) : constantRoom c = 12 := by
  unfold intOp at h
  split at h
  · exact constantRoom_checked h
  · exact constantRoom_checked h
  · exact constantRoom_checked h
  · exact constantRoom_floatOp h
  · split at h
    · cases h
    · exact constantRoom_checked h
  · split at h <;> cases h
    rfl

theorem constantRoom_numericOp {op : BinaryOp} {a b : Numeral} {c : Constant}
    (h : numericOp op a b = .ok c) : constantRoom c = 12 := by
  unfold numericOp at h
  split at h
  · exact constantRoom_intOp h
  · exact constantRoom_floatOp h
  · exact constantRoom_floatOp h
  · exact constantRoom_floatOp h

theorem utf8ByteSize_join_replicate (s : String) (n : Nat) :
    (String.join (List.replicate n s)).utf8ByteSize = s.utf8ByteSize * n := by
  induction n with
  | zero => rfl
  | succ n ih =>
    rw [List.replicate_succ, String.join_cons, String.utf8ByteSize_append, ih, Nat.mul_succ,
      Nat.add_comm]

/-- A repetition is never longer than a text may become. -/
theorem constantRoom_repeated {s : String} {count : Int64} {c : Constant}
    (h : repeated s count = .ok c) : constantRoom c ≤ 12 + maxTextBytes := by
  unfold repeated at h
  dsimp only at h
  split at h
  · cases h
  · next hlimit =>
    split at h
    · cases h
      exact Nat.le_add_right 12 _
    · cases h
      rw [constantRoom, strRoom, utf8ByteSize_join_replicate]
      omega

theorem constantRoom_textOp {op : BinaryOp} {a b c : Constant} (h : textOp op a b = .ok c) :
    constantRoom c ≤ 8 + op.room maxTextBytes + constantRoom a + constantRoom b := by
  have ha := four_le_constantRoom a
  have hb := four_le_constantRoom b
  unfold textOp at h
  split at h
  · cases h
    simp only [constantRoom, strRoom, String.utf8ByteSize_append]
    omega
  · split at h
    · have hrepeated := constantRoom_repeated h
      simp only [BinaryOp.room]
      omega
    · cases h
  · split at h
    · have hrepeated := constantRoom_repeated h
      simp only [BinaryOp.room]
      omega
    · cases h
  · cases h

end Arithmetic

namespace Expr

open Arithmetic (maxTextBytes)

/-- The value of an operator between two literals takes no more room than the three. -/
theorem room_of_binary {op : BinaryOp} {a b c : Constant} (h : Arithmetic.binary op a b = .ok c) :
    (Expr.constant c).room maxTextBytes ≤
      (Expr.binary op (.constant a) (.constant b)).room maxTextBytes := by
  have ha := four_le_constantRoom a
  have hb := four_le_constantRoom b
  simp only [room]
  unfold Arithmetic.binary at h
  split at h
  · have hnumber := Arithmetic.constantRoom_numericOp h
    omega
  · have htext := Arithmetic.constantRoom_textOp h
    omega

theorem room_of_unary {op : UnaryOp} {a c : Constant} (h : Arithmetic.unary op a = .ok c) :
    (Expr.constant c).room maxTextBytes ≤ (Expr.unary op (.constant a)).room maxTextBytes := by
  have ha := four_le_constantRoom a
  have hnumber : constantRoom c = 12 := by
    unfold Arithmetic.unary at h
    split at h
    · exact Arithmetic.constantRoom_checked h
    · cases h
      rfl
    · cases h
      rfl
    · cases h
      rfl
    · cases h
  simp only [room]
  omega

theorem room_foldUnary_le (op : UnaryOp) (e : Expr) :
    (foldUnary op e).1.room maxTextBytes ≤ (Expr.unary op e).room maxTextBytes := by
  unfold foldUnary
  split
  · next a ha =>
    split
    · next c hc =>
      rw [eq_constant_of_constant? ha]
      exact room_of_unary hc
    · exact Nat.le_refl _
  · exact Nat.le_refl _

theorem room_foldBinary_le (op : BinaryOp) (left right : Expr) :
    (foldBinary op left right).1.room maxTextBytes ≤
      (Expr.binary op left right).room maxTextBytes := by
  unfold foldBinary
  split
  · next a b ha hb =>
    split
    · next c hc =>
      rw [eq_constant_of_constant? ha, eq_constant_of_constant? hb]
      exact room_of_binary hc
    · exact Nat.le_refl _
  · exact Nat.le_refl _

mutual

/-- The thorough pass makes no tree larger. -/
theorem room_foldDeep_le : ∀ e : Expr, e.foldDeep.1.room maxTextBytes ≤ e.room maxTextBytes
  | .constant _ => Nat.le_refl _
  | .name _ => Nat.le_refl _
  | .unary op e => by
      have hoperand := room_foldDeep_le e
      have hfold := room_foldUnary_le op e.foldDeep.1
      simp only [foldDeep, room] at hfold ⊢
      omega
  | .binary op left right => by
      have hleft := room_foldDeep_le left
      have hright := room_foldDeep_le right
      have hfold := room_foldBinary_le op left.foldDeep.1 right.foldDeep.1
      simp only [foldDeep, room] at hfold ⊢
      omega
  | .call callee arguments => by
      have hcallee := room_foldDeep_le callee
      have harguments := roomAll_foldDeepAll_le arguments
      simp only [foldDeep, room]
      omega

theorem roomAll_foldDeepAll_le : ∀ es : List Expr,
    roomAll maxTextBytes (foldDeepAll es).1 ≤ roomAll maxTextBytes es
  | [] => Nat.le_refl _
  | e :: es => by
      have hhead := room_foldDeep_le e
      have htail := roomAll_foldDeepAll_le es
      simp only [foldDeepAll, roomAll]
      omega

end

/-- The cheap pass answers a node by one that is no larger. -/
theorem room_of_foldPair? {e d : Expr} (h : foldPair? e = some d) :
    d.room maxTextBytes ≤ e.room maxTextBytes := by
  cases e with
  | constant | name | unary | call => cases h
  | binary op left right =>
    simp only [foldPair?] at h
    split at h
    · next c hc =>
      obtain ⟨-, a, b, rfl, rfl, hvalue⟩ := Pair.inspect_eq_value_iff.mp hc
      cases h
      exact room_of_binary hvalue
    · cases h
      exact Nat.le_refl _

section Replace

variable {answer : Expr → Option Expr} {product : Nat}

mutual

/-- A replacement that makes no node larger makes no tree larger. -/
theorem room_replace_le (h : ∀ e d, answer e = some d → d.room product ≤ e.room product) :
    ∀ e : Expr, (e.replace answer).room product ≤ e.room product
  | .constant k => by
      cases hd : answer (.constant k) with
      | some d => rw [replace_of_some hd]; exact h _ _ hd
      | none => rw [replace, hd, Option.getD_none]
  | .name word => by
      cases hd : answer (.name word) with
      | some d => rw [replace_of_some hd]; exact h _ _ hd
      | none => rw [replace, hd, Option.getD_none]
  | .unary op e => by
      cases hd : answer (.unary op e) with
      | some d => rw [replace_of_some hd]; exact h _ _ hd
      | none =>
        have hoperand := room_replace_le h e
        simp only [replace, hd, room]
        omega
  | .binary op left right => by
      cases hd : answer (.binary op left right) with
      | some d => rw [replace_of_some hd]; exact h _ _ hd
      | none =>
        have hleft := room_replace_le h left
        have hright := room_replace_le h right
        simp only [replace, hd, room]
        omega
  | .call callee arguments => by
      cases hd : answer (.call callee arguments) with
      | some d => rw [replace_of_some hd]; exact h _ _ hd
      | none =>
        have hcallee := room_replace_le h callee
        have harguments := roomAll_replaceAll_le h arguments
        simp only [replace, hd, room]
        omega

theorem roomAll_replaceAll_le (h : ∀ e d, answer e = some d → d.room product ≤ e.room product) :
    ∀ es : List Expr, roomAll product (replaceAll answer es) ≤ roomAll product es
  | [] => Nat.le_refl _
  | e :: es => by
      have hhead := room_replace_le h e
      have htail := roomAll_replaceAll_le h es
      simp only [replaceAll, roomAll]
      omega

end

end Replace

end Expr

/-! ## The passes together -/

/-- What the passes need to be set aside for a product: nothing if none of them runs. -/
def OptimizeOptions.productRoom (options : OptimizeOptions) : Nat :=
  if options.constantFolding || options.deepFolding then Arithmetic.maxTextBytes else 0

theorem Stmt.room_replace_le {answer : Expr → Option Expr} {product : Nat}
    (h : ∀ e d, answer e = some d → d.room product ≤ e.room product) (t : Stmt) :
    (t.replace answer).room product ≤ t.room product := by
  cases t with
  | assign target value => exact Nat.add_le_add_left (Expr.room_replace_le h value) _
  | expr value => exact Nat.add_le_add_left (Expr.room_replace_le h value) _

theorem Stmt.room_foldDeep_le (t : Stmt) :
    t.foldDeep.1.room Arithmetic.maxTextBytes ≤ t.room Arithmetic.maxTextBytes := by
  cases t with
  | assign target value => exact Nat.add_le_add_left value.room_foldDeep_le _
  | expr value => exact Nat.add_le_add_left value.room_foldDeep_le _

theorem Stmt.room_optimize_le (options : OptimizeOptions) (t : Stmt) :
    (t.optimize options).room options.productRoom ≤ t.room options.productRoom := by
  obtain ⟨folding, peephole, deep⟩ := options
  have hcheap : ∀ t : Stmt, (t.replace foldPair?).room Arithmetic.maxTextBytes ≤
      t.room Arithmetic.maxTextBytes :=
    fun t => t.room_replace_le fun e d h => Expr.room_of_foldPair? h
  cases folding <;> cases deep
  · exact Nat.le_refl _
  · exact t.room_foldDeep_le
  · exact hcheap t
  · exact Nat.le_trans (t.replace foldPair?).room_foldDeep_le (hcheap t)

/-- **The passes make no script larger**, if enough is set aside for each product. -/
theorem Script.room_optimize_le (options : OptimizeOptions) (s : Script) :
    (s.optimize options).room options.productRoom ≤ s.room options.productRoom := by
  rw [Script.optimize_eq_map]
  induction s with
  | nil => exact Nat.le_refl _
  | cons t ts ih =>
    rw [List.map_cons, Script.room, Script.room]
    exact Nat.add_le_add (t.room_optimize_le options) ih

end StackScript
