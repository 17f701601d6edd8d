import StackScript.Proofs.Wire.RoundTrip

/-!
# What is written takes no more than its room

The decoder bounds two things: the bytes it looks at and the room it sets aside.  Room is counted
as if every number took its full width, and on the wire a number is narrower than that, with one
exception: a length of `2 ^ 32` or more takes nine bytes and has room for eight.  Code with such a
length in it has no room anyway.  So of the two bounds the one on room decides
(`Code.withinLimit_iff`).
-/

namespace StackScript

/-! ## Numbers -/

namespace Wire

theorem length_varint_le (n : Nat) : (varint n).length ≤ 9 := by
  unfold varint
  split
  · exact Nat.le_add_left 1 8
  · split
    · exact Nat.le_add_left 3 6
    · split
      · exact Nat.le_add_left 5 4
      · exact Nat.le_refl 9

theorem length_varint_le_of_lt {n : Nat} (h : n < 2 ^ 32) : (varint n).length ≤ 5 := by
  unfold varint
  split
  · exact Nat.le_add_left 1 4
  · split
    · exact Nat.le_add_left 3 2
    · have hfour : n < 0x100000000 := h
      rw [if_pos hfour]
      exact Nat.le_refl 5

end Wire

namespace Payload

open Wire

/-! ## Texts and lists -/

theorem length_str_le {s : String} (h : strRoom s < 2 ^ 32) : (str s).length ≤ strRoom s := by
  rw [strRoom] at h ⊢
  have hlength : (varint s.utf8ByteSize).length ≤ 5 := length_varint_le_of_lt (by omega)
  have hbytes : s.toByteArray.data.toList.length = s.utf8ByteSize := rfl
  rw [str, List.length_append, hbytes]
  omega

section Lists

variable {α : Type} (room : α → Nat)

theorem listRoom_append (as bs : List α) :
    listRoom room (as ++ bs) + 8 = listRoom room as + listRoom room bs := by
  induction as with
  | nil => exact Nat.add_comm _ _
  | cons a as ih =>
    rw [List.cons_append, listRoom, listRoom, Nat.add_assoc, ih, Nat.add_assoc]

theorem le_listRoom {as : List α} {a : α} (h : a ∈ as) : room a ≤ listRoom room as := by
  induction as with
  | nil => exact absurd h List.not_mem_nil
  | cons b as ih =>
    rw [listRoom]
    rcases List.mem_cons.mp h with rfl | h
    · exact Nat.le_add_right _ _
    · exact Nat.le_trans (ih h) (Nat.le_add_left _ _)

/-- A list whose items have room has room for its length. -/
theorem length_le_listRoom (hroom : ∀ a, 1 ≤ room a) (as : List α) :
    as.length ≤ listRoom room as := by
  induction as with
  | nil => exact Nat.zero_le _
  | cons a as ih =>
    have ha := hroom a
    rw [List.length_cons, listRoom]
    omega

theorem length_flatMap_le {item : α → List UInt8} {as : List α}
    (h : ∀ a ∈ as, (item a).length ≤ room a) :
    (as.flatMap item).length + 8 ≤ listRoom room as := by
  induction as with
  | nil => exact Nat.le_refl 8
  | cons a as ih =>
    have ha := h a List.mem_cons_self
    have has := ih fun b hb => h b (List.mem_cons_of_mem a hb)
    rw [List.flatMap_cons, List.length_append, listRoom]
    omega

theorem length_list_le {item : α → List UInt8} {as : List α} (hroom : ∀ a, 1 ≤ room a)
    (hlist : listRoom room as < 2 ^ 32)
    (h : ∀ a, room a < 2 ^ 32 → (item a).length ≤ room a) :
    (list item as).length ≤ listRoom room as := by
  have hcount : (varint as.length).length ≤ 5 :=
    length_varint_le_of_lt (Nat.lt_of_le_of_lt (length_le_listRoom room hroom as) hlist)
  have hitems : (as.flatMap item).length + 8 ≤ listRoom room as :=
    length_flatMap_le room fun a ha => h a (Nat.lt_of_le_of_lt (le_listRoom room ha) hlist)
  rw [list, List.length_append]
  omega

end Lists

/-! ## Code -/

theorem length_constant_le {c : Constant} (h : constantRoom c < 2 ^ 32) :
    (constant c).length ≤ constantRoom c := by
  have htag : ∀ n : Nat, n < 251 → (varint n).length = 1 := by
    intro n hn
    rw [varint, if_pos hn]
    rfl
  cases c with
  | none => exact Nat.le_add_left 1 3
  | bool b => exact Nat.le_add_left 2 3
  | int n =>
    have hnumber := length_varint_le (foldSign n)
    rw [constant, List.length_append, htag 2 (by decide), constantRoom]
    omega
  | float x =>
    rw [constant, List.length_append, htag 3 (by decide), float, length_littleEndian]
    exact Nat.le_add_left 9 3
  | str s =>
    rw [constantRoom] at h ⊢
    have hstr : (str s).length ≤ strRoom s := length_str_le (by omega)
    rw [constant, List.length_append, htag 4 (by decide)]
    omega

theorem length_instr_le (i : Instr) : (instr i).length ≤ instrRoom i := by
  have hoperand : ∀ (tag : Nat) (n : UInt32), tag < 251 →
      (varint tag ++ varint n.toNat).length ≤ 8 := by
    intro tag n htag
    have hn : (varint n.toNat).length ≤ 5 := length_varint_le_of_lt n.toNat_lt
    rw [List.length_append, varint, if_pos htag, List.length_singleton]
    omega
  cases i with
  | loadConst i => exact hoperand 0 i (by decide)
  | loadName i => exact hoperand 1 i (by decide)
  | storeName i => exact hoperand 2 i (by decide)
  | binary op => cases op <;> exact Nat.le_add_left 2 6
  | unary op => cases op <;> exact Nat.le_add_left 2 6
  | call n => exact hoperand 5 n (by decide)
  | pop => exact Nat.le_add_left 1 3
  | ret => exact Nat.le_add_left 1 3

theorem four_le_constantRoom (c : Constant) : 4 ≤ constantRoom c := by
  cases c <;> simp only [constantRoom] <;> omega

theorem one_le_instrRoom (i : Instr) : 1 ≤ instrRoom i := by
  cases i <;> exact Nat.le_add_left 1 _

theorem one_le_strRoom (s : String) : 1 ≤ strRoom s := by
  rw [strRoom]
  omega

theorem length_code_le {c : Code} (h : c.room < 2 ^ 32) : (code c).length ≤ c.room := by
  rw [Code.room] at h ⊢
  have hfilename : (str c.filename).length ≤ strRoom c.filename := length_str_le (by omega)
  have hconstants : (list constant c.constants).length ≤ listRoom constantRoom c.constants :=
    length_list_le _ (fun a => Nat.le_of_add_left_le (four_le_constantRoom a)) (by omega)
      fun a => length_constant_le
  have hnames : (list str c.names).length ≤ listRoom strRoom c.names :=
    length_list_le _ one_le_strRoom (by omega) fun a => length_str_le
  have hinstructions : (list instr c.instructions).length ≤ listRoom instrRoom c.instructions :=
    length_list_le _ one_le_instrRoom (by omega) fun a _ => length_instr_le a
  rw [code, List.length_append, List.length_append, List.length_append]
  omega

end Payload

/-- The room of a code object decides whether it is within the decoder's limit. -/
theorem Code.withinLimit_iff {c : Code} : c.WithinLimit ↔ c.room ≤ Payload.maxPayload := by
  refine ⟨fun h => h.2, fun h => ⟨?_, h⟩⟩
  exact Nat.le_trans (Payload.length_code_le (Nat.lt_of_le_of_lt h (by decide))) h

end StackScript
