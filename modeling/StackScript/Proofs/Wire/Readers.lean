import Mathlib
import StackScript.Wire.Payload

/-!
# Readers take back what was written

Each writer of the payload has a reader.  `Reader.Takes read bs a` says that the reader takes
exactly the bytes `bs` off the front and gives `a`, whatever follows them.  The tail is what
makes the statement compose: the bytes of a field are followed by those of the next field, and
the reader of the field must neither need nor touch them.

A length is written in at most eight bytes, so a text or a list comes back only if its length
is below `2 ^ 64`.  Every byte of a text and every item of a list takes up at least one byte,
so it is enough that all the bytes together are fewer than that (`takes_code`).
-/

namespace StackScript

namespace Reader

variable {α β : Type}

/-- The reader takes exactly these bytes off the front, and gives this value. -/
def Takes (read : Reader α) (bs : List UInt8) (a : α) : Prop :=
  ∀ rest, read (bs ++ rest) = some (a, rest)

/-- One value after another. -/
theorem Takes.andThen {read : Reader α} {next : α → Reader β} {bs bs' : List UInt8} {a : α}
    {b : β} (h : read.Takes bs a) (h' : (next a).Takes bs' b) :
    Reader.Takes (fun bs => do let (a, bs) ← read bs; next a bs) (bs ++ bs') b := by
  intro rest
  show (read (bs ++ bs' ++ rest) >>= fun (a, bs) => next a bs) = some (b, rest)
  rw [List.append_assoc, h]
  exact h' rest

/-- A value that is made into another. -/
theorem Takes.map {read : Reader α} {bs : List UInt8} {a : α} (h : read.Takes bs a)
    (f : α → β) : Reader.Takes (fun bs => do let (a, bs) ← read bs; some (f a, bs)) bs (f a) := by
  intro rest
  show (read (bs ++ rest) >>= fun (a, bs) => some (f a, bs)) = some (f a, rest)
  rw [h]
  rfl

end Reader

/-! ## Numbers -/

namespace Wire

theorem takes_bytes {n : Nat} {bs : List UInt8} (h : bs.length = n) : (bytes n).Takes bs bs := by
  intro rest
  rw [← h, bytes_append]

theorem takes_fixed (width : Nat) {n : Nat} (h : n < 256 ^ width) :
    (fixed width).Takes (littleEndian width n) n := by
  have hvalue : valueOfBytes (littleEndian width n) = n := by
    rw [valueOfBytes_littleEndian]
    exact Nat.mod_eq_of_lt h
  have hread := (takes_bytes (length_littleEndian width n)).map valueOfBytes
  rw [hvalue] at hread
  exact hread

theorem takes_varint32 {n : Nat} (h : n < 2 ^ 32) : readVarint32.Takes (varint n) n := by
  intro rest
  unfold varint
  by_cases hbyte : n < 251
  · have hlt : n < 256 := Nat.lt_trans hbyte (by decide)
    have hmark : UInt8.ofNat n < 251 := (UInt8.ofNat_lt_iff hlt).mpr hbyte
    have hvalue : (UInt8.ofNat n).toNat = n := UInt8.toNat_ofNat_of_lt' hlt
    rw [if_pos hbyte]
    simp [readVarint32, byte, hmark, hvalue]
  · rw [if_neg hbyte]
    by_cases htwo : n < 0x10000
    · rw [if_pos htwo]
      exact takes_fixed 2 htwo rest
    · have hfour : n < 0x100000000 := h
      rw [if_neg htwo, if_pos hfour]
      exact takes_fixed 4 h rest

/-- The wide reader reads everything that the narrow one reads. -/
theorem readVarint64_of_readVarint32 {bs : List UInt8} {x : Nat × List UInt8}
    (h : readVarint32 bs = some x) : readVarint64 bs = some x := by
  cases bs with
  | nil => exact h
  | cons b bs =>
    simp only [readVarint32, readVarint64, byte, Option.bind_eq_bind, Option.bind_some] at h ⊢
    by_cases hbyte : b < 251
    · rw [if_pos hbyte] at h ⊢
      exact h
    · rw [if_neg hbyte] at h ⊢
      by_cases htwo : b = 0xfb
      · rw [if_pos htwo] at h ⊢
        exact h
      · rw [if_neg htwo] at h ⊢
        by_cases hfour : b = 0xfc
        · rw [if_pos hfour] at h ⊢
          exact h
        · rw [if_neg hfour] at h
          cases h

theorem takes_varint64 {n : Nat} (h : n < 2 ^ 64) : readVarint64.Takes (varint n) n := by
  intro rest
  by_cases hnarrow : n < 2 ^ 32
  · exact readVarint64_of_readVarint32 (takes_varint32 hnarrow rest)
  · unfold varint
    rw [if_neg (by omega), if_neg (by omega), if_neg (by omega)]
    exact takes_fixed 8 h rest

theorem length_varint_pos (n : Nat) : 0 < (varint n).length := by
  unfold varint
  split
  · exact Nat.one_pos
  · split
    · exact Nat.succ_pos _
    · split <;> exact Nat.succ_pos _

theorem length_varint_append_pos (n : Nat) (bs : List UInt8) : 0 < (varint n ++ bs).length := by
  rw [List.length_append]
  exact Nat.add_pos_left (length_varint_pos n) _

/-- A folded number fits into eight bytes. -/
theorem foldSign_lt (n : Int64) : foldSign n < 2 ^ 64 := by
  have hlow := n.le_toInt
  have hhigh := n.toInt_lt
  unfold foldSign
  split <;> omega

theorem takes_repeated {α : Type} {item : Reader α} {write : α → List UInt8} {as : List α}
    (h : ∀ a ∈ as, item.Takes (write a) a) :
    (repeated item as.length).Takes (as.flatMap write) as := by
  intro rest
  induction as with
  | nil => rfl
  | cons a as ih =>
    have htail : ∀ b ∈ as, item.Takes (write b) b := fun b hb => h b (List.mem_cons_of_mem a hb)
    rw [List.flatMap_cons, List.append_assoc, List.length_cons, repeated, h a List.mem_cons_self]
    show (repeated item as.length (as.flatMap write ++ rest) >>= _) = _
    rw [ih htail]
    rfl

end Wire

namespace Payload

open Wire

/-! ## Texts and lists -/

theorem fromUTF8?_toByteArray (s : String) : String.fromUTF8? s.toByteArray = some s := by
  rw [String.fromUTF8?, dif_pos s.isValidUTF8]
  rfl

theorem takes_str {s : String} (h : s.utf8ByteSize < 2 ^ 64) : readStr.Takes (str s) s := by
  intro rest
  have hbytes : (Wire.bytes s.utf8ByteSize).Takes s.toByteArray.data.toList
      s.toByteArray.data.toList := takes_bytes rfl
  rw [str, List.append_assoc, readStr, takes_varint64 h]
  show (Wire.bytes s.utf8ByteSize (s.toByteArray.data.toList ++ rest) >>= _) = _
  rw [hbytes]
  show (String.fromUTF8? s.toByteArray >>= _) = _
  rw [fromUTF8?_toByteArray]
  rfl

theorem takes_list {α : Type} {item : Reader α} {write : α → List UInt8} {as : List α}
    (hlength : as.length < 2 ^ 64) (h : ∀ a ∈ as, item.Takes (write a) a) :
    (readList item).Takes (list write as) as :=
  (takes_varint64 hlength).andThen (takes_repeated h)

theorem utf8ByteSize_le_length_str (s : String) : s.utf8ByteSize ≤ (str s).length := by
  have hsize : s.toByteArray.data.toList.length = s.utf8ByteSize := rfl
  rw [str, List.length_append, hsize]
  exact Nat.le_add_left _ _

theorem length_item_le_length_list {α : Type} (write : α → List UInt8) {a : α} {as : List α}
    (h : a ∈ as) : (write a).length ≤ (list write as).length := by
  obtain ⟨before, after, rfl⟩ := List.append_of_mem h
  simp only [list, List.flatMap_append, List.flatMap_cons, List.length_append]
  omega

/-- There are no more items than bytes. -/
theorem length_le_length_list {α : Type} {write : α → List UInt8}
    (hpos : ∀ a, 0 < (write a).length) (as : List α) : as.length ≤ (list write as).length := by
  have hitems : as.length ≤ (as.flatMap write).length := by
    induction as with
    | nil => exact Nat.le_refl _
    | cons a as ih =>
      have ha := hpos a
      rw [List.flatMap_cons, List.length_append, List.length_cons]
      omega
  rw [list, List.length_append]
  omega

/-- A list comes back if all its bytes are fewer than a length can say. -/
theorem takes_list_of_length_lt {α : Type} {item : Reader α} {write : α → List UInt8}
    (hpos : ∀ a, 0 < (write a).length)
    (htakes : ∀ a, (write a).length < 2 ^ 64 → item.Takes (write a) a) {as : List α}
    (h : (list write as).length < 2 ^ 64) : (readList item).Takes (list write as) as := by
  refine takes_list (Nat.lt_of_le_of_lt (length_le_length_list hpos as) h) fun a ha => ?_
  exact htakes a (Nat.lt_of_le_of_lt (length_item_le_length_list write ha) h)

/-! ## Constants and instructions -/

theorem takes_bool (b : Bool) : readBool.Takes (bool b) b := by
  intro rest
  cases b <;> rfl

theorem takes_float (x : Double) : readFloat.Takes (float x) x := by
  have hread := (takes_fixed 8 x.bits.toNat_lt).map fun n => Double.mk (UInt64.ofNat n)
  rw [UInt64.ofNat_toNat] at hread
  exact hread

theorem takes_operand (i : UInt32) : readOperand.Takes (varint i.toNat) i := by
  have hread := (takes_varint32 i.toNat_lt).map UInt32.ofNat
  rw [UInt32.ofNat_toNat] at hread
  exact hread

theorem takes_str_of_length_lt {s : String} (h : (str s).length < 2 ^ 64) :
    readStr.Takes (str s) s :=
  takes_str (Nat.lt_of_le_of_lt (utf8ByteSize_le_length_str s) h)

theorem takes_constant {c : Constant} (h : (constant c).length < 2 ^ 64) :
    readConstant.Takes (constant c) c := by
  have hkind : ∀ {tag : Nat} {bs : List UInt8}, tag < 5 → (readConstantOf tag).Takes bs c →
      readConstant.Takes (varint tag ++ bs) c :=
    fun htag hbody => (takes_varint32 (by omega)).andThen hbody
  cases c with
  | none => exact fun rest => rfl
  | bool b => exact hkind (by decide) ((takes_bool b).map Constant.bool)
  | int n =>
    have hread := (takes_varint64 (foldSign_lt n)).map fun k => Constant.int (unfoldSign k)
    rw [unfoldSign_foldSign] at hread
    exact hkind (by decide) hread
  | float x => exact hkind (by decide) ((takes_float x).map Constant.float)
  | str s =>
    have hstr : (str s).length < 2 ^ 64 := by
      rw [constant, List.length_append] at h
      omega
    exact hkind (by decide) ((takes_str_of_length_lt hstr).map Constant.str)

theorem takes_instr (i : Instr) : readInstr.Takes (instr i) i := by
  have hkind : ∀ {tag : Nat} {bs : List UInt8}, tag < 8 → (readInstrOf tag).Takes bs i →
      readInstr.Takes (varint tag ++ bs) i :=
    fun htag hbody => (takes_varint32 (by omega)).andThen hbody
  cases i with
  | loadConst k => exact hkind (by decide) ((takes_operand k).map Instr.loadConst)
  | loadName k => exact hkind (by decide) ((takes_operand k).map Instr.loadName)
  | storeName k => exact hkind (by decide) ((takes_operand k).map Instr.storeName)
  | binary op => cases op <;> exact fun rest => rfl
  | unary op => cases op <;> exact fun rest => rfl
  | call n => exact hkind (by decide) ((takes_operand n).map Instr.call)
  | pop => exact fun rest => rfl
  | ret => exact fun rest => rfl

theorem length_str_pos (s : String) : 0 < (str s).length :=
  length_varint_append_pos _ _

theorem length_constant_pos (c : Constant) : 0 < (constant c).length := by
  cases c with
  | none => exact length_varint_pos 0
  | bool | int | float | str => exact length_varint_append_pos _ _

theorem length_instr_pos (i : Instr) : 0 < (instr i).length := by
  cases i with
  | pop => exact length_varint_pos 6
  | ret => exact length_varint_pos 7
  | loadConst | loadName | storeName | binary | unary | call =>
    exact length_varint_append_pos _ _

/-! ## Code -/

/-- A code object comes back if all its bytes are fewer than a length can say. -/
theorem takes_code {c : Code} (h : (code c).length < 2 ^ 64) : readCode.Takes (code c) c := by
  intro rest
  rw [code, List.length_append, List.length_append, List.length_append] at h
  have hfilename : readStr.Takes (str c.filename) c.filename :=
    takes_str_of_length_lt (by omega)
  have hconstants : (readList readConstant).Takes (list constant c.constants) c.constants :=
    takes_list_of_length_lt length_constant_pos (fun _ => takes_constant) (by omega)
  have hnames : (readList readStr).Takes (list str c.names) c.names :=
    takes_list_of_length_lt length_str_pos (fun _ => takes_str_of_length_lt) (by omega)
  have hinstructions : (readList readInstr).Takes (list instr c.instructions) c.instructions :=
    takes_list_of_length_lt length_instr_pos (fun i _ => takes_instr i) (by omega)
  rw [code, List.append_assoc, List.append_assoc, List.append_assoc, readCode, hfilename]
  show (readList readConstant _ >>= _) = _
  rw [hconstants]
  show (readList readStr _ >>= _) = _
  rw [hnames]
  show (readList readInstr _ >>= _) = _
  rw [hinstructions]
  rfl

end Payload

end StackScript
