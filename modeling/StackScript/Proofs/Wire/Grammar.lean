import Mathlib
import StackScript.Proofs.Wire.Readers

/-!
# The grammar of payloads

The bytes of a payload as a relation: `Payload.CodeForm c p` says that the bytes `p` spell the
code object `c`.  It is written down field by field and mentions no reader.  Unlike the writer
it leaves the width of every number open: a length, a kind, an operand or a folded integer may
stand in any form that holds it, so one code object has many spellings.  Kinds and operands
are numbers of 32 bits and have no form of eight bytes.

`Reader.Reads read form` ties a reader to a form in both directions.  Whatever the form
derives, the reader takes, and what follows is left alone; whatever the reader takes, the form
derives.  Both directions compose along a payload, and together they say that a form is
*prefix-free*: of two spellings at the front of the same bytes, both are the same, and so are
the values (`Reads.eq_of_append_eq`).
-/

namespace StackScript

/-- Which bytes spell a value. -/
abbrev Form (α : Type) := α → List UInt8 → Prop

/-! ## Forms -/

namespace Wire

/-- A number of 32 bits, in one byte or behind a marker. -/
inductive Spells32 : Form Nat
  | byte {n : Nat} (h : n < 251) : Spells32 n [UInt8.ofNat n]
  | two {n : Nat} (h : n < 256 ^ 2) : Spells32 n (0xfb :: littleEndian 2 n)
  | four {n : Nat} (h : n < 256 ^ 4) : Spells32 n (0xfc :: littleEndian 4 n)

/-- A number of 64 bits, in any form of a number of 32 bits or behind the widest marker. -/
inductive Spells64 : Form Nat
  | narrow {n : Nat} {bs : List UInt8} (h : Spells32 n bs) : Spells64 n bs
  | eight {n : Nat} (h : n < 256 ^ 8) : Spells64 n (0xfd :: littleEndian 8 n)

/-- Values one after the other. -/
inductive Items {α : Type} (item : Form α) : Form (List α)
  | nil : Items item [] []
  | cons {a : α} {as : List α} {bs cs : List UInt8} (head : item a bs) (tail : Items item as cs) :
      Items item (a :: as) (bs ++ cs)

end Wire

namespace Payload

open Wire

/-- A text: the number of its bytes, and its bytes. -/
inductive StrForm : Form String
  | mk {s : String} {length : List UInt8} (h : Spells64 s.utf8ByteSize length) :
      StrForm s (length ++ s.toByteArray.data.toList)

/-- A list: the number of its items, and its items. -/
inductive ListForm {α : Type} (item : Form α) : Form (List α)
  | mk {as : List α} {length bs : List UInt8} (h : Spells64 as.length length)
      (items : Items item as bs) : ListForm item as (length ++ bs)

/-- A double: the eight bytes of its bits. -/
def FloatForm : Form Double := fun x bs => bs.length = 8 ∧ valueOfBytes bs = x.bits.toNat

/-- A constant: its kind, and what belongs to it. -/
inductive ConstantForm : Form Constant
  | none {kind : List UInt8} (h : Spells32 0 kind) : ConstantForm .none kind
  | bool {kind : List UInt8} (h : Spells32 1 kind) (b : Bool) :
      ConstantForm (.bool b) (kind ++ [if b then 1 else 0])
  | int {kind bs : List UInt8} {n : Int64} (h : Spells32 2 kind) (body : Spells64 (foldSign n) bs) :
      ConstantForm (.int n) (kind ++ bs)
  | float {kind bs : List UInt8} {x : Double} (h : Spells32 3 kind) (body : FloatForm x bs) :
      ConstantForm (.float x) (kind ++ bs)
  | str {kind bs : List UInt8} {s : String} (h : Spells32 4 kind) (body : StrForm s bs) :
      ConstantForm (.str s) (kind ++ bs)

/-- An instruction: its kind, and its operand if it has one. -/
inductive InstrForm : Form Instr
  | loadConst {kind bs : List UInt8} {i : UInt32} (h : Spells32 0 kind)
      (body : Spells32 i.toNat bs) : InstrForm (.loadConst i) (kind ++ bs)
  | loadName {kind bs : List UInt8} {i : UInt32} (h : Spells32 1 kind)
      (body : Spells32 i.toNat bs) : InstrForm (.loadName i) (kind ++ bs)
  | storeName {kind bs : List UInt8} {i : UInt32} (h : Spells32 2 kind)
      (body : Spells32 i.toNat bs) : InstrForm (.storeName i) (kind ++ bs)
  | binary {kind bs : List UInt8} {op : BinaryOp} (h : Spells32 3 kind)
      (body : Spells32 (binaryTag op) bs) : InstrForm (.binary op) (kind ++ bs)
  | unary {kind bs : List UInt8} {op : UnaryOp} (h : Spells32 4 kind)
      (body : Spells32 (unaryTag op) bs) : InstrForm (.unary op) (kind ++ bs)
  | call {kind bs : List UInt8} {n : UInt32} (h : Spells32 5 kind)
      (body : Spells32 n.toNat bs) : InstrForm (.call n) (kind ++ bs)
  | pop {kind : List UInt8} (h : Spells32 6 kind) : InstrForm .pop kind
  | ret {kind : List UInt8} (h : Spells32 7 kind) : InstrForm .ret kind

/-- A code object: its four fields in order. -/
inductive CodeForm : Form Code
  | mk {c : Code} {filename constants names instructions : List UInt8}
      (hfilename : StrForm c.filename filename)
      (hconstants : ListForm ConstantForm c.constants constants)
      (hnames : ListForm StrForm c.names names)
      (hinstructions : ListForm InstrForm c.instructions instructions) :
      CodeForm c (filename ++ (constants ++ (names ++ instructions)))

end Payload

/-! ## Readers of forms -/

namespace Reader

variable {α β : Type}

/-- The reader takes exactly the spellings of the form. -/
structure Reads (read : Reader α) (form : Form α) : Prop where
  /-- What the form derives is taken, whatever follows. -/
  takes : ∀ {a : α} {bs : List UInt8}, form a bs → read.Takes bs a
  /-- What is taken is derived. -/
  derives : ∀ {bs : List UInt8} {a : α} {rest : List UInt8}, read bs = some (a, rest) →
    ∃ used, form a used ∧ bs = used ++ rest

/-- A form that has a reader is prefix-free. -/
theorem Reads.eq_of_append_eq {read : Reader α} {form : Form α} (h : read.Reads form) {a b : α}
    {as bs rest rest' : List UInt8} (ha : form a as) (hb : form b bs)
    (heq : as ++ rest = bs ++ rest') : a = b ∧ as = bs := by
  have hread := h.takes ha rest
  rw [heq, h.takes hb rest', Option.some.injEq, Prod.mk.injEq] at hread
  obtain ⟨rfl, rfl⟩ := hread
  exact ⟨rfl, List.append_cancel_right heq⟩

/-- If something was done with what a reader gave, the reader gave it. -/
theorem eq_some_of_bind {x : Option (α × List UInt8)} {next : α × List UInt8 → Option β} {b : β}
    (h : (x >>= next) = some b) : ∃ a rest, x = some (a, rest) ∧ next (a, rest) = some b := by
  obtain ⟨⟨a, rest⟩, hread, hnext⟩ := Option.bind_eq_some_iff.mp h
  exact ⟨a, rest, hread, hnext⟩

end Reader

/-! ## Numbers -/

namespace Wire

theorem valueOfBytes_lt (bs : List UInt8) : valueOfBytes bs < 256 ^ bs.length := by
  induction bs with
  | nil => exact Nat.one_pos
  | cons b bs ih =>
    have hb := b.toNat_lt
    rw [valueOfBytes, List.length_cons, Nat.pow_succ]
    omega

/-- Bytes are the bytes of the number that they spell. -/
theorem littleEndian_valueOfBytes (bs : List UInt8) :
    littleEndian bs.length (valueOfBytes bs) = bs := by
  induction bs with
  | nil => rfl
  | cons b bs ih =>
    have hb := b.toNat_lt
    have hlow : UInt8.ofNat (b.toNat + 256 * valueOfBytes bs) = b := by
      rw [← UInt8.toNat_inj, UInt8.toNat_ofNat']
      omega
    have hhigh : (b.toNat + 256 * valueOfBytes bs) / 256 = valueOfBytes bs := by omega
    rw [valueOfBytes, List.length_cons, littleEndian, hlow, hhigh, ih]

theorem append_of_bytes {n : Nat} {bs taken rest : List UInt8}
    (h : bytes n bs = some (taken, rest)) : taken.length = n ∧ bs = taken ++ rest := by
  unfold bytes at h
  split at h
  · next hle =>
    cases h
    exact ⟨List.length_take_of_le hle, (List.take_append_drop n bs).symm⟩
  · cases h

theorem append_of_fixed {width n : Nat} {bs rest : List UInt8}
    (h : fixed width bs = some (n, rest)) :
    n < 256 ^ width ∧ bs = littleEndian width n ++ rest := by
  obtain ⟨taken, middle, hbytes, hvalue⟩ := Reader.eq_some_of_bind h
  obtain ⟨rfl, rfl⟩ := append_of_bytes hbytes
  cases hvalue
  exact ⟨valueOfBytes_lt taken, by rw [littleEndian_valueOfBytes]⟩

/-- A marker and as many bytes as it announces. -/
theorem append_of_marker {marker : UInt8} {width n : Nat} {bs rest : List UInt8}
    (h : fixed width bs = some (n, rest)) :
    n < 256 ^ width ∧ marker :: bs = (marker :: littleEndian width n) ++ rest := by
  obtain ⟨hlt, rfl⟩ := append_of_fixed h
  exact ⟨hlt, rfl⟩

theorem reads_varint32 : Reader.Reads readVarint32 Spells32 where
  takes := by
    intro n bs h rest
    cases h with
    | byte h =>
      have hlt : n < 256 := Nat.lt_trans h (by decide)
      have hmark : UInt8.ofNat n < 251 := (UInt8.ofNat_lt_iff hlt).mpr h
      have hvalue : (UInt8.ofNat n).toNat = n := UInt8.toNat_ofNat_of_lt' hlt
      simp [readVarint32, byte, hmark, hvalue]
    | two h => exact takes_fixed 2 h rest
    | four h => exact takes_fixed 4 h rest
  derives := by
    intro bs n rest h
    cases bs with
    | nil => cases h
    | cons b bs =>
      simp only [readVarint32, byte, Option.bind_eq_bind, Option.bind_some] at h
      split at h
      · next hbyte =>
        cases h
        refine ⟨[b], ?_, rfl⟩
        have hform := Spells32.byte (UInt8.lt_iff_toNat_lt.mp hbyte)
        rw [UInt8.ofNat_toNat] at hform
        exact hform
      · split at h
        · next htwo =>
          obtain ⟨hlt, heq⟩ := append_of_marker h
          exact ⟨_, .two hlt, htwo ▸ heq⟩
        · split at h
          · next hfour =>
            obtain ⟨hlt, heq⟩ := append_of_marker h
            exact ⟨_, .four hlt, hfour ▸ heq⟩
          · cases h

/-- What only the wide reader reads stands behind the widest marker. -/
theorem readVarint32_or_marker {bs : List UInt8} {x : Nat × List UInt8}
    (h : readVarint64 bs = some x) :
    readVarint32 bs = some x ∨ ∃ tail, bs = 0xfd :: tail ∧ fixed 8 tail = some x := by
  cases bs with
  | nil => cases h
  | cons b bs =>
    simp only [readVarint32, readVarint64, byte, Option.bind_eq_bind, Option.bind_some] at h ⊢
    by_cases hmark : b = 0xfd
    · subst hmark
      exact .inr ⟨bs, rfl, h⟩
    · left
      rw [if_neg hmark] at h
      exact h

theorem reads_varint64 : Reader.Reads readVarint64 Spells64 where
  takes := by
    intro n bs h rest
    cases h with
    | narrow h => exact readVarint64_of_readVarint32 (reads_varint32.takes h rest)
    | eight h => exact takes_fixed 8 h rest
  derives := by
    intro bs n rest h
    rcases readVarint32_or_marker h with h | ⟨tail, rfl, h⟩
    · obtain ⟨used, hform, heq⟩ := reads_varint32.derives h
      exact ⟨used, .narrow hform, heq⟩
    · obtain ⟨hlt, heq⟩ := append_of_marker h
      exact ⟨_, .eight hlt, heq⟩

theorem lt_of_spells32 {n : Nat} {bs : List UInt8} (h : Spells32 n bs) : n < 2 ^ 32 := by
  cases h with
  | byte h => omega
  | two h => omega
  | four h => omega

theorem lt_of_spells64 {n : Nat} {bs : List UInt8} (h : Spells64 n bs) : n < 2 ^ 64 := by
  cases h with
  | narrow h =>
    have := lt_of_spells32 h
    omega
  | eight h => omega

/-- Every number that fits is the folding of a signed one. -/
theorem foldSign_unfoldSign {k : Nat} (h : k < 2 ^ 64) : foldSign (unfoldSign k) = k := by
  unfold unfoldSign foldSign
  split
  · next heven =>
    have hvalue : (Int64.ofInt ((k / 2 : Nat) : Int)).toInt = (k / 2 : Nat) :=
      Int64.toInt_ofInt_of_le (by omega) (by omega)
    rw [hvalue, if_neg (by omega)]
    omega
  · next hodd =>
    have hvalue : (Int64.ofInt (-((k / 2 : Nat) : Int) - 1)).toInt = -((k / 2 : Nat) : Int) - 1 :=
      Int64.toInt_ofInt_of_le (by omega) (by omega)
    rw [hvalue, if_pos (by omega)]
    omega

/-! ## Repetition -/

theorem takes_items {α : Type} {item : Reader α} {form : Form α} (h : item.Reads form)
    {as : List α} {bs : List UInt8} (hitems : Items form as bs) :
    (repeated item as.length).Takes bs as := by
  induction hitems with
  | nil => exact fun rest => rfl
  | cons head tail ih =>
    intro rest
    rw [List.append_assoc, List.length_cons, repeated, h.takes head]
    show (repeated item _ _ >>= _) = _
    rw [ih]
    rfl

theorem items_of_repeated {α : Type} {item : Reader α} {form : Form α} (h : item.Reads form)
    {n : Nat} {bs rest : List UInt8} {as : List α} (hread : repeated item n bs = some (as, rest)) :
    as.length = n ∧ ∃ used, Items form as used ∧ bs = used ++ rest := by
  induction n generalizing bs as with
  | zero =>
    cases hread
    exact ⟨rfl, [], .nil, rfl⟩
  | succ n ih =>
    obtain ⟨a, middle, hitem, hmore⟩ := Reader.eq_some_of_bind hread
    obtain ⟨tail, end_, htail, hdone⟩ := Reader.eq_some_of_bind hmore
    cases hdone
    obtain ⟨used, hform, rfl⟩ := h.derives hitem
    obtain ⟨rfl, used', hitems, rfl⟩ := ih htail
    exact ⟨rfl, used ++ used', .cons hform hitems, (List.append_assoc _ _ _).symm⟩

end Wire

namespace Payload

open Wire

/-! ## Texts and lists -/

theorem reads_str : Reader.Reads readStr StrForm where
  takes := by
    rintro s bs ⟨hlength⟩ rest
    have hbytes : (Wire.bytes s.utf8ByteSize).Takes s.toByteArray.data.toList
        s.toByteArray.data.toList := takes_bytes rfl
    rw [List.append_assoc, readStr, reads_varint64.takes hlength]
    show (Wire.bytes s.utf8ByteSize (s.toByteArray.data.toList ++ rest) >>= _) = _
    rw [hbytes]
    show (String.fromUTF8? s.toByteArray >>= _) = _
    rw [fromUTF8?_toByteArray]
    rfl
  derives := by
    intro bs s rest h
    obtain ⟨n, middle, hlength, hmore⟩ := Reader.eq_some_of_bind h
    obtain ⟨taken, middle', hbytes, hlast⟩ := Reader.eq_some_of_bind hmore
    obtain ⟨t, htext, hdone⟩ := Option.bind_eq_some_iff.mp hlast
    cases hdone
    obtain ⟨used, hform, rfl⟩ := reads_varint64.derives hlength
    obtain ⟨rfl, rfl⟩ := append_of_bytes hbytes
    have hdata : s.toByteArray = ⟨taken.toArray⟩ := by
      rw [String.fromUTF8?] at htext
      split at htext
      · cases htext
        rfl
      · cases htext
    have hsize : s.utf8ByteSize = taken.length := by
      rw [← String.size_toByteArray, hdata]
      exact List.size_toArray
    have htaken : s.toByteArray.data.toList = taken := by rw [hdata]
    rw [← hsize] at hform
    exact ⟨_, .mk hform, by rw [htaken, List.append_assoc]⟩

theorem reads_list {α : Type} {item : Reader α} {form : Form α} (h : item.Reads form) :
    Reader.Reads (readList item) (ListForm form) where
  takes := by
    rintro as bs ⟨hlength, hitems⟩
    exact (reads_varint64.takes hlength).andThen (takes_items h hitems)
  derives := by
    intro bs as rest hread
    obtain ⟨n, middle, hlength, hrepeated⟩ := Reader.eq_some_of_bind hread
    obtain ⟨used, hform, rfl⟩ := reads_varint64.derives hlength
    obtain ⟨rfl, used', hitems, rfl⟩ := items_of_repeated h hrepeated
    exact ⟨used ++ used', .mk hform hitems, (List.append_assoc _ _ _).symm⟩

/-! ## Constants -/

theorem bool_of_readBool {bs rest : List UInt8} {b : Bool} (h : readBool bs = some (b, rest)) :
    bs = [if b then 1 else 0] ++ rest := by
  cases bs with
  | nil => cases h
  | cons x bs =>
    simp only [readBool, byte, Option.bind_eq_bind, Option.bind_some] at h
    split at h
    · next hzero =>
      cases h
      rw [hzero]
      rfl
    · split at h
      · next hone =>
        cases h
        rw [hone]
        rfl
      · cases h

theorem reads_float : Reader.Reads readFloat FloatForm where
  takes := by
    rintro x bs ⟨hlength, hvalue⟩
    have hread := ((takes_bytes hlength).map valueOfBytes).map fun n => Double.mk (UInt64.ofNat n)
    rw [hvalue, UInt64.ofNat_toNat] at hread
    exact hread
  derives := by
    intro bs x rest h
    obtain ⟨n, middle, hfixed, hdone⟩ := Reader.eq_some_of_bind h
    cases hdone
    obtain ⟨taken, middle', hbytes, hvalue⟩ := Reader.eq_some_of_bind hfixed
    cases hvalue
    obtain ⟨hlength, rfl⟩ := append_of_bytes hbytes
    have hlt : valueOfBytes taken < 2 ^ 64 := by
      have hvalue := valueOfBytes_lt taken
      rwa [hlength] at hvalue
    exact ⟨taken, ⟨hlength, (UInt64.toNat_ofNat_of_lt' hlt).symm⟩, rfl⟩

theorem constantForm_of_readConstantOf {kind bs rest : List UInt8} {tag : Nat} {c : Constant}
    (hkind : Spells32 tag kind) (h : readConstantOf tag bs = some (c, rest)) :
    ∃ used, ConstantForm c (kind ++ used) ∧ bs = used ++ rest := by
  match tag, hkind, h with
  | 0, hkind, h =>
    cases h
    exact ⟨[], by rw [List.append_nil]; exact .none hkind, rfl⟩
  | 1, hkind, h =>
    obtain ⟨b, middle, hbool, hdone⟩ := Reader.eq_some_of_bind h
    cases hdone
    exact ⟨_, .bool hkind b, bool_of_readBool hbool⟩
  | 2, hkind, h =>
    obtain ⟨k, middle, hvarint, hdone⟩ := Reader.eq_some_of_bind h
    cases hdone
    obtain ⟨used, hform, rfl⟩ := reads_varint64.derives hvarint
    rw [← foldSign_unfoldSign (lt_of_spells64 hform)] at hform
    exact ⟨used, .int hkind hform, rfl⟩
  | 3, hkind, h =>
    obtain ⟨x, middle, hfloat, hdone⟩ := Reader.eq_some_of_bind h
    cases hdone
    obtain ⟨used, hform, rfl⟩ := reads_float.derives hfloat
    exact ⟨used, .float hkind hform, rfl⟩
  | 4, hkind, h =>
    obtain ⟨s, middle, hstr, hdone⟩ := Reader.eq_some_of_bind h
    cases hdone
    obtain ⟨used, hform, rfl⟩ := reads_str.derives hstr
    exact ⟨used, .str hkind hform, rfl⟩
  | _ + 5, _, h => cases h

theorem reads_constant : Reader.Reads readConstant ConstantForm where
  takes := by
    intro c bs h
    have hkind : ∀ {tag : Nat} {kind bs : List UInt8}, Spells32 tag kind →
        (readConstantOf tag).Takes bs c → readConstant.Takes (kind ++ bs) c :=
      fun hkind hbody => (reads_varint32.takes hkind).andThen hbody
    cases h with
    | none h =>
      have hread : readConstant.Takes (bs ++ []) .none := hkind h fun rest => rfl
      rw [List.append_nil] at hread
      exact hread
    | bool h b => exact hkind h ((takes_bool b).map Constant.bool)
    | int h body =>
      have hread := (reads_varint64.takes body).map fun k => Constant.int (unfoldSign k)
      rw [unfoldSign_foldSign] at hread
      exact hkind h hread
    | float h body => exact hkind h ((reads_float.takes body).map Constant.float)
    | str h body => exact hkind h ((reads_str.takes body).map Constant.str)
  derives := by
    intro bs c rest h
    obtain ⟨tag, middle, hvarint, hbody⟩ := Reader.eq_some_of_bind h
    obtain ⟨kind, hkind, rfl⟩ := reads_varint32.derives hvarint
    obtain ⟨used, hform, rfl⟩ := constantForm_of_readConstantOf hkind hbody
    exact ⟨kind ++ used, hform, (List.append_assoc _ _ _).symm⟩

/-! ## Instructions -/

theorem binaryTag_of_binaryOfTag? {n : Nat} {op : BinaryOp} (h : binaryOfTag? n = some op) :
    binaryTag op = n := by
  match n, h with
  | 0, h | 1, h | 2, h | 3, h | 4, h | 5, h =>
    cases h
    rfl
  | _ + 6, h => cases h

theorem unaryTag_of_unaryOfTag? {n : Nat} {op : UnaryOp} (h : unaryOfTag? n = some op) :
    unaryTag op = n := by
  match n, h with
  | 0, h | 1, h =>
    cases h
    rfl
  | _ + 2, h => cases h

/-- An operand, and what is made of it. -/
theorem spells_of_readOperand {make : UInt32 → Instr} {bs rest : List UInt8} {i : Instr}
    (h : (do let (k, bs) ← readOperand bs; some (make k, bs)) = some (i, rest)) :
    ∃ k used, i = make k ∧ Spells32 k.toNat used ∧ bs = used ++ rest := by
  obtain ⟨k, middle, hoperand, hdone⟩ := Reader.eq_some_of_bind h
  cases hdone
  obtain ⟨n, middle', hvarint, hvalue⟩ := Reader.eq_some_of_bind hoperand
  cases hvalue
  obtain ⟨used, hform, rfl⟩ := reads_varint32.derives hvarint
  refine ⟨UInt32.ofNat n, used, rfl, ?_, rfl⟩
  rw [UInt32.toNat_ofNat_of_lt' (lt_of_spells32 hform)]
  exact hform

theorem instrForm_of_readInstrOf {kind bs rest : List UInt8} {tag : Nat} {i : Instr}
    (hkind : Spells32 tag kind) (h : readInstrOf tag bs = some (i, rest)) :
    ∃ used, InstrForm i (kind ++ used) ∧ bs = used ++ rest := by
  match tag, hkind, h with
  | 0, hkind, h =>
    obtain ⟨k, used, rfl, hform, rfl⟩ := spells_of_readOperand h
    exact ⟨used, .loadConst hkind hform, rfl⟩
  | 1, hkind, h =>
    obtain ⟨k, used, rfl, hform, rfl⟩ := spells_of_readOperand h
    exact ⟨used, .loadName hkind hform, rfl⟩
  | 2, hkind, h =>
    obtain ⟨k, used, rfl, hform, rfl⟩ := spells_of_readOperand h
    exact ⟨used, .storeName hkind hform, rfl⟩
  | 3, hkind, h =>
    obtain ⟨n, middle, hvarint, hmore⟩ := Reader.eq_some_of_bind h
    obtain ⟨op, htag, hdone⟩ := Option.bind_eq_some_iff.mp hmore
    cases hdone
    obtain ⟨used, hform, rfl⟩ := reads_varint32.derives hvarint
    rw [← binaryTag_of_binaryOfTag? htag] at hform
    exact ⟨used, .binary hkind hform, rfl⟩
  | 4, hkind, h =>
    obtain ⟨n, middle, hvarint, hmore⟩ := Reader.eq_some_of_bind h
    obtain ⟨op, htag, hdone⟩ := Option.bind_eq_some_iff.mp hmore
    cases hdone
    obtain ⟨used, hform, rfl⟩ := reads_varint32.derives hvarint
    rw [← unaryTag_of_unaryOfTag? htag] at hform
    exact ⟨used, .unary hkind hform, rfl⟩
  | 5, hkind, h =>
    obtain ⟨k, used, rfl, hform, rfl⟩ := spells_of_readOperand h
    exact ⟨used, .call hkind hform, rfl⟩
  | 6, hkind, h =>
    cases h
    exact ⟨[], by rw [List.append_nil]; exact .pop hkind, rfl⟩
  | 7, hkind, h =>
    cases h
    exact ⟨[], by rw [List.append_nil]; exact .ret hkind, rfl⟩
  | _ + 8, _, h => cases h

theorem takes_spelledOperand {k : UInt32} {bs : List UInt8} (h : Spells32 k.toNat bs) :
    readOperand.Takes bs k := by
  have hread := (reads_varint32.takes h).map UInt32.ofNat
  rw [UInt32.ofNat_toNat] at hread
  exact hread

theorem reads_instr : Reader.Reads readInstr InstrForm where
  takes := by
    intro i bs h
    have hkind : ∀ {tag : Nat} {kind bs : List UInt8}, Spells32 tag kind →
        (readInstrOf tag).Takes bs i → readInstr.Takes (kind ++ bs) i :=
      fun hkind hbody => (reads_varint32.takes hkind).andThen hbody
    have hbare : ∀ {tag : Nat} {kind : List UInt8}, Spells32 tag kind →
        (readInstrOf tag).Takes [] i → readInstr.Takes kind i := by
      intro tag kind h hbody
      have hread := hkind h hbody
      rw [List.append_nil] at hread
      exact hread
    cases h with
    | loadConst h body => exact hkind h ((takes_spelledOperand body).map Instr.loadConst)
    | loadName h body => exact hkind h ((takes_spelledOperand body).map Instr.loadName)
    | storeName h body => exact hkind h ((takes_spelledOperand body).map Instr.storeName)
    | @binary _ _ op h body =>
      refine hkind h fun rest => ?_
      show (readVarint32 _ >>= _) = _
      rw [reads_varint32.takes body]
      cases op <;> rfl
    | @unary _ _ op h body =>
      refine hkind h fun rest => ?_
      show (readVarint32 _ >>= _) = _
      rw [reads_varint32.takes body]
      cases op <;> rfl
    | call h body => exact hkind h ((takes_spelledOperand body).map Instr.call)
    | pop h => exact hbare h fun rest => rfl
    | ret h => exact hbare h fun rest => rfl
  derives := by
    intro bs i rest h
    obtain ⟨tag, middle, hvarint, hbody⟩ := Reader.eq_some_of_bind h
    obtain ⟨kind, hkind, rfl⟩ := reads_varint32.derives hvarint
    obtain ⟨used, hform, rfl⟩ := instrForm_of_readInstrOf hkind hbody
    exact ⟨kind ++ used, hform, (List.append_assoc _ _ _).symm⟩

/-! ## Code -/

/-- The decoder takes exactly what the grammar derives. -/
theorem reads_code : Reader.Reads readCode CodeForm where
  takes := by
    rintro c bs ⟨hfilename, hconstants, hnames, hinstructions⟩ rest
    rw [List.append_assoc, List.append_assoc, List.append_assoc, readCode,
      reads_str.takes hfilename]
    show (readList readConstant _ >>= _) = _
    rw [(reads_list reads_constant).takes hconstants]
    show (readList readStr _ >>= _) = _
    rw [(reads_list reads_str).takes hnames]
    show (readList readInstr _ >>= _) = _
    rw [(reads_list reads_instr).takes hinstructions]
    rfl
  derives := by
    intro bs c rest h
    obtain ⟨filename, bs₁, hfilename, h₁⟩ := Reader.eq_some_of_bind h
    obtain ⟨constants, bs₂, hconstants, h₂⟩ := Reader.eq_some_of_bind h₁
    obtain ⟨names, bs₃, hnames, h₃⟩ := Reader.eq_some_of_bind h₂
    obtain ⟨instructions, bs₄, hinstructions, hdone⟩ := Reader.eq_some_of_bind h₃
    cases hdone
    obtain ⟨used₁, hform₁, rfl⟩ := reads_str.derives hfilename
    obtain ⟨used₂, hform₂, rfl⟩ := (reads_list reads_constant).derives hconstants
    obtain ⟨used₃, hform₃, rfl⟩ := (reads_list reads_str).derives hnames
    obtain ⟨used₄, hform₄, rfl⟩ := (reads_list reads_instr).derives hinstructions
    exact ⟨used₁ ++ (used₂ ++ (used₃ ++ used₄)), .mk hform₁ hform₂ hform₃ hform₄,
      by simp only [List.append_assoc]⟩

end Payload

end StackScript
