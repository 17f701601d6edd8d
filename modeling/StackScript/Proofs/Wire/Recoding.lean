import Mathlib
import StackScript.Proofs.Wire.Acceptance

/-!
# Writing again what was read

A code object has many spellings, and the writer uses one of them.  So a container that is read and
written again need not come out as it was.  This module says what does come out: a container that
is no longer, that means the same, and that never changes again.

A payload is a row of fields, and the code object determines which (`Code.fields`).  Kinds,
operands, lengths and folded integers are numbers, and these are the fields that leave a choice;
truth values, doubles and texts stand for themselves.  Everything here is therefore a fact about one
field that is added up along the row: no spelling of a field is shorter than what is written
(`Field.length_bytes_le`), and a number has one spelling of each length, so that a spelling as
short as possible is what is written (`Field.eq_bytes_of_shortest`).
-/

namespace StackScript

/-! ## Numbers -/

namespace Wire

variable {n : Nat} {bs bs' : List UInt8}

/-- What is written for a number of 32 bits spells it. -/
theorem spells32_varint (h : n < 2 ^ 32) : Spells32 n (varint n) := by
  unfold varint
  split
  · next hbyte => exact .byte hbyte
  · split
    · next htwo => exact .two htwo
    · have hfour : n < 0x100000000 := h
      rw [if_pos hfour]
      exact .four hfour

/-- What is written for a number of 64 bits spells it. -/
theorem spells64_varint (h : n < 2 ^ 64) : Spells64 n (varint n) := by
  by_cases hnarrow : n < 2 ^ 32
  · exact .narrow (spells32_varint hnarrow)
  · unfold varint
    rw [if_neg (by omega), if_neg (by omega), if_neg (by omega)]
    exact .eight h

/-- No form of a number is shorter than the one that is written. -/
theorem length_varint_le_of_spells32 (h : Spells32 n bs) : (varint n).length ≤ bs.length := by
  unfold varint
  cases h with
  | byte h =>
    rw [if_pos h]
  | two h =>
    split
    · exact Nat.le_add_left 1 2
    · have htwo : n < 0x10000 := h
      rw [if_pos htwo]
  | four h =>
    split
    · exact Nat.le_add_left 1 4
    · split
      · exact Nat.le_add_left 3 2
      · have hfour : n < 0x100000000 := h
        rw [if_pos hfour]

theorem length_varint_le_of_spells64 (h : Spells64 n bs) : (varint n).length ≤ bs.length := by
  cases h with
  | narrow h => exact length_varint_le_of_spells32 h
  | eight h =>
    unfold varint
    split
    · exact Nat.le_add_left 1 8
    · split
      · exact Nat.le_add_left 3 6
      · split
        · exact Nat.le_add_left 5 4
        · exact Nat.le_refl 9

/-- A number has one form of each length. -/
theorem eq_of_spells32_of_length (h : Spells32 n bs) (h' : Spells32 n bs')
    (hlength : bs.length = bs'.length) : bs = bs' := by
  cases h <;> cases h' <;> first | rfl | simp at hlength

theorem eq_of_spells64_of_length (h : Spells64 n bs) (h' : Spells64 n bs')
    (hlength : bs.length = bs'.length) : bs = bs' := by
  cases h with
  | narrow h =>
    cases h' with
    | narrow h' => exact eq_of_spells32_of_length h h' hlength
    | eight => cases h <;> simp at hlength
  | eight =>
    cases h' with
    | narrow h' => cases h' <;> simp at hlength
    | eight => rfl

/-! ## Rows -/

section Items

variable {α : Type} {item : Form α} {a : α} {as as' : List α}

theorem Items.append (h : Items item as bs) (h' : Items item as' bs') :
    Items item (as ++ as') (bs ++ bs') := by
  induction h with
  | nil => exact h'
  | cons head _ ih =>
    rw [List.append_assoc]
    exact .cons head ih

theorem items_cons_iff : Items item (a :: as) bs ↔
    ∃ front back, item a front ∧ Items item as back ∧ bs = front ++ back := by
  constructor
  · rintro (_ | ⟨head, tail⟩)
    exact ⟨_, _, head, tail, rfl⟩
  · rintro ⟨front, back, head, tail, rfl⟩
    exact .cons head tail

end Items

end Wire

/-! ## Doubles -/

namespace Payload

open Wire

/-- A double is spelled by its own bits only. -/
theorem eq_float_of_floatForm {x : Double} {bs : List UInt8} (h : FloatForm x bs) :
    bs = float x := by
  obtain ⟨hlength, hvalue⟩ := h
  rw [float, ← hvalue, ← hlength, littleEndian_valueOfBytes]

/-! ## Fields -/

/-- What a payload is made of. -/
inductive Field where
  /-- A number of 32 bits. -/
  | narrow (n : Nat)
  /-- A number of 64 bits. -/
  | wide (n : Nat)
  /-- Bytes that stand for themselves. -/
  | raw (bs : List UInt8)

namespace Field

/-- Which bytes spell a field. -/
def Spells : Form Field
  | .narrow n => Spells32 n
  | .wide n => Spells64 n
  | .raw bs => fun bs' => bs' = bs

/-- The bytes that are written for a field. -/
def bytes : Field → List UInt8
  | .narrow n => varint n
  | .wide n => varint n
  | .raw bs => bs

/-- The field is spelled as short as it can be. -/
def Shortest : Form Field := fun f bs => f.Spells bs ∧ ∀ bs', f.Spells bs' → bs.length ≤ bs'.length

variable {f : Field} {bs bs' : List UInt8}

/-- What can be spelled at all is spelled by what is written for it. -/
theorem spells_bytes (h : f.Spells bs) : f.Spells f.bytes := by
  cases f with
  | narrow n => exact spells32_varint (lt_of_spells32 h)
  | wide n => exact spells64_varint (lt_of_spells64 h)
  | raw bs => exact rfl

/-- No spelling of a field is shorter than what is written for it. -/
theorem length_bytes_le (h : f.Spells bs) : f.bytes.length ≤ bs.length := by
  cases f with
  | narrow n => exact length_varint_le_of_spells32 h
  | wide n => exact length_varint_le_of_spells64 h
  | raw bs => exact Nat.le_of_eq (congrArg List.length h.symm)

theorem shortest_bytes (h : f.Spells bs) : f.Shortest f.bytes :=
  ⟨spells_bytes h, fun _ => length_bytes_le⟩

/-- A field has one spelling that is as short as possible. -/
theorem eq_bytes_of_shortest (h : f.Shortest bs) : f.bytes = bs := by
  obtain ⟨hform, hmin⟩ := h
  have hlength : f.bytes.length = bs.length :=
    Nat.le_antisymm (length_bytes_le hform) (hmin _ (spells_bytes hform))
  cases f with
  | narrow n => exact eq_of_spells32_of_length (spells_bytes hform) hform hlength
  | wide n => exact eq_of_spells64_of_length (spells_bytes hform) hform hlength
  | raw bs => exact hform.symm

/-- Of two spellings of a field at the front of the same bytes, both are the same. -/
theorem eq_of_append_eq {rest rest' : List UInt8} (h : f.Spells bs) (h' : f.Spells bs')
    (heq : bs ++ rest = bs' ++ rest') : bs = bs' := by
  cases f with
  | narrow n => exact (reads_varint32.eq_of_append_eq h h' heq).2
  | wide n => exact (reads_varint64.eq_of_append_eq h h' heq).2
  | raw raw => exact (show bs = raw from h).trans (show bs' = raw from h').symm

/-! ### Rows of fields -/

variable {fs : List Field} {p : List UInt8}

theorem items_single (f : Field) (h : f.Spells bs) : Items Spells [f] bs := by
  rw [← List.append_nil bs]
  exact .cons h .nil

theorem items_pair (f g : Field) (h : f.Spells bs) (h' : g.Spells bs') :
    Items Spells [f, g] (bs ++ bs') :=
  .cons h (items_single g h')

theorem length_flatMap_bytes_le (h : Items Spells fs p) :
    (fs.flatMap bytes).length ≤ p.length := by
  induction h with
  | nil => exact Nat.le_refl 0
  | cons head _ ih =>
    rw [List.flatMap_cons, List.length_append, List.length_append]
    exact Nat.add_le_add (length_bytes_le head) ih

/-- A stricter form of the fields holds of a row if it holds of every field where it stands. -/
theorem items_cons_append_iff (form : Form Field) (hform : ∀ {f bs}, form f bs → f.Spells bs)
    {rest : List UInt8} (head : f.Spells bs) :
    Items form (f :: fs) (bs ++ rest) ↔ form f bs ∧ Items form fs rest := by
  rw [items_cons_iff]
  constructor
  · rintro ⟨front, back, hfront, hback, heq⟩
    obtain rfl := eq_of_append_eq head (hform hfront) heq
    obtain rfl := List.append_cancel_left heq
    exact ⟨hfront, hback⟩
  · rintro ⟨hhead, htail⟩
    exact ⟨bs, rest, hhead, htail, rfl⟩

/-- A row is what would be written exactly if every field is as short as possible. -/
theorem flatMap_bytes_eq_iff (h : Items Spells fs p) :
    fs.flatMap bytes = p ↔ Items Shortest fs p := by
  induction h with
  | nil => exact ⟨fun _ => .nil, fun _ => rfl⟩
  | @cons f fs bs rest head _ ih =>
    rw [items_cons_append_iff Shortest And.left head, List.flatMap_cons]
    constructor
    · intro heq
      have hfront := eq_of_append_eq (spells_bytes head) head heq
      rw [hfront] at heq
      exact ⟨hfront ▸ shortest_bytes head, ih.mp (List.append_cancel_left heq)⟩
    · rintro ⟨hshortest, htail⟩
      rw [eq_bytes_of_shortest hshortest, ih.mpr htail]

end Field

/-! ## The fields of a payload -/

/-- A text is its length and its bytes. -/
def strFields (s : String) : List Field := [.wide s.utf8ByteSize, .raw s.toByteArray.data.toList]

/-- A list is its length and its items. -/
def listFields {α : Type} (item : α → List Field) (as : List α) : List Field :=
  .wide as.length :: as.flatMap item

/-- A constant is its kind and what belongs to it. -/
def constantFields : Constant → List Field
  | .none => [.narrow 0]
  | .bool b => [.narrow 1, .raw (bool b)]
  | .int n => [.narrow 2, .wide (foldSign n)]
  | .float x => [.narrow 3, .raw (float x)]
  | .str s => .narrow 4 :: strFields s

/-- An instruction is its kind and its operand, if it has one. -/
def instrFields : Instr → List Field
  | .loadConst i => [.narrow 0, .narrow i.toNat]
  | .loadName i => [.narrow 1, .narrow i.toNat]
  | .storeName i => [.narrow 2, .narrow i.toNat]
  | .binary op => [.narrow 3, .narrow (binaryTag op)]
  | .unary op => [.narrow 4, .narrow (unaryTag op)]
  | .call n => [.narrow 5, .narrow n.toNat]
  | .pop => [.narrow 6]
  | .ret => [.narrow 7]

end Payload

/-- A code object is its four parts in order. -/
def Code.fields (c : Code) : List Payload.Field :=
  Payload.strFields c.filename ++ (Payload.listFields Payload.constantFields c.constants ++
    (Payload.listFields Payload.strFields c.names ++
      Payload.listFields Payload.instrFields c.instructions))

namespace Payload

open Wire

/-! ### What spells the object spells its fields -/

theorem items_of_strForm (s : String) (bs : List UInt8) (h : StrForm s bs) :
    Items Field.Spells (strFields s) bs := by
  obtain ⟨hlength⟩ := h
  exact Field.items_pair (.wide _) (.raw _) hlength rfl

theorem items_of_listForm {α : Type} {form : Form α} {fields : α → List Field}
    (hitem : ∀ a bs, form a bs → Items Field.Spells (fields a) bs) {as : List α}
    {bs : List UInt8} (h : ListForm form as bs) :
    Items Field.Spells (listFields fields as) bs := by
  obtain ⟨hlength, hitems⟩ := h
  have hbody : ∀ {as bs}, Items form as bs → Items Field.Spells (as.flatMap fields) bs := by
    intro as bs hitems
    induction hitems with
    | nil => exact .nil
    | cons head _ ih => exact (hitem _ _ head).append ih
  have hwide : (Field.wide as.length).Spells _ := hlength
  exact .cons hwide (hbody hitems)

theorem items_of_constantForm (c : Constant) (bs : List UInt8) (h : ConstantForm c bs) :
    Items Field.Spells (constantFields c) bs := by
  cases h with
  | none h => exact Field.items_single (.narrow 0) h
  | bool h b => exact Field.items_pair (.narrow 1) (.raw (bool b)) h rfl
  | int h body => exact Field.items_pair (.narrow 2) (.wide _) h body
  | float h body =>
    exact Field.items_pair (.narrow 3) (.raw (float _)) h (eq_float_of_floatForm body)
  | str h body =>
    have hkind : (Field.narrow 4).Spells _ := h
    exact .cons hkind (items_of_strForm _ _ body)

theorem items_of_instrForm (i : Instr) (bs : List UInt8) (h : InstrForm i bs) :
    Items Field.Spells (instrFields i) bs := by
  cases h with
  | loadConst h body | loadName h body | storeName h body | binary h body | unary h body
  | call h body => exact Field.items_pair (.narrow _) (.narrow _) h body
  | pop h | ret h => exact Field.items_single (.narrow _) h

theorem items_of_codeForm {c : Code} {p : List UInt8} (h : CodeForm c p) :
    Items Field.Spells c.fields p := by
  obtain ⟨hfilename, hconstants, hnames, hinstructions⟩ := h
  exact (items_of_strForm _ _ hfilename).append
    ((items_of_listForm items_of_constantForm hconstants).append
      ((items_of_listForm items_of_strForm hnames).append
        (items_of_listForm items_of_instrForm hinstructions)))

/-! ### What is written is written field by field -/

theorem flatMap_strFields (s : String) : (strFields s).flatMap Field.bytes = str s :=
  congrArg (varint s.utf8ByteSize ++ ·) (List.append_nil _)

theorem flatMap_listFields {α : Type} {fields : α → List Field} {write : α → List UInt8}
    (h : ∀ a, (fields a).flatMap Field.bytes = write a) (as : List α) :
    (listFields fields as).flatMap Field.bytes = list write as := by
  rw [listFields, List.flatMap_cons, List.flatMap_assoc, list, Field.bytes]
  simp only [h]

theorem flatMap_constantFields (c : Constant) :
    (constantFields c).flatMap Field.bytes = constant c := by
  cases c with
  | none => rfl
  | str s =>
    rw [constantFields, List.flatMap_cons, flatMap_strFields]
    rfl
  | bool | int | float =>
    rw [constantFields, List.flatMap_cons, List.flatMap_singleton]
    rfl

theorem flatMap_instrFields (i : Instr) : (instrFields i).flatMap Field.bytes = instr i := by
  cases i with
  | pop | ret => rfl
  | loadConst | loadName | storeName | binary | unary | call =>
    rw [instrFields, List.flatMap_cons, List.flatMap_singleton]
    rfl

theorem flatMap_fields (c : Code) : c.fields.flatMap Field.bytes = code c := by
  rw [Code.fields, List.flatMap_append, List.flatMap_append, List.flatMap_append,
    flatMap_strFields, flatMap_listFields flatMap_constantFields,
    flatMap_listFields flatMap_strFields, flatMap_listFields flatMap_instrFields, code,
    List.append_assoc, List.append_assoc]

/-- No spelling of a code object is shorter than the one that is written. -/
theorem length_code_le_of_codeForm {c : Code} {p : List UInt8} (h : CodeForm c p) :
    (code c).length ≤ p.length := by
  rw [← flatMap_fields]
  exact Field.length_flatMap_bytes_le (items_of_codeForm h)

end Payload

/-! ## What an object holds -/

/-- The bytes of the text in a constant. -/
def Constant.textBytes : Constant → Nat
  | .str s => s.utf8ByteSize
  | _ => 0

/-- The bytes of all the texts in a code object. -/
def Code.textBytes (c : Code) : Nat :=
  c.filename.utf8ByteSize + (c.constants.map Constant.textBytes).sum
    + (c.names.map String.utf8ByteSize).sum

namespace Payload

theorem succ_utf8ByteSize_le_length_str (s : String) : 1 + s.utf8ByteSize ≤ (str s).length := by
  have hsize : s.toByteArray.data.toList.length = s.utf8ByteSize := rfl
  rw [str, List.length_append, hsize]
  exact Nat.add_le_add_right (Wire.length_varint_pos _) _

theorem succ_textBytes_le_length_constant (k : Constant) :
    1 + k.textBytes ≤ (constant k).length := by
  cases k with
  | str s =>
    have hstr := succ_utf8ByteSize_le_length_str s
    rw [constant, List.length_append]
    exact Nat.le_add_left_of_le hstr
  | none | bool | int | float => exact length_constant_pos _

/-- If every item takes a byte more than it weighs, a list takes as many bytes as it has items,
and those that they weigh. -/
theorem length_add_sum_le_length_list {α : Type} {write : α → List UInt8} {weight : α → Nat}
    (h : ∀ a, 1 + weight a ≤ (write a).length) (as : List α) :
    as.length + (as.map weight).sum ≤ (list write as).length := by
  have hitems : as.length + (as.map weight).sum ≤ (as.flatMap write).length := by
    induction as with
    | nil => exact Nat.le_refl 0
    | cons a as ih =>
      have ha := h a
      rw [List.map_cons, List.sum_cons, List.length_cons, List.flatMap_cons, List.length_append]
      omega
  rw [list, List.length_append]
  exact Nat.le_add_left_of_le hitems

/-- A code object holds no more than its payload has bytes. -/
theorem content_le_length_code (c : Code) :
    c.constants.length + c.names.length + c.instructions.length + c.textBytes ≤
      (code c).length := by
  have hfilename := succ_utf8ByteSize_le_length_str c.filename
  have hconstants := length_add_sum_le_length_list succ_textBytes_le_length_constant c.constants
  have hnames := length_add_sum_le_length_list succ_utf8ByteSize_le_length_str c.names
  have hinstructions := length_le_length_list length_instr_pos c.instructions
  rw [Code.textBytes, code, List.length_append, List.length_append, List.length_append]
  omega

end Payload

/-! ## Containers -/

namespace Header

theorem littleEndian_toNat_ofNat_valueOfBytes {bs : List UInt8} (h : bs.length = 4) :
    Wire.littleEndian 4 (UInt32.ofNat (Wire.valueOfBytes bs)).toNat = bs := by
  have hlt : Wire.valueOfBytes bs < 2 ^ 32 := by
    have hvalue := Wire.valueOfBytes_lt bs
    rw [h] at hvalue
    exact hvalue
  rw [UInt32.toNat_ofNat_of_lt' hlt, ← h, Wire.littleEndian_valueOfBytes]

/-- A header that was read is written with the bytes that it was read from, up to the four that
were ignored. -/
theorem bytes_spelledBy {bs : List UInt8} (hmagic : Container.magic <+: bs)
    (hlength : Container.headerLength ≤ bs.length) :
    (spelledBy bs).bytes = bs.take 12 ++ [0, 0, 0, 0] := by
  have hlong : 16 ≤ bs.length := hlength
  have hmtime : ((bs.drop 4).take 4).length = 4 := by
    rw [List.length_take, List.length_drop]
    omega
  have hsize : ((bs.drop 8).take 4).length = 4 := by
    rw [List.length_take, List.length_drop]
    omega
  have htake : bs.take 12 = bs.take 4 ++ (bs.drop 4).take 4 ++ (bs.drop 8).take 4 := by
    rw [← List.take_add, ← List.take_add]
  rw [htake, Container.prefix_magic_iff.mp hmagic, bytes, spelledBy,
    littleEndian_toNat_ofNat_valueOfBytes hmtime, littleEndian_toNat_ofNat_valueOfBytes hsize]

/-- Behind a whole header, bytes are twelve that say something, four that say nothing, and the
payload. -/
theorem eq_append_drop {bs : List UInt8} :
    bs = bs.take 12 ++ ((bs.drop 12).take 4 ++ bs.drop Container.headerLength) := by
  have hdrop : bs.drop Container.headerLength = (bs.drop 12).drop 4 := by
    rw [List.drop_drop]
    rfl
  rw [hdrop, List.take_append_drop, List.take_append_drop]

theorem ofStat_toUInt64 {h : Header} (hmagic : h.magic = Container.magic) :
    ofStat h.mtime.toUInt64 h.size.toUInt64 = h := by
  rw [ofStat, UInt32.toUInt32_toUInt64, UInt32.toUInt32_toUInt64, ← hmagic]

end Header

namespace Container

/-- A container that was read, written again with the time and the size that it says. -/
def recode (container : Container Code) : Except ContainerError (List UInt8) :=
  encode Code.format container.artifact container.header.mtime.toUInt64
    container.header.size.toUInt64

/-- Written again, a container has its header, four zeros, and the payload that is written for
its code. -/
theorem recode_eq_of_decode {bs : List UInt8} {container : Container Code}
    (h : decode Code.format bs = .ok container) :
    recode container = .ok (bs.take 12 ++ ([0, 0, 0, 0] ++ Payload.code container.artifact)) := by
  obtain ⟨header, c⟩ := container
  obtain ⟨hmagic, hlength, rfl, -⟩ := decode_eq_ok_iff.mp h
  have hencode : recode ⟨.spelledBy bs, c⟩ =
      .ok ((Header.ofStat (Header.spelledBy bs).mtime.toUInt64
        (Header.spelledBy bs).size.toUInt64).bytes ++ Payload.code c) := rfl
  rw [hencode, Header.ofStat_toUInt64 rfl, Header.bytes_spelledBy hmagic hlength,
    List.append_assoc]

/-- What is written again is accepted, with the same header and the same code. -/
theorem decode_of_recode {bs bs₂ : List UInt8} {container : Container Code}
    (h : decode Code.format bs = .ok container) (hrecode : recode container = .ok bs₂) :
    decode Code.format bs₂ = .ok container := by
  obtain ⟨header, c⟩ := container
  obtain ⟨-, -, rfl, hread⟩ := decode_eq_ok_iff.mp h
  obtain ⟨hform, hreturn, hshort, hroom⟩ := Code.ofPayload_eq_ok_iff.mp hread
  have hlimit : c.WithinLimit :=
    ⟨Nat.le_trans (Payload.length_code_le_of_codeForm hform) hshort, hroom⟩
  obtain ⟨written, hencode, hdecode⟩ := decode_encoded hlimit
    (Header.spelledBy bs).mtime.toUInt64 (Header.spelledBy bs).size.toUInt64
  rw [hreturn, if_pos rfl, Header.ofStat_toUInt64 rfl] at hdecode
  have hwritten : written = bs₂ := Except.ok.inj (hencode.symm.trans hrecode)
  rw [← hwritten]
  exact hdecode

end Container

/-- **Writing again is canonical.**  A container that is accepted can be written again with the
time and the size that it says.  The result is no longer, is accepted with the same header and the
same code, and written again comes out as it is.

The payload spells the fields of the code one after the other.  Writing it again changes nothing
exactly if the four bytes that are ignored are zeros and every field is as short as it can be.
That covers doubles that are no number too: they are written with the bits they were read from.

Whatever lengths a payload claims, the code holds no more constants, names, instructions and bytes
of text together than the payload has bytes. -/
theorem recode_canonical {bs : List UInt8} {header : Header} {c : Code}
    (h : Container.decode Code.format bs = .ok ⟨header, c⟩) :
    ∃ bs₂, Container.recode ⟨header, c⟩ = .ok bs₂ ∧
      bs₂.length ≤ bs.length ∧
      Container.decode Code.format bs₂ = .ok ⟨header, c⟩ ∧
      (Container.decode Code.format bs₂ >>= Container.recode) = .ok bs₂ ∧
      Wire.Items Payload.Field.Spells c.fields (bs.drop Container.headerLength) ∧
      (bs₂ = bs ↔ (bs.drop 12).take 4 = [0, 0, 0, 0] ∧
        Wire.Items Payload.Field.Shortest c.fields (bs.drop Container.headerLength)) ∧
      c.constants.length + c.names.length + c.instructions.length + c.textBytes ≤
        (bs.drop Container.headerLength).length := by
  obtain ⟨-, hlong, -, hread⟩ := Container.decode_eq_ok_iff.mp h
  obtain ⟨hform, -⟩ := Code.ofPayload_eq_ok_iff.mp hread
  have hrecode := Container.recode_eq_of_decode h
  have hsplit := @Header.eq_append_drop bs
  have hreserved : ((bs.drop 12).take 4).length = 4 := by
    have hsixteen : 16 ≤ bs.length := hlong
    rw [List.length_take, List.length_drop]
    omega
  have hpayload : (Payload.code c).length ≤ (bs.drop Container.headerLength).length :=
    Payload.length_code_le_of_codeForm hform
  have hitems := Payload.items_of_codeForm hform
  have hdecode := Container.decode_of_recode h hrecode
  refine ⟨_, hrecode, ?_, hdecode, ?_, hitems, ?_, ?_⟩
  · have hlength := congrArg List.length hsplit
    rw [List.length_append, List.length_append, hreserved] at hlength
    rw [List.length_append, List.length_append, hlength]
    exact Nat.add_le_add_left (Nat.add_le_add_left hpayload 4) _
  · rw [hdecode]
    exact hrecode
  · rw [← Payload.Field.flatMap_bytes_eq_iff hitems, Payload.flatMap_fields]
    constructor
    · intro heq
      obtain ⟨hzeros, hcode⟩ :=
        List.append_inj (List.append_cancel_left (heq.trans hsplit)) hreserved.symm
      exact ⟨hzeros.symm, hcode⟩
    · rintro ⟨hzeros, hcode⟩
      rw [hzeros, ← hcode] at hsplit
      exact hsplit.symm
  · exact Nat.le_trans (Payload.content_le_length_code c) hpayload

/-- A container with bytes where they are ignored, and with a constant in more bytes than it
needs. -/
def Container.loose : List UInt8 :=
  Container.magic ++ [1, 0, 0, 0, 2, 0, 0, 0, 9, 9, 9, 9] ++ [0xfb, 0, 0] ++
    [1, 0xfc, 2, 0, 0, 0, 5] ++ [0] ++ [2, 0, 0, 7]

theorem recode_canonical_loose :
    Container.decode Code.format Container.loose =
        .ok ⟨⟨Container.magic, 1, 2⟩, ⟨"", [.int (-3)], [], [.loadConst 0, .ret]⟩⟩ ∧
      ∃ bs₂, Container.recode
          ⟨⟨Container.magic, 1, 2⟩, ⟨"", [.int (-3)], [], [.loadConst 0, .ret]⟩⟩ = .ok bs₂ ∧
        bs₂.length ≤ Container.loose.length ∧ bs₂ ≠ Container.loose := by
  have hdecode : Container.decode Code.format Container.loose =
      .ok ⟨⟨Container.magic, 1, 2⟩, ⟨"", [.int (-3)], [], [.loadConst 0, .ret]⟩⟩ := by rfl
  obtain ⟨bs₂, hrecode, hlength, -, -, -, hiff, -⟩ := recode_canonical hdecode
  refine ⟨hdecode, bs₂, hrecode, hlength, fun heq => ?_⟩
  exact absurd (hiff.mp heq).1 (by decide)

end StackScript
