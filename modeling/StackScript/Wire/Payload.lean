import StackScript.Code.Basic
import StackScript.Wire.Varint

/-!
# Code as bytes

The fields of a code object in order: the name of the script, the constants, the names and
the instructions.  A text is its length and its bytes, a list its length and its items;
the kind of a constant or of an instruction is a small number in front of it.

Reading is bounded.  Before it hands out a value a reader sets aside room for it, a fixed
number of bytes for every number, whatever its form on the wire, and one byte for every
byte of a text; it gives up when the room exceeds `maxPayload`.  The room depends on the
code object only, not on the form in which it arrived, so the bound is a test on the
result: see `Code.room`.
-/

namespace StackScript

namespace Payload

/-! ## Writing -/

/-- A text. -/
def str (s : String) : List UInt8 :=
  Wire.varint s.utf8ByteSize ++ s.toByteArray.data.toList

/-- A list. -/
def list {α : Type} (item : α → List UInt8) (as : List α) : List UInt8 :=
  Wire.varint as.length ++ as.flatMap item

/-- A truth value. -/
def bool (b : Bool) : List UInt8 := [if b then 1 else 0]

/-- A double. -/
def float (x : Double) : List UInt8 := Wire.littleEndian 8 x.bits.toNat

/-- The number of a binary operator. -/
def binaryTag : BinaryOp → Nat
  | .add => 0
  | .sub => 1
  | .mul => 2
  | .div => 3
  | .floorDiv => 4
  | .mod => 5

/-- The number of a prefix operator. -/
def unaryTag : UnaryOp → Nat
  | .neg => 0
  | .pos => 1

/-- A constant. -/
def constant : Constant → List UInt8
  | .none => Wire.varint 0
  | .bool b => Wire.varint 1 ++ bool b
  | .int n => Wire.varint 2 ++ Wire.varint (Wire.foldSign n)
  | .float x => Wire.varint 3 ++ float x
  | .str s => Wire.varint 4 ++ str s

/-- An instruction. -/
def instr : Instr → List UInt8
  | .loadConst i => Wire.varint 0 ++ Wire.varint i.toNat
  | .loadName i => Wire.varint 1 ++ Wire.varint i.toNat
  | .storeName i => Wire.varint 2 ++ Wire.varint i.toNat
  | .binary op => Wire.varint 3 ++ Wire.varint (binaryTag op)
  | .unary op => Wire.varint 4 ++ Wire.varint (unaryTag op)
  | .call n => Wire.varint 5 ++ Wire.varint n.toNat
  | .pop => Wire.varint 6
  | .ret => Wire.varint 7

/-- A code object. -/
def code (c : Code) : List UInt8 :=
  str c.filename ++ list constant c.constants ++ list str c.names ++ list instr c.instructions

/-! ## Reading -/

/-- A text: its bytes must be well-formed. -/
def readStr : Reader String := fun bs => do
  let (n, bs) ← Wire.readVarint64 bs
  let (taken, bs) ← Wire.bytes n bs
  let s ← String.fromUTF8? ⟨taken.toArray⟩
  some (s, bs)

/-- A list. -/
def readList {α : Type} (item : Reader α) : Reader (List α) := fun bs => do
  let (n, bs) ← Wire.readVarint64 bs
  Wire.repeated item n bs

/-- A truth value. -/
def readBool : Reader Bool := fun bs => do
  let (b, bs) ← Wire.byte bs
  if b = 0 then some (false, bs) else if b = 1 then some (true, bs) else none

/-- A double. -/
def readFloat : Reader Double := fun bs => do
  let (n, bs) ← Wire.fixed 8 bs
  some (⟨UInt64.ofNat n⟩, bs)

/-- An operand. -/
def readOperand : Reader UInt32 := fun bs => do
  let (n, bs) ← Wire.readVarint32 bs
  some (UInt32.ofNat n, bs)

/-- The binary operator of a number. -/
def binaryOfTag? : Nat → Option BinaryOp
  | 0 => some .add
  | 1 => some .sub
  | 2 => some .mul
  | 3 => some .div
  | 4 => some .floorDiv
  | 5 => some .mod
  | _ => none

/-- The prefix operator of a number. -/
def unaryOfTag? : Nat → Option UnaryOp
  | 0 => some .neg
  | 1 => some .pos
  | _ => none

/-- A constant of the kind of a number. -/
def readConstantOf : Nat → Reader Constant
  | 0 => fun bs => some (.none, bs)
  | 1 => fun bs => do
      let (b, bs) ← readBool bs
      some (.bool b, bs)
  | 2 => fun bs => do
      let (k, bs) ← Wire.readVarint64 bs
      some (.int (Wire.unfoldSign k), bs)
  | 3 => fun bs => do
      let (x, bs) ← readFloat bs
      some (.float x, bs)
  | 4 => fun bs => do
      let (s, bs) ← readStr bs
      some (.str s, bs)
  | _ => fun _ => none

/-- A constant: its kind and what is left of it. -/
def readConstant : Reader Constant := fun bs => do
  let (tag, bs) ← Wire.readVarint32 bs
  readConstantOf tag bs

/-- An instruction of the kind of a number. -/
def readInstrOf : Nat → Reader Instr
  | 0 => fun bs => do
      let (i, bs) ← readOperand bs
      some (.loadConst i, bs)
  | 1 => fun bs => do
      let (i, bs) ← readOperand bs
      some (.loadName i, bs)
  | 2 => fun bs => do
      let (i, bs) ← readOperand bs
      some (.storeName i, bs)
  | 3 => fun bs => do
      let (n, bs) ← Wire.readVarint32 bs
      let op ← binaryOfTag? n
      some (.binary op, bs)
  | 4 => fun bs => do
      let (n, bs) ← Wire.readVarint32 bs
      let op ← unaryOfTag? n
      some (.unary op, bs)
  | 5 => fun bs => do
      let (n, bs) ← readOperand bs
      some (.call n, bs)
  | 6 => fun bs => some (.pop, bs)
  | 7 => fun bs => some (.ret, bs)
  | _ => fun _ => none

/-- An instruction: its kind and what is left of it. -/
def readInstr : Reader Instr := fun bs => do
  let (tag, bs) ← Wire.readVarint32 bs
  readInstrOf tag bs

/-- A code object. -/
def readCode : Reader Code := fun bs => do
  let (filename, bs) ← readStr bs
  let (constants, bs) ← readList readConstant bs
  let (names, bs) ← readList readStr bs
  let (instructions, bs) ← readList readInstr bs
  some (⟨filename, constants, names, instructions⟩, bs)

/-! ## Room -/

/-- The largest payload, and the most room that reading one may set aside. -/
def maxPayload : Nat := 64 * 1024 * 1024

/-- The room of a text: its length and its bytes. -/
def strRoom (s : String) : Nat := 8 + s.utf8ByteSize

/-- The room of a constant. -/
def constantRoom : Constant → Nat
  | .none => 4
  | .bool _ => 5
  | .int _ => 12
  | .float _ => 12
  | .str s => 4 + strRoom s

/-- The room of an instruction. -/
def instrRoom : Instr → Nat
  | .pop | .ret => 4
  | _ => 8

/-- The room of a list: its length and its items. -/
def listRoom {α : Type} (room : α → Nat) : List α → Nat
  | [] => 8
  | a :: as => room a + listRoom room as

end Payload

/-- The room that is set aside for a code object while it is read. -/
def Code.room (c : Code) : Nat :=
  Payload.strRoom c.filename
    + Payload.listRoom Payload.constantRoom c.constants
    + Payload.listRoom Payload.strRoom c.names
    + Payload.listRoom Payload.instrRoom c.instructions

end StackScript
