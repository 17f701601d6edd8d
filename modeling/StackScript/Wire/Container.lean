import StackScript.Number.Word
import StackScript.Wire.Payload

/-!
# Containers

A container is a compiled artifact with a header in front: four magic bytes, the
modification time and the size of the source, both cut to 32 bits, and four bytes that are
written as zeros and ignored when read.  The artifact takes the rest; it has no length of
its own, so a reader of artifacts must use up every byte.

The magic is examined before anything else, and nothing else is looked at when it is
wrong.

Containers do not depend on what an artifact is.  `ArtifactFormat` says how one kind of
artifact is written and read, and `Code.format` is the format of compiled code.
-/

namespace StackScript

/-- Why an artifact cannot be read. -/
inductive PayloadFault where
  /-- There are fewer bytes than a header has. -/
  | headerTruncated (given : Nat)
  /-- There are more bytes than will be looked at. -/
  | tooLong (given : Nat)
  /-- The bytes are no artifact. -/
  | undecodable
  /-- Bytes are left behind the artifact. -/
  | trailing (count : Nat)
  /-- Code does not end with a return. -/
  | noReturn
  deriving DecidableEq, Repr

/-- Why a container cannot be written or read. -/
inductive ContainerError where
  /-- The first bytes are not the magic ones. -/
  | invalidMagic (found : List UInt8)
  /-- The header is too short or the artifact cannot be read. -/
  | corruptPayload (fault : PayloadFault)
  /-- The artifact cannot be written. -/
  | serialization (reason : String)
  deriving DecidableEq, Repr

/-- The bytes that every container starts with. -/
def Container.magic : List UInt8 := [0xb7, 0x01, 0x0d, 0x0a]

/-- The number of bytes of a header. -/
def Container.headerLength : Nat := 16

/-- The wording of a fault.  What the decoder itself would say of bytes that are no artifact
is not modelled, and a placeholder stands for it. -/
def PayloadFault.message : PayloadFault → String
  | .headerTruncated given =>
      s!"header truncated: {Word.natText given} of {Word.natText Container.headerLength} bytes"
  | .tooLong given =>
      s!"payload of {Word.natText given} bytes exceeds the {Word.natText Payload.maxPayload} byte limit"
  | .undecodable => "<decoder>"
  | .trailing count => s!"{Word.natText count} trailing bytes after code object"
  | .noReturn => "code object does not end with RETURN_VALUE"

/-- A byte as two hexadecimal digits. -/
def hexByte (b : UInt8) : String :=
  String.ofList [Nat.digitChar (b.toNat / 16), Nat.digitChar (b.toNat % 16)]

/-- Bytes in hexadecimal digits, with blanks between them. -/
def hexText (bs : List UInt8) : String :=
  " ".intercalate (bs.map hexByte)

/-- The wording of a container error. -/
def ContainerError.message : ContainerError → String
  | .invalidMagic [] => "invalid container magic: found <empty>"
  | .invalidMagic found => s!"invalid container magic: found {hexText found}"
  | .corruptPayload fault => s!"corrupt container payload: {fault.message}"
  | .serialization reason => s!"cannot serialize artifact: {reason}"

/-- How a kind of artifact is written and read.  A reader is given all the bytes there are and
must account for every one of them. -/
structure ArtifactFormat (α : Type) where
  /-- The bytes of an artifact, or why it has none. -/
  write : α → Except String (List UInt8)
  /-- The artifact of some bytes. -/
  read : List UInt8 → Except PayloadFault α

namespace Code

/-- Read a code object that takes up all the given bytes. -/
def ofPayload (bs : List UInt8) : Except PayloadFault Code :=
  if Payload.maxPayload < bs.length then
    .error (.tooLong bs.length)
  else
    match Payload.readCode bs with
    | none => .error .undecodable
    | some (code, rest) =>
        if Payload.maxPayload < code.room then .error .undecodable
        else if rest.length ≠ 0 then .error (.trailing rest.length)
        else if code.endsWithReturn then .ok code
        else .error .noReturn

/-- The format of compiled code. -/
def format : ArtifactFormat Code where
  write code := .ok (Payload.code code)
  read := ofPayload

end Code

/-- What a container says about the source of its artifact. -/
structure Header where
  /-- The bytes in front, the magic ones in every header that was parsed. -/
  magic : List UInt8
  /-- The modification time in seconds, modulo `2 ^ 32`. -/
  mtime : UInt32
  /-- The size in bytes, modulo `2 ^ 32`. -/
  size : UInt32
  deriving DecidableEq, Repr

namespace Header

/-- The header for a source with the given time and size. -/
def ofStat (mtime size : UInt64) : Header :=
  ⟨Container.magic, mtime.toUInt32, size.toUInt32⟩

/-- The bytes of a header. -/
def bytes (h : Header) : List UInt8 :=
  h.magic ++ Wire.littleEndian 4 h.mtime.toNat ++ Wire.littleEndian 4 h.size.toNat
    ++ [0, 0, 0, 0]

/-- The header at the front of some bytes. -/
def parse (bs : List UInt8) : Except ContainerError Header :=
  if bs.take 4 ≠ Container.magic then
    .error (.invalidMagic (bs.take 4))
  else if bs.length < Container.headerLength then
    .error (.corruptPayload (.headerTruncated bs.length))
  else
    .ok ⟨Container.magic,
      UInt32.ofNat (Wire.valueOfBytes ((bs.drop 4).take 4)),
      UInt32.ofNat (Wire.valueOfBytes ((bs.drop 8).take 4))⟩

end Header

/-- A container that has been read. -/
structure Container (α : Type) where
  /-- What it says about the source. -/
  header : Header
  /-- The artifact in it. -/
  artifact : α

namespace Container

/-- The bytes of a container. -/
def encode {α : Type} (format : ArtifactFormat α) (artifact : α) (mtime size : UInt64) :
    Except ContainerError (List UInt8) :=
  match format.write artifact with
  | .ok payload => .ok ((Header.ofStat mtime size).bytes ++ payload)
  | .error reason => .error (.serialization reason)

/-- Read a container. -/
def decode {α : Type} (format : ArtifactFormat α) (bs : List UInt8) :
    Except ContainerError (Container α) :=
  match Header.parse bs with
  | .error e => .error e
  | .ok header =>
      match format.read (bs.drop headerLength) with
      | .ok artifact => .ok ⟨header, artifact⟩
      | .error fault => .error (.corruptPayload fault)

end Container

end StackScript
