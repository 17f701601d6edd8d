import StackScript.Proofs.Wire.Readers
import StackScript.Wire.Container

/-!
# Decoding undoes encoding

A container is a header and a payload, and each part comes back by itself: the header because
its fields stand at fixed places (`Header.parse_bytes_append`), the payload because its reader
takes exactly the bytes that were written (`Payload.takes_code`) and so leaves none over.

The decoder looks at a bounded number of bytes and sets a bounded amount of room aside.
`Code.WithinLimit` says that a code object stays within both bounds.  Outside them decoding
fails, whatever the code object is; within them it fails only for code that does not end with
a return.  Encoding checks neither.
-/

namespace StackScript

/-! ## The header -/

namespace Header

theorem length_bytes {h : Header} (hmagic : h.magic = Container.magic) :
    h.bytes.length = Container.headerLength := by
  simp only [bytes, hmagic, List.length_append, Wire.length_littleEndian]
  rfl

theorem ofNat_valueOfBytes_littleEndian (n : UInt32) :
    UInt32.ofNat (Wire.valueOfBytes (Wire.littleEndian 4 n.toNat)) = n := by
  rw [Wire.valueOfBytes_littleEndian]
  have hlt : n.toNat < Nat.pow 256 4 := n.toNat_lt
  rw [Nat.mod_eq_of_lt hlt, UInt32.ofNat_toNat]

/-- A header comes back from the front of any bytes. -/
theorem parse_bytes_append {h : Header} (hmagic : h.magic = Container.magic)
    (payload : List UInt8) : parse (h.bytes ++ payload) = .ok h := by
  have hlong : ¬(h.bytes ++ payload).length < Container.headerLength := by
    rw [List.length_append, length_bytes hmagic]
    exact Nat.not_lt.mpr (Nat.le_add_right _ _)
  have hbytes : h.bytes ++ payload = Container.magic ++ (Wire.littleEndian 4 h.mtime.toNat ++
      (Wire.littleEndian 4 h.size.toNat ++ ([0, 0, 0, 0] ++ payload))) := by
    rw [bytes, hmagic]
    simp only [List.append_assoc]
  rw [hbytes] at hlong ⊢
  have hfront : ∀ fields, (Container.magic ++ fields).take 4 = Container.magic := fun _ => rfl
  have hmtime : ∀ fields, (Container.magic ++ fields).drop 4 = fields := fun _ => rfl
  have hsize : ∀ fields, (Container.magic ++ fields).drop 8 = fields.drop 4 := fun _ => rfl
  rw [parse, hfront, if_neg (not_not_intro rfl), if_neg hlong, hmtime, hsize,
    List.drop_left' (Wire.length_littleEndian _ _), List.take_left' (Wire.length_littleEndian _ _),
    List.take_left' (Wire.length_littleEndian _ _), ofNat_valueOfBytes_littleEndian,
    ofNat_valueOfBytes_littleEndian, ← hmagic]

end Header

/-! ## The payload -/

namespace Code

/-- The decoder looks at all the bytes of the code object and has room for what they hold. -/
def WithinLimit (c : Code) : Prop :=
  (Payload.code c).length ≤ Payload.maxPayload ∧ c.room ≤ Payload.maxPayload

instance (c : Code) : Decidable c.WithinLimit := inferInstanceAs (Decidable (_ ∧ _))

theorem readCode_code {c : Code} (h : (Payload.code c).length ≤ Payload.maxPayload) :
    Payload.readCode (Payload.code c) = some (c, []) := by
  have hlt : (Payload.code c).length < 2 ^ 64 := Nat.lt_of_le_of_lt h (by decide)
  have hread := Payload.takes_code hlt []
  rw [List.append_nil] at hread
  exact hread

/-- Within the limit, code comes back if it ends with a return. -/
theorem ofPayload_of_withinLimit {c : Code} (h : c.WithinLimit) :
    ofPayload (Payload.code c) = if c.endsWithReturn then .ok c else .error .noReturn := by
  obtain ⟨hlength, hroom⟩ := h
  rw [ofPayload, if_neg (Nat.not_lt.mpr hlength), readCode_code hlength]
  dsimp only
  rw [if_neg (Nat.not_lt.mpr hroom), List.length_nil, if_neg (not_not_intro rfl)]

/-- Outside the limit, no code comes back. -/
theorem ofPayload_of_not_withinLimit {c : Code} (h : ¬c.WithinLimit) :
    ofPayload (Payload.code c) = .error (.tooLong (Payload.code c).length) ∨
      ofPayload (Payload.code c) = .error .undecodable := by
  by_cases hlength : (Payload.code c).length ≤ Payload.maxPayload
  · have hroom : Payload.maxPayload < c.room := Nat.lt_of_not_le fun hle => h ⟨hlength, hle⟩
    right
    rw [ofPayload, if_neg (Nat.not_lt.mpr hlength), readCode_code hlength]
    dsimp only
    rw [if_pos hroom]
  · left
    rw [ofPayload, if_pos (Nat.lt_of_not_le hlength)]

end Code

/-! ## Containers -/

namespace Container

/-- Behind a header everything is left to the format of the artifact. -/
theorem decode_bytes_append {α : Type} (format : ArtifactFormat α) {header : Header}
    (hmagic : header.magic = magic) (payload : List UInt8) :
    decode format (header.bytes ++ payload) =
      ((format.read payload).map (Container.mk header)).mapError .corruptPayload := by
  rw [decode, Header.parse_bytes_append hmagic, List.drop_left' (Header.length_bytes hmagic)]
  cases format.read payload <;> rfl

/-- A code object can always be encoded, and within the limit it comes back, or is refused
because it does not end with a return. -/
theorem decode_encoded {c : Code} (h : c.WithinLimit) (mtime size : UInt64) :
    ∃ bytes, encode Code.format c mtime size = .ok bytes ∧
      decode Code.format bytes =
        if c.endsWithReturn then .ok ⟨.ofStat mtime size, c⟩
        else .error (.corruptPayload .noReturn) := by
  refine ⟨(Header.ofStat mtime size).bytes ++ Payload.code c, rfl, ?_⟩
  have hread : Code.format.read (Payload.code c) =
      if c.endsWithReturn then .ok c else .error .noReturn := Code.ofPayload_of_withinLimit h
  rw [decode_bytes_append Code.format rfl, hread]
  cases c.endsWithReturn <;> rfl

end Container

/-- **Decoding undoes encoding.**  Every code object that stays within the decoder's limit can
be encoded.  If it ends with a return, the container decodes to exactly this code object, with
the magic, the time and the size cut to 32 bits in the header; if not, it is refused for that
reason. -/
theorem decode_encode {c : Code} (h : c.WithinLimit) (mtime size : UInt64) :
    ∃ bytes, Container.encode Code.format c mtime size = .ok bytes ∧
      (c.endsWithReturn = true → ∃ header,
        Container.decode Code.format bytes = .ok ⟨header, c⟩ ∧ header.magic = Container.magic ∧
          header.mtime.toNat = mtime.toNat % 2 ^ 32 ∧ header.size.toNat = size.toNat % 2 ^ 32) ∧
      (c.endsWithReturn = false → ∃ fault,
        Container.decode Code.format bytes = .error (.corruptPayload fault) ∧
          fault.message = "code object does not end with RETURN_VALUE") := by
  obtain ⟨bytes, hencode, hdecode⟩ := Container.decode_encoded h mtime size
  refine ⟨bytes, hencode, fun hreturn => ?_, fun hreturn => ?_⟩
  · rw [hreturn, if_pos rfl] at hdecode
    exact ⟨_, hdecode, rfl, mtime.toNat_toUInt32, size.toNat_toUInt32⟩
  · rw [hreturn] at hdecode
    exact ⟨_, hdecode, rfl⟩

/-- Constants of every kind, one of them no number and with bits of its own, and operands in all
their widths. -/
def Code.assorted : Code where
  filename := "ß"
  constants := [.none, .bool true, .int Int64.minValue, .float (-0), .float ⟨0xfff8000000000001⟩,
    .str "€"]
  names := ["", "x"]
  instructions := [.loadConst 4294967295, .loadName 250, .binary .floorDiv, .call 251, .ret]

theorem decode_encode_assorted :
    (∃ bytes header, Container.encode Code.format .assorted 0x100000001 7 = .ok bytes ∧
      Container.decode Code.format bytes = .ok ⟨header, .assorted⟩ ∧ header.mtime.toNat = 1) ∧
    ∃ bytes fault, Container.encode Code.format ⟨"", [], [], [.pop]⟩ 0 0 = .ok bytes ∧
      Container.decode Code.format bytes = .error (.corruptPayload fault) := by
  constructor
  · obtain ⟨bytes, hencode, hreturn, -⟩ :=
      @decode_encode .assorted (by decide) 0x100000001 7
    obtain ⟨header, hdecode, -, hmtime, -⟩ := hreturn (by decide)
    exact ⟨bytes, header, hencode, hdecode, hmtime⟩
  · obtain ⟨bytes, hencode, -, hfault⟩ :=
      @decode_encode ⟨"", [], [], [.pop]⟩ (by decide) 0 0
    obtain ⟨fault, hdecode, -⟩ := hfault (by decide)
    exact ⟨bytes, fault, hencode, hdecode⟩

end StackScript
