import Mathlib
import StackScript.Proofs.Wire.Grammar
import StackScript.Proofs.Wire.RoundTrip

/-!
# Which bytes are containers

The decoder against the grammar of payloads, for arbitrary bytes.  A container is accepted
exactly when it starts with the magic, has a whole header, and spells behind it a code object
that ends with a return, provided that it stays within the decoder's limit
(`Container.WithinLimit`).  The limit is of two parts, both of them `Payload.maxPayload`: the
bytes that are looked at and the room that is set aside for what they hold.  Outside it nothing
is accepted.

Because the grammar is prefix-free, a container that is accepted can neither be cut nor
extended: the decoder needs its last byte and has no use for one more.
-/

namespace StackScript

/-! ## Payloads -/

namespace Payload

theorem readCode_eq_some_iff {p : List UInt8} {c : Code} :
    readCode p = some (c, []) ↔ CodeForm c p := by
  constructor
  · intro h
    obtain ⟨used, hform, rfl⟩ := reads_code.derives h
    rw [List.append_nil]
    exact hform
  · intro h
    have hread := reads_code.takes h []
    rw [List.append_nil] at hread
    exact hread

/-- Bytes spell at most one code object. -/
theorem eq_of_codeForm {p : List UInt8} {c c' : Code} (h : CodeForm c p) (h' : CodeForm c' p) :
    c = c' := by
  have heq : p ++ [] = p ++ [] := rfl
  exact (reads_code.eq_of_append_eq h h' heq).1

/-- The beginnings of a spelling are not spellings, and no spelling stands at their front. -/
theorem readCode_take {p : List UInt8} {c : Code} (h : CodeForm c p) {n : Nat}
    (hn : n < p.length) : readCode (p.take n) = none := by
  cases hread : readCode (p.take n) with
  | none => rfl
  | some found =>
    obtain ⟨c', rest⟩ := found
    obtain ⟨used, hform, htake⟩ := reads_code.derives hread
    have hsplit : used ++ (rest ++ p.drop n) = p ++ [] := by
      rw [← List.append_assoc, ← htake, List.take_append_drop, List.append_nil]
    obtain ⟨-, hused⟩ := reads_code.eq_of_append_eq hform h hsplit
    have hlength := congrArg List.length htake
    rw [hused, List.length_append, List.length_take] at hlength
    omega

end Payload

namespace Code

/-- A payload is accepted exactly when it spells a code object that ends with a return, within
the limit. -/
theorem ofPayload_eq_ok_iff {p : List UInt8} {c : Code} :
    ofPayload p = .ok c ↔ Payload.CodeForm c p ∧ c.endsWithReturn = true ∧
      p.length ≤ Payload.maxPayload ∧ c.room ≤ Payload.maxPayload := by
  constructor
  · intro h
    unfold ofPayload at h
    split at h
    · cases h
    · next hlength =>
      split at h
      · cases h
      · next code rest hread =>
        split at h
        · cases h
        · next hroom =>
          split at h
          · cases h
          · next hrest =>
            split at h
            · next hreturn =>
              cases h
              have hnil : rest = [] := List.length_eq_zero_iff.mp (not_not.mp hrest)
              subst hnil
              exact ⟨Payload.readCode_eq_some_iff.mp hread, hreturn, Nat.not_lt.mp hlength,
                Nat.not_lt.mp hroom⟩
            · cases h
  · rintro ⟨hform, hreturn, hlength, hroom⟩
    rw [ofPayload, if_neg (Nat.not_lt.mpr hlength), Payload.readCode_eq_some_iff.mpr hform]
    dsimp only
    rw [if_neg (Nat.not_lt.mpr hroom), List.length_nil, if_neg (not_not_intro rfl), if_pos hreturn]

/-- A payload that is cut anywhere is not accepted. -/
theorem ofPayload_take {p : List UInt8} {c : Code} (h : ofPayload p = .ok c) {n : Nat}
    (hn : n < p.length) : ofPayload (p.take n) = .error .undecodable := by
  obtain ⟨hform, -, hlength, -⟩ := ofPayload_eq_ok_iff.mp h
  have hshort : ¬Payload.maxPayload < (p.take n).length := by
    rw [List.length_take]
    omega
  rw [ofPayload, if_neg hshort, Payload.readCode_take hform hn]

/-- A payload that is extended is not accepted: as long as the decoder looks at it at all, its
code object is read as before, and then the extension is left over. -/
theorem ofPayload_append {p more : List UInt8} {c : Code} (h : ofPayload p = .ok c)
    (hmore : more ≠ []) :
    ofPayload (p ++ more) =
      if (p ++ more).length ≤ Payload.maxPayload then .error (.trailing more.length)
      else .error (.tooLong (p ++ more).length) := by
  obtain ⟨hform, -, -, hroom⟩ := ofPayload_eq_ok_iff.mp h
  have hrest : more.length ≠ 0 := fun h => hmore (List.length_eq_zero_iff.mp h)
  by_cases hlength : (p ++ more).length ≤ Payload.maxPayload
  · rw [if_pos hlength, ofPayload, if_neg (Nat.not_lt.mpr hlength),
      Payload.reads_code.takes hform]
    dsimp only
    rw [if_neg (Nat.not_lt.mpr hroom), if_pos hrest]
  · rw [if_neg hlength, ofPayload, if_pos (Nat.lt_of_not_le hlength)]

end Code

/-! ## Headers -/

/-- The header that the first bytes spell, if they are those of a container. -/
def Header.spelledBy (bs : List UInt8) : Header :=
  ⟨Container.magic, UInt32.ofNat (Wire.valueOfBytes ((bs.drop 4).take 4)),
    UInt32.ofNat (Wire.valueOfBytes ((bs.drop 8).take 4))⟩

namespace Container

theorem prefix_magic_iff {bs : List UInt8} : magic <+: bs ↔ bs.take 4 = magic :=
  ⟨fun h => (List.prefix_iff_eq_take.mp h).symm, fun h => List.prefix_iff_eq_take.mpr h.symm⟩

/-- Without the magic nothing else is looked at. -/
theorem decode_of_not_magic {α : Type} (format : ArtifactFormat α) {bs : List UInt8}
    (h : ¬magic <+: bs) : decode format bs = .error (.invalidMagic (bs.take 4)) := by
  rw [decode, Header.parse, if_pos (mt prefix_magic_iff.mpr h)]

/-- With the magic, a header must be there. -/
theorem decode_of_short {α : Type} (format : ArtifactFormat α) {bs : List UInt8}
    (hmagic : magic <+: bs) (hshort : bs.length < headerLength) :
    decode format bs = .error (.corruptPayload (.headerTruncated bs.length)) := by
  rw [decode, Header.parse, if_neg (not_not_intro (prefix_magic_iff.mp hmagic)), if_pos hshort]

/-- Behind a header everything is left to the format of the artifact. -/
theorem decode_of_header {α : Type} (format : ArtifactFormat α) {bs : List UInt8}
    (hmagic : magic <+: bs) (hlength : headerLength ≤ bs.length) :
    decode format bs = ((format.read (bs.drop headerLength)).map
      (Container.mk (.spelledBy bs))).mapError .corruptPayload := by
  rw [decode, Header.parse, if_neg (not_not_intro (prefix_magic_iff.mp hmagic)),
    if_neg (Nat.not_lt.mpr hlength)]
  cases format.read (bs.drop headerLength) <;> rfl

theorem decode_eq_ok_iff {α : Type} {format : ArtifactFormat α} {bs : List UInt8}
    {header : Header} {a : α} :
    decode format bs = .ok ⟨header, a⟩ ↔ magic <+: bs ∧ headerLength ≤ bs.length ∧
      header = .spelledBy bs ∧ format.read (bs.drop headerLength) = .ok a := by
  constructor
  · intro h
    by_cases hmagic : magic <+: bs
    · by_cases hlength : headerLength ≤ bs.length
      · rw [decode_of_header format hmagic hlength] at h
        cases hread : format.read (bs.drop headerLength) with
        | error fault => rw [hread] at h; cases h
        | ok b =>
          rw [hread] at h
          cases h
          exact ⟨hmagic, hlength, rfl, rfl⟩
      · rw [decode_of_short format hmagic (Nat.lt_of_not_le hlength)] at h
        cases h
    · rw [decode_of_not_magic format hmagic] at h
      cases h
  · rintro ⟨hmagic, hlength, rfl, hread⟩
    rw [decode_of_header format hmagic hlength, hread]
    rfl

/-- The twelve bytes behind the magic have no influence on the artifact or the error. -/
theorem decode_middle {α : Type} (format : ArtifactFormat α) {bs middle : List UInt8}
    (hlength : headerLength ≤ bs.length) (hmiddle : middle.length = 12) :
    (decode format (bs.take 4 ++ (middle ++ bs.drop headerLength))).map Container.artifact =
      (decode format bs).map Container.artifact := by
  have hfour : (bs.take 4).length = 4 :=
    List.length_take_of_le (Nat.le_trans (by decide) hlength)
  have hfront : (bs.take 4 ++ (middle ++ bs.drop headerLength)).take 4 = bs.take 4 :=
    List.take_left' hfour
  have hback : (bs.take 4 ++ (middle ++ bs.drop headerLength)).drop headerLength =
      bs.drop headerLength := by
    rw [← List.append_assoc, List.drop_left' (by rw [List.length_append, hfour, hmiddle]; rfl)]
  by_cases hmagic : magic <+: bs
  · have hmagic' : magic <+: bs.take 4 ++ (middle ++ bs.drop headerLength) := by
      rw [prefix_magic_iff, hfront]
      exact prefix_magic_iff.mp hmagic
    have hlength' : headerLength ≤ (bs.take 4 ++ (middle ++ bs.drop headerLength)).length := by
      rw [List.length_append, List.length_append, hfour, hmiddle, ← Nat.add_assoc]
      exact Nat.le_add_right _ _
    rw [decode_of_header format hmagic hlength, decode_of_header format hmagic' hlength', hback]
    cases format.read (bs.drop headerLength) <;> rfl
  · have hmagic' : ¬magic <+: bs.take 4 ++ (middle ++ bs.drop headerLength) := by
      rw [prefix_magic_iff, hfront]
      exact mt prefix_magic_iff.mpr hmagic
    rw [decode_of_not_magic format hmagic, decode_of_not_magic format hmagic', hfront]

/-! ## Containers -/

/-- The decoder is prepared to look at all the bytes behind the header, and to set aside the
room for the code object that they spell. -/
def WithinLimit (bs : List UInt8) : Prop :=
  (bs.drop headerLength).length ≤ Payload.maxPayload ∧
    ∀ c, Payload.CodeForm c (bs.drop headerLength) → c.room ≤ Payload.maxPayload

/-- The limit holds of all code objects that bytes spell if it holds of one. -/
theorem withinLimit_of_codeForm {bs : List UInt8} {c : Code}
    (hform : Payload.CodeForm c (bs.drop headerLength))
    (hlength : (bs.drop headerLength).length ≤ Payload.maxPayload)
    (hroom : c.room ≤ Payload.maxPayload) : WithinLimit bs :=
  ⟨hlength, fun _ h => Payload.eq_of_codeForm hform h ▸ hroom⟩

theorem withinLimit_of_decode {bs : List UInt8} {container : Container Code}
    (h : decode Code.format bs = .ok container) : WithinLimit bs := by
  obtain ⟨-, -, -, hread⟩ := decode_eq_ok_iff.mp h
  obtain ⟨hform, -, hlength, hroom⟩ := Code.ofPayload_eq_ok_iff.mp hread
  exact withinLimit_of_codeForm hform hlength hroom

/-- What is accepted is neither accepted nor taken for code when it is cut. -/
theorem decode_take {bs : List UInt8} {container : Container Code}
    (h : decode Code.format bs = .ok container) {n : Nat} (hn : n < bs.length) :
    decode Code.format (bs.take n) =
      if n < 4 then .error (.invalidMagic (bs.take n))
      else if n < headerLength then .error (.corruptPayload (.headerTruncated n))
      else .error (.corruptPayload .undecodable) := by
  obtain ⟨hmagic, -, -, hread⟩ := decode_eq_ok_iff.mp h
  have hlength : (bs.take n).length = n := List.length_take_of_le (Nat.le_of_lt hn)
  by_cases hfour : n < 4
  · have hshort : ¬magic <+: bs.take n := by
      intro hprefix
      have hle := hprefix.length_le
      rw [hlength] at hle
      exact absurd hfour (Nat.not_lt.mpr hle)
    have htake : (bs.take n).take 4 = bs.take n :=
      List.take_of_length_le (by rw [hlength]; exact Nat.le_of_lt hfour)
    rw [if_pos hfour, decode_of_not_magic _ hshort, htake]
  · have hmagic' : magic <+: bs.take n := by
      rw [prefix_magic_iff, List.take_take, Nat.min_eq_left (Nat.not_lt.mp hfour)]
      exact prefix_magic_iff.mp hmagic
    rw [if_neg hfour]
    by_cases hheader : n < headerLength
    · rw [if_pos hheader, decode_of_short _ hmagic' (by rw [hlength]; exact hheader), hlength]
    · have hcut : n - headerLength < (bs.drop headerLength).length := by
        rw [List.length_drop]
        omega
      have hfault : Code.format.read ((bs.take n).drop headerLength) = .error .undecodable := by
        rw [List.drop_take]
        exact Code.ofPayload_take hread hcut
      rw [if_neg hheader, decode_of_header _ hmagic' (by rw [hlength]; exact Nat.not_lt.mp hheader),
        hfault]
      rfl

/-- What is accepted is not accepted when more follows. -/
theorem decode_append {bs more : List UInt8} {container : Container Code}
    (h : decode Code.format bs = .ok container) (hmore : more ≠ []) :
    ∃ fault, decode Code.format (bs ++ more) = .error (.corruptPayload fault) ∧
      ((bs ++ more).length ≤ headerLength + Payload.maxPayload →
        fault = .trailing more.length) := by
  obtain ⟨hmagic, hlength, -, hread⟩ := decode_eq_ok_iff.mp h
  have hmagic' : magic <+: bs ++ more := hmagic.trans (List.prefix_append _ _)
  have hlength' : headerLength ≤ (bs ++ more).length := by
    rw [List.length_append]
    exact Nat.le_add_right_of_le hlength
  have hdrop : (bs ++ more).drop headerLength = bs.drop headerLength ++ more :=
    List.drop_append_of_le_length hlength
  have hfault : Code.format.read (bs.drop headerLength ++ more) = _ :=
    Code.ofPayload_append hread hmore
  rw [decode_of_header _ hmagic' hlength', hdrop, hfault]
  split
  · exact ⟨_, rfl, fun _ => rfl⟩
  · next hlong =>
    rw [← hdrop, List.length_drop] at hlong
    exact ⟨_, rfl, fun hshort => absurd (Nat.sub_le_iff_le_add'.mpr hshort) hlong⟩

end Container

/-- **The decoder accepts exactly the grammar.**  Within the limit, bytes are accepted if and
only if they start with the magic, have a whole header, and spell behind it a code object that
ends with a return; which one is determined by the bytes.  Outside the limit nothing is
accepted.  What is accepted is refused when it is cut anywhere, and when anything follows it.
The twelve bytes behind the magic never matter, and without the magic only the first four
bytes do. -/
theorem decode_iff_wireGrammar (bs : List UInt8) :
    (Container.WithinLimit bs → ∀ header c,
      Container.decode Code.format bs = .ok ⟨header, c⟩ ↔
        Container.magic <+: bs ∧ Container.headerLength ≤ bs.length ∧
          Payload.CodeForm c (bs.drop Container.headerLength) ∧ c.endsWithReturn = true ∧
          header = .spelledBy bs) ∧
    (¬Container.WithinLimit bs → ∀ container,
      Container.decode Code.format bs ≠ .ok container) ∧
    (∀ c c', Payload.CodeForm c (bs.drop Container.headerLength) →
      Payload.CodeForm c' (bs.drop Container.headerLength) → c = c') ∧
    (∀ container, Container.decode Code.format bs = .ok container →
      (∀ n < 4, Container.decode Code.format (bs.take n) = .error (.invalidMagic (bs.take n))) ∧
      (∀ n, 4 ≤ n → n < bs.length → ∃ fault,
        Container.decode Code.format (bs.take n) = .error (.corruptPayload fault)) ∧
      (∀ more, more ≠ [] →
        ∃ fault, Container.decode Code.format (bs ++ more) = .error (.corruptPayload fault) ∧
          ((bs ++ more).length ≤ Container.headerLength + Payload.maxPayload →
            fault.message =
              s!"{Word.natText more.length} trailing bytes after code object"))) ∧
    (∀ middle : List UInt8, middle.length = 12 → Container.headerLength ≤ bs.length →
      (Container.decode Code.format
          (bs.take 4 ++ (middle ++ bs.drop Container.headerLength))).map Container.artifact =
        (Container.decode Code.format bs).map Container.artifact) ∧
    (¬Container.magic <+: bs →
      Container.decode Code.format bs = .error (.invalidMagic (bs.take 4))) := by
  refine ⟨?_, ?_, fun c c' => Payload.eq_of_codeForm, ?_, ?_, Container.decode_of_not_magic _⟩
  · rintro ⟨hshort, hroom⟩ header c
    rw [Container.decode_eq_ok_iff]
    constructor
    · rintro ⟨hmagic, hlength, hheader, hread⟩
      obtain ⟨hform, hreturn, -, -⟩ := Code.ofPayload_eq_ok_iff.mp hread
      exact ⟨hmagic, hlength, hform, hreturn, hheader⟩
    · rintro ⟨hmagic, hlength, hform, hreturn, hheader⟩
      exact ⟨hmagic, hlength, hheader,
        Code.ofPayload_eq_ok_iff.mpr ⟨hform, hreturn, hshort, hroom c hform⟩⟩
  · intro hlimit container h
    exact hlimit (Container.withinLimit_of_decode h)
  · intro container h
    obtain ⟨-, hlength, -⟩ := Container.decode_eq_ok_iff.mp h
    refine ⟨fun n hn => ?_, fun n hfour hn => ?_, fun more hmore => ?_⟩
    · have hcut : n < bs.length := Nat.lt_of_lt_of_le hn (Nat.le_trans (by decide) hlength)
      rw [Container.decode_take h hcut, if_pos hn]
    · rw [Container.decode_take h hn, if_neg (Nat.not_lt.mpr hfour)]
      split
      · exact ⟨_, rfl⟩
      · exact ⟨_, rfl⟩
    · obtain ⟨fault, hdecode, htrailing⟩ := Container.decode_append h hmore
      exact ⟨fault, hdecode, fun hlimit => by rw [htrailing hlimit]; rfl⟩
  · intro middle hmiddle hlength
    exact Container.decode_middle _ hlength hmiddle

/-- A container in which lengths, kinds and operands are wider than they need to be. -/
def Container.widened : List UInt8 :=
  Container.magic ++ [1, 0, 0, 0, 2, 0, 0, 0, 9, 9, 9, 9] ++
    [0xfb, 0, 0] ++ [1, 0xfc, 0, 0, 0, 0] ++ [0] ++
    [0xfd, 2, 0, 0, 0, 0, 0, 0, 0, 0xfb, 0, 0, 0xfc, 0, 0, 0, 0, 7]

theorem decode_iff_wireGrammar_widened :
    Container.decode Code.format Container.widened =
        .ok ⟨⟨Container.magic, 1, 2⟩, ⟨"", [.none], [], [.loadConst 0, .ret]⟩⟩ ∧
      Container.decode Code.format (Container.widened.take 43) ≠
        Container.decode Code.format Container.widened := by
  have hzero : Wire.Spells32 0 [0] := .byte (by decide)
  have hone : Wire.Spells32 1 [1] := .byte (by decide)
  have hseven : Wire.Spells32 7 [7] := .byte (by decide)
  have hwide : Wire.Spells32 0 [0xfb, 0, 0] := .two (by decide)
  have hwider : Wire.Spells32 0 [0xfc, 0, 0, 0, 0] := .four (by decide)
  have htwo : Wire.Spells64 2 [0xfd, 2, 0, 0, 0, 0, 0, 0, 0] := .eight (by decide)
  have hfilename : Payload.StrForm "" [0xfb, 0, 0] :=
    @Payload.StrForm.mk "" _ (.narrow hwide)
  have hconstants : Payload.ListForm Payload.ConstantForm [.none] [1, 0xfc, 0, 0, 0, 0] :=
    @Payload.ListForm.mk Constant _ [.none] _ _ (.narrow hone)
      (.cons (Payload.ConstantForm.none hwider) .nil)
  have hnames : Payload.ListForm Payload.StrForm [] [0] :=
    @Payload.ListForm.mk String _ [] _ _ (.narrow hzero) .nil
  have hinstructions : Payload.ListForm Payload.InstrForm [.loadConst 0, .ret]
      [0xfd, 2, 0, 0, 0, 0, 0, 0, 0, 0xfb, 0, 0, 0xfc, 0, 0, 0, 0, 7] :=
    @Payload.ListForm.mk Instr _ [.loadConst 0, .ret] _ _ htwo
      (.cons (@Payload.InstrForm.loadConst _ _ 0 hwide hwider)
        (.cons (Payload.InstrForm.ret hseven) .nil))
  have hform : Payload.CodeForm ⟨"", [.none], [], [.loadConst 0, .ret]⟩
      (Container.widened.drop Container.headerLength) :=
    @Payload.CodeForm.mk ⟨"", [.none], [], [.loadConst 0, .ret]⟩ _ _ _ _ hfilename hconstants
      hnames hinstructions
  have hlimit : Container.WithinLimit Container.widened :=
    Container.withinLimit_of_codeForm hform (by decide) (by decide)
  obtain ⟨haccepts, -, -, hrefuses, -, -⟩ := decode_iff_wireGrammar Container.widened
  have hdecode := (haccepts hlimit _ _).mpr ⟨by decide, by decide, hform, by decide, rfl⟩
  refine ⟨hdecode, ?_⟩
  obtain ⟨-, hcut, -⟩ := hrefuses _ hdecode
  obtain ⟨fault, hfault⟩ := hcut 43 (by decide) (by decide)
  rw [hdecode, hfault]
  exact fun h => nomatch h

end StackScript
