import StackScript.Proofs.Lowering.Room
import StackScript.Proofs.Session.ContainerRun

/-!
# Which containers can be read again

Writing a container checks nothing, and reading one refuses code that takes more than
`Payload.maxPayload` bytes of room.  So a session may write what no session reads.  Compiled code
always ends with a return, which leaves its room as the only reason to refuse it
(`decode_compiled`).

The room is bounded by the text of the script, twenty bytes for each byte, as long as nothing is
folded.  Folding writes the value of a product into the code, and a text times a number may be
sixteen times as long as a payload (`Arithmetic.maxTextBytes`).  That is how a short script gets a
container that cannot be read, under the very configuration that is the default, although the same
script without folding has one that can (`exists_unreadable`).
-/

namespace StackScript

/-! ## Compiled code -/

/-- A text is compiled to the code of its script. -/
theorem Session.compile_eq_ok {s : Session} {u : SourceUnit} {script : Script} {code : Code}
    (hlower : s.LowersAsUsual) (hcoherent : s.Coherent u)
    (hscript : Script.ofText u.text = .ok script)
    (hcode : script.compile s.config.optimize u.identifier = .ok code) :
    (s.compile u).1 = .ok code := by
  have hwith : script.compileWith s.lower s.config.optimize u.identifier = .ok code := by
    rw [hlower]
    exact hcode
  simp only [Session.fst_compile hcoherent, Session.build, hscript, hwith]

/-- The room of compiled code is bounded by the text. -/
theorem Session.room_le_of_compile {s : Session} {u : SourceUnit} {code : Code}
    (hlower : s.LowersAsUsual) (hcoherent : s.Coherent u)
    (hcompile : (s.compile u).1 = .ok code) :
    code.room ≤ 20 * u.text.utf8ByteSize + u.identifier.utf8ByteSize + 52 +
      s.config.optimize.productRoom * u.text.toList.count '*' := by
  obtain ⟨script, hscript, hcode⟩ := Session.script_of_compile hlower hcoherent hcompile
  have hlowered := Script.room_of_lower s.config.optimize.productRoom
    (Script.lower_optimize_of_compile hcode)
  have hoptimized := Script.room_optimize_le s.config.optimize script
  have htext : script.room s.config.optimize.productRoom ≤ _ := Script.room_le_of_ofText hscript
  omega

namespace Container

/-- Code that ends with a return is refused only for want of room. -/
theorem decode_encoded_of_room {c : Code} (hreturn : c.endsWithReturn = true)
    (mtime size : UInt64) :
    ∃ bytes, encode Code.format c mtime size = .ok bytes ∧
      (c.room ≤ Payload.maxPayload →
        decode Code.format bytes = .ok ⟨.ofStat mtime size, c⟩) ∧
      (Payload.maxPayload < c.room →
        ∃ fault, decode Code.format bytes = .error (.corruptPayload fault)) := by
  by_cases hroom : c.room ≤ Payload.maxPayload
  · obtain ⟨bytes, hencode, hdecode⟩ :=
      decode_encoded (Code.withinLimit_iff.mpr hroom) mtime size
    rw [if_pos hreturn] at hdecode
    exact ⟨bytes, hencode, fun _ => hdecode, fun hlarge => absurd hroom (Nat.not_le.mpr hlarge)⟩
  · have hlimit : ¬c.WithinLimit := fun h => hroom (Code.withinLimit_iff.mp h)
    have hread : ∃ fault, Code.format.read (Payload.code c) = .error fault := by
      rcases Code.ofPayload_of_not_withinLimit hlimit with hfault | hfault
      · exact ⟨_, hfault⟩
      · exact ⟨_, hfault⟩
    obtain ⟨fault, hread⟩ := hread
    refine ⟨(Header.ofStat mtime size).bytes ++ Payload.code c, rfl,
      fun hsmall => absurd hsmall hroom, fun _ => ⟨fault, ?_⟩⟩
    rw [decode_bytes_append Code.format rfl, hread]
    rfl

end Container

/-! ## Repetitions -/

/-- A text times a number, assigned to a name. -/
def Script.repetition (unit : String) (count : Int64) : Script :=
  [.assign "x" (.binary .mul (.constant (.str unit)) (.constant (.int count)))]

/-- The code of an assignment of a text. -/
def Code.assignsText (filename text : String) : Code where
  filename := filename
  constants := [.str text, .none]
  names := ["x"]
  instructions := [.loadConst 0, .storeName 0, .loadConst 1, .ret]

theorem Script.compile_repetition_off (unit : String) (count : Int64) (filename : String) :
    ∃ code, (Script.repetition unit count).compile .off filename = .ok code :=
  ⟨_, rfl⟩

theorem Script.compile_repetition {unit text : String} {count : Int64}
    (h : Arithmetic.repeated unit count = .ok (.str text)) (filename : String) :
    (Script.repetition unit count).compile {} filename = .ok (.assignsText filename text) := by
  have hvalue : Arithmetic.binary .mul (.str unit) (.int count) = .ok (.str text) := h
  have hpair : Pair.inspect .mul (.constant (.str unit)) (.constant (.int count)) =
      .value (.str text) :=
    Pair.inspect_eq_value_iff.mpr ⟨rfl, _, _, rfl, rfl, hvalue⟩
  have hfold : (Script.repetition unit count).optimize {} =
      [.assign "x" (.constant (.str text))] := by
    simp [Script.optimize, Script.foldPairs, Script.replace, Script.repetition, Stmt.replace,
      Expr.replace, foldPair?, hpair]
  rw [Script.compile, Script.compileWith, hfold]
  rfl

/-- **Which containers can be read again.**  Whatever a session compiles can be written, and what
was written is read again, unless the code takes more room than a reader sets aside.  The room is at
most twenty bytes for each byte of the text, the name and 52 bytes; and if some pass folds, another
`Arithmetic.maxTextBytes` for each star in the text. -/
theorem decode_compiled {s : Session} {u : SourceUnit} {code : Code}
    (hlower : s.LowersAsUsual) (hcoherent : s.Coherent u)
    (hcompile : (s.compile u).1 = .ok code) (mtime size : UInt64) :
    ∃ bytes, Container.encode Code.format code mtime size = .ok bytes ∧
      (code.room ≤ Payload.maxPayload →
        Container.decode Code.format bytes = .ok ⟨.ofStat mtime size, code⟩) ∧
      (Payload.maxPayload < code.room →
        ∃ fault, Container.decode Code.format bytes = .error (.corruptPayload fault)) ∧
      code.room ≤ 20 * u.text.utf8ByteSize + u.identifier.utf8ByteSize + 52 +
        s.config.optimize.productRoom * u.text.toList.count '*' := by
  obtain ⟨script, -, hcode⟩ := Session.script_of_compile hlower hcoherent hcompile
  obtain ⟨bytes, hencode, hreadable, hunreadable⟩ :=
    Container.decode_encoded_of_room (Script.endsWithReturn_of_compile hcode) mtime size
  exact ⟨bytes, hencode, hreadable, hunreadable,
    Session.room_le_of_compile hlower hcoherent hcompile⟩

/-- A text times a number is folded, and what was written is read again. -/
theorem decode_compiled_repetition :
    (({} : Session).compile ⟨"t.py", "x='ab'*3", none⟩).1 = .ok (.assignsText "t.py" "ababab") ∧
      ∃ bytes, Container.encode Code.format (.assignsText "t.py" "ababab") 1 2 = .ok bytes ∧
        Container.decode Code.format bytes =
          .ok ⟨.ofStat 1 2, .assignsText "t.py" "ababab"⟩ ∧
        (Code.assignsText "t.py" "ababab").room ≤ 216 + Arithmetic.maxTextBytes := by
  have hlower : ({} : Session).LowersAsUsual := rfl
  have hcoherent : ({} : Session).Coherent ⟨"t.py", "x='ab'*3", none⟩ :=
    Session.coherent_of_entries_eq_nil rfl _
  have hscript : Script.ofText "x='ab'*3" = .ok (Script.repetition "ab" 3) := by cbv
  have hcompile : (({} : Session).compile ⟨"t.py", "x='ab'*3", none⟩).1 =
      .ok (.assignsText "t.py" "ababab") :=
    Session.compile_eq_ok hlower hcoherent hscript (Script.compile_repetition (by decide) "t.py")
  obtain ⟨bytes, hencode, hreadable, -, hbound⟩ := decode_compiled hlower hcoherent hcompile 1 2
  exact ⟨hcompile, bytes, hencode, hreadable (by decide), hbound⟩

/-- The tokens of a repetition. -/
def Script.repetitionKinds (unit : String) (count : Int64) : List TokenKind :=
  [.name "x", .equals, .literal (.str unit), .operator .mul, .literal (.int count)]

namespace Parser

theorem readStatement_repetition {unit : String} {count : Int64} {stop : Position}
    {ts : List Token} (hts : ts.map Token.kind = Script.repetitionKinds unit count) :
    readStatement stop ts =
      .ok (.assign "x" (.binary .mul (.constant (.str unit)) (.constant (.int count))), []) := by
  obtain ⟨p, behind, rfl, hequals⟩ := Token.exists_cons_of_map_kind hts
  obtain ⟨q, value, rfl, hvalue⟩ := Token.exists_cons_of_map_kind hequals
  obtain ⟨r, times, rfl, htimes⟩ := Token.exists_cons_of_map_kind hvalue
  obtain ⟨o, number, rfl, hnumber⟩ := Token.exists_cons_of_map_kind htimes
  obtain ⟨n, none, rfl, hnone⟩ := Token.exists_cons_of_map_kind hnumber
  obtain rfl := List.map_eq_nil_iff.mp hnone
  have hread : readExpression stop maxNesting 0
      [⟨.literal (.str unit), r⟩, ⟨.operator .mul, o⟩, ⟨.literal (.int count), n⟩] =
        .ok (.binary .mul (.constant (.str unit)) (.constant (.int count)), []) := by
    obtain ⟨levels, hlevels⟩ : ∃ levels, maxNesting = levels + 1 := ⟨199, rfl⟩
    rw [hlevels, readExpression_literal, readChain_operator (Nat.zero_le _), readExpression_literal,
      readChain_of_ends ends_nil]
    exact readChain_of_ends ends_nil
  rw [readStatement_assign, hread]
  rfl

end Parser

/-- The spelling of a repetition whose text needs no escapes. -/
theorem Script.spelling_repetition {unit : String} {count : Int64}
    (hunit : unit.toList.flatMap TokenKind.escaped = unit.toList) :
    String.ofList ((Script.repetitionKinds unit count).flatMap TokenKind.spelling) =
      "x='" ++ unit ++ "'*" ++ String.ofList (Word.decimal count.toInt) := by
  have hlist : (Script.repetitionKinds unit count).flatMap TokenKind.spelling =
      "x='".toList ++ (unit.toList ++ ("'*".toList ++ Word.decimal count.toInt)) := by
    show 'x' :: '=' :: '\'' :: (unit.toList.flatMap TokenKind.escaped ++ ['\''] ++
      '*' :: (Word.decimal count.toInt ++ [])) = _
    rw [hunit, List.append_nil, List.append_assoc]
    rfl
  rw [hlist, String.ofList_append, String.ofList_append, String.ofList_append,
    String.ofList_toList, String.ofList_toList, String.ofList_toList, String.append_assoc,
    String.append_assoc]

/-- A repetition is read from its spelling. -/
theorem Script.ofText_repetition {unit : String} {count : Int64} (hcount : 0 ≤ count.toInt) :
    Script.ofText (String.ofList ((Script.repetitionKinds unit count).flatMap
      TokenKind.spelling)) = .ok (Script.repetition unit count) := by
  refine Script.ofText_spelling ?_ ?_ Parser.readStatement_repetition
  · intro k hk
    simp only [Script.repetitionKinds, List.mem_cons, List.not_mem_nil, or_false] at hk
    rcases hk with rfl | rfl | rfl | rfl | rfl
    · exact ⟨⟨'x', [], rfl, by decide, rfl⟩, by decide⟩
    · trivial
    · trivial
    · trivial
    · exact hcount
  · have hlast : Lexer.Arranged 0 [.operator .mul, .literal (.int count)] :=
      Lexer.arranged_of_standsAlone rfl (Lexer.arranged_operand rfl (by simp) trivial)
    have hunit : Lexer.Arranged 0
        [.literal (.str unit), .operator .mul, .literal (.int count)] :=
      Lexer.arranged_operand rfl (by simp [TokenKind.isOperand]) hlast
    exact Lexer.arranged_operand rfl (by simp [TokenKind.isOperand])
      (Lexer.arranged_of_standsAlone rfl hunit)

/-- A letter, so many times. -/
def letters (n : Nat) : String := String.ofList (List.replicate n 'a')

theorem utf8ByteSize_letters (n : Nat) : (letters n).utf8ByteSize = n := by
  rw [letters, String.utf8ByteSize_ofList]
  induction n with
  | zero => rfl
  | succ n ih =>
    rw [List.replicate_succ, String.utf8Len_cons, ih]
    rfl

/-- Letters need no escapes. -/
theorem flatMap_escaped_letters (n : Nat) :
    (letters n).toList.flatMap TokenKind.escaped = (letters n).toList := by
  rw [letters, String.toList_ofList, List.flatMap_replicate]
  exact List.flatten_replicate_singleton

/-- A text of 64 megabytes, spelled in little more than one kilobyte. -/
def longRepetition : String := "x='" ++ letters 1024 ++ "'*" ++ "65536"

theorem utf8ByteSize_longRepetition : longRepetition.utf8ByteSize = 1034 := by
  rw [longRepetition, String.utf8ByteSize_append, String.utf8ByteSize_append,
    String.utf8ByteSize_append, utf8ByteSize_letters]
  rfl

theorem Script.ofText_longRepetition :
    Script.ofText longRepetition = .ok (Script.repetition (letters 1024) 65536) := by
  have hcount : Word.decimal (65536 : Int64).toInt = "65536".toList := by decide
  have hread := @Script.ofText_repetition (letters 1024) 65536 (by decide)
  rw [Script.spelling_repetition (flatMap_escaped_letters 1024), hcount] at hread
  exact hread

theorem Arithmetic.repeated_letters :
    Arithmetic.repeated (letters 1024) 65536 =
      .ok (.str (String.join (List.replicate 65536 (letters 1024)))) := by
  have htimes : (65536 : Int64).toInt.toNat = 65536 := by decide
  have hempty : (letters 1024).isEmpty = false := by
    rw [String.isEmpty_eq_false_iff]
    intro hempty
    have hzero := utf8ByteSize_letters 1024
    rw [hempty] at hzero
    cases hzero
  unfold Arithmetic.repeated
  dsimp only
  rw [htimes, utf8ByteSize_letters, if_neg (by decide), hempty, if_neg Bool.false_ne_true]

theorem Code.lt_room_assignsText (filename text : String) :
    text.utf8ByteSize < (Code.assignsText filename text).room := by
  simp only [Code.room, Code.assignsText, Payload.listRoom, Payload.constantRoom, Payload.strRoom]
  omega

/-- **A container that cannot be read.**  Under the defaults a repetition of little more than one
kilobyte compiles to code whose container is refused; with nothing folded it compiles to code whose
container is read again. -/
theorem exists_unreadable :
    (∃ code bytes fault, (({} : Session).compile ⟨"a.py", longRepetition, none⟩).1 = .ok code ∧
      Container.encode Code.format code 0 0 = .ok bytes ∧
      Container.decode Code.format bytes = .error (.corruptPayload fault)) ∧
    ∃ code bytes, (({ config := { optimize := .off } } : Session).compile
        ⟨"a.py", longRepetition, none⟩).1 = .ok code ∧
      Container.encode Code.format code 0 0 = .ok bytes ∧
      Container.decode Code.format bytes = .ok ⟨.ofStat 0 0, code⟩ := by
  constructor
  · let code := Code.assignsText "a.py" (String.join (List.replicate 65536 (letters 1024)))
    have hcompile : (({} : Session).compile ⟨"a.py", longRepetition, none⟩).1 = .ok code :=
      Session.compile_eq_ok rfl (Session.coherent_of_entries_eq_nil rfl _)
        Script.ofText_longRepetition
        (Script.compile_repetition Arithmetic.repeated_letters "a.py")
    have hroom : Payload.maxPayload < code.room := by
      have hsize := Code.lt_room_assignsText "a.py"
        (String.join (List.replicate 65536 (letters 1024)))
      rwa [Arithmetic.utf8ByteSize_join_replicate, utf8ByteSize_letters] at hsize
    obtain ⟨bytes, hencode, -, hunreadable⟩ :=
      @Container.decode_encoded_of_room code rfl 0 0
    obtain ⟨fault, hdecode⟩ := hunreadable hroom
    exact ⟨code, bytes, fault, hcompile, hencode, hdecode⟩
  · obtain ⟨code, hcode⟩ := Script.compile_repetition_off (letters 1024) 65536 "a.py"
    let plain : Session := { config := { optimize := .off } }
    have hlower : plain.LowersAsUsual := rfl
    have hcoherent : plain.Coherent ⟨"a.py", longRepetition, none⟩ :=
      Session.coherent_of_entries_eq_nil rfl _
    have hcompile : (plain.compile ⟨"a.py", longRepetition, none⟩).1 = .ok code :=
      Session.compile_eq_ok hlower hcoherent Script.ofText_longRepetition hcode
    have hroom : code.room ≤ Payload.maxPayload := by
      have hbound := Session.room_le_of_compile hlower hcoherent hcompile
      have hproduct : plain.config.optimize.productRoom = 0 := rfl
      have hsize := utf8ByteSize_longRepetition
      have hname : "a.py".utf8ByteSize = 4 := rfl
      have hmax : Payload.maxPayload = 67108864 := rfl
      rw [hproduct, Nat.zero_mul] at hbound
      dsimp only at hbound
      omega
    obtain ⟨bytes, hencode, hreadable, -⟩ :=
      Container.decode_encoded_of_room (Script.endsWithReturn_of_compile hcode) 0 0
    exact ⟨code, bytes, hcompile, hencode, hreadable hroom⟩

end StackScript
