import I8086.Encoding.Fields
import I8086.Proofs.Reading

/-!
# The grammar of instruction fields

The readers of the fields as inductive relations between bytes and what they stand for:
`OperandBytes` for what follows a mod-r/m byte, `RmBytes` for the byte and what follows it,
`ImmediateBytes` for immediates and `FieldBytes` for the forms, one rule each. Main statement:
`reads_fields_iff`, the reader of a form reads exactly what its rule derives, so a proof about the
fields of all forms is a case analysis of a derivation.
-/

namespace I8086

open Reader

/-- The byte that overrides the default segment with this one. -/
def SegmentRegister.overrideByte : SegmentRegister → UInt8
  | .es => 0x26
  | .cs => 0x2E
  | .ss => 0x36
  | .ds => 0x3E

/-- The bytes of an override that may be there. -/
def overrideBytes : Option SegmentRegister → List UInt8
  | none => []
  | some s => [s.overrideByte]

/-- A byte overrides a segment if it is the byte of that segment. -/
theorem override?_eq_some_iff {b : UInt8} {s : SegmentRegister} :
    override? b = some s ↔ b = s.overrideByte := by
  rw [override?_eq]
  constructor
  · intro h
    split at h
    · cases h
      assumption
    split at h
    · cases h
      assumption
    split at h
    · cases h
      assumption
    split at h
    · cases h
      assumption
    · cases h
  · rintro rfl
    cases s <;> rfl

/-- The bytes after a mod-r/m byte, and the operand that they give. A displacement whose first byte
is an override has an override before it. -/
inductive OperandBytes (w : Width) : ModRm → List UInt8 → Operand → Prop where
  | register (reg rm : Fin 8) :
      OperandBytes w ⟨.register, reg, rm⟩ [] (.register (.ofField w rm))
  | plain (reg : Fin 8) {rm : Fin 8} (hrm : rm ≠ 6) :
      OperandBytes w ⟨.plain, reg, rm⟩ [] (.memory (.based (.ofField rm) 0) none)
  | direct (reg : Fin 8) {s : Option SegmentRegister} {low : UInt8} (high : UInt8)
      (hs : s = none → override? low = none) :
      OperandBytes w ⟨.plain, reg, 6⟩ (overrideBytes s ++ [low, high])
        (.memory (.direct (wordOfBytes low high)) s)
  | byte (reg rm : Fin 8) {s : Option SegmentRegister} {b : UInt8}
      (hs : s = none → override? b = none) :
      OperandBytes w ⟨.byteDisplacement, reg, rm⟩ (overrideBytes s ++ [b])
        (.memory (.based (.ofField rm) b.toInt8.toInt16) s)
  | word (reg rm : Fin 8) {s : Option SegmentRegister} {low : UInt8} (high : UInt8)
      (hs : s = none → override? low = none) :
      OperandBytes w ⟨.wordDisplacement, reg, rm⟩ (overrideBytes s ++ [low, high])
        (.memory (.based (.ofField rm) (wordOfBytes low high).toInt16) s)

/-- A mod-r/m byte with the bytes after it, the operand and the register field. -/
inductive RmBytes (w : Width) : List UInt8 → Operand → Fin 8 → Prop where
  | mk (m : ModRm) {bs : List UInt8} {x : Operand} (h : OperandBytes w m bs x) :
      RmBytes w (m.toByte :: bs) x m.reg

/-- The bytes of an immediate; a byte is sign-extended. -/
inductive ImmediateBytes : Width → List UInt8 → Int16 → Prop where
  | byte (b : UInt8) : ImmediateBytes .byte [b] b.toInt8.toInt16
  | word (low high : UInt8) : ImmediateBytes .word [low, high] (wordOfBytes low high).toInt16

open Fields in
/-- The bytes after an opcode, by the form of the instruction, and its fields. -/
inductive FieldBytes (opcode : UInt8) : Form → List UInt8 → Fields → Prop where
  | bare : FieldBytes opcode .bare [] {}
  | string : FieldBytes opcode .string [] { width := widthOf opcode, stringOp := true }
  | padded (b : UInt8) : FieldBytes opcode .padded [b] {}
  | rmRegister {u : List UInt8} {x : Operand} {reg : Fin 8} (h : RmBytes (widthOf opcode) u x reg) :
      FieldBytes opcode .rmRegister u
        (directed opcode x (.register (.ofField (widthOf opcode) reg)) (widthOf opcode))
  | rmImmediate {u v : List UInt8} {x : Operand} {reg : Fin 8} {n : Int16}
      (h : RmBytes (widthOf opcode) u x reg) (hn : ImmediateBytes (widthOf opcode) v n) :
      FieldBytes opcode .rmImmediate (u ++ v)
        { first := some x, second := some (.immediate n), width := widthOf opcode }
  | rmSignedByte {u v : List UInt8} {x : Operand} {reg : Fin 8} {n : Int16}
      (h : RmBytes (widthOf opcode) u x reg)
      (hn : ImmediateBytes (if opcode.toNat.testBit 1 then .byte else widthOf opcode) v n) :
      FieldBytes opcode .rmSignedByte (u ++ v)
        { first := some x, second := some (.immediate n), width := widthOf opcode }
  | registerImmediate {v : List UInt8} {n : Int16}
      (hn : ImmediateBytes (registerWidth opcode) v n) :
      FieldBytes opcode .registerImmediate v
        { first := some (.register (.ofField (registerWidth opcode) (opcodeRegister opcode))),
          second := some (.immediate n), width := registerWidth opcode }
  | accumulatorMemory (low high : UInt8) :
      FieldBytes opcode .accumulatorMemory [low, high]
        { first := some .accumulator,
          second := some (.memory (.direct (wordOfBytes low high)) none),
          width := widthOf opcode }
  | memoryAccumulator (low high : UInt8) :
      FieldBytes opcode .memoryAccumulator [low, high]
        { first := some (.memory (.direct (wordOfBytes low high)) none),
          second := some .accumulator, width := widthOf opcode }
  | accumulatorImmediate {v : List UInt8} {n : Int16} (hn : ImmediateBytes (widthOf opcode) v n) :
      FieldBytes opcode .accumulatorImmediate v
        { first := some .accumulator, second := some (.immediate n), width := widthOf opcode }
  | rm {u : List UInt8} {x : Operand} {reg : Fin 8} (h : RmBytes (widthOf opcode) u x reg) :
      FieldBytes opcode .rm u { first := some x, width := widthOf opcode }
  | rmFar {u : List UInt8} {x : Operand} {reg : Fin 8} (h : RmBytes (widthOf opcode) u x reg) :
      FieldBytes opcode .rmFar u { first := some x, width := widthOf opcode, far := true }
  | registerMemory {u : List UInt8} {x : Operand} {reg : Fin 8} (h : RmBytes .word u x reg) :
      FieldBytes opcode .registerMemory u
        { first := some (.register (.ofField .word reg)), second := some x, width := .word }
  | rmOne {u : List UInt8} {x : Operand} {reg : Fin 8} (h : RmBytes (widthOf opcode) u x reg) :
      FieldBytes opcode .rmOne u
        { first := some x, second := some (.immediate 1), width := widthOf opcode }
  | rmCount {u : List UInt8} {x : Operand} {reg : Fin 8} (h : RmBytes (widthOf opcode) u x reg) :
      FieldBytes opcode .rmCount u
        { first := some x, second := some (.register .cl), width := widthOf opcode }
  | rmSegment {u : List UInt8} {x : Operand} {reg : Fin 8} (h : RmBytes .word u x reg) :
      FieldBytes opcode .rmSegment u
        (directed opcode x (.segment (.ofField (lowBits2 reg.val))) .word)
  | register :
      FieldBytes opcode .register []
        { first := some (.register (.ofField .word (opcodeRegister opcode))), width := .word }
  | segmentRegister :
      FieldBytes opcode .segmentRegister []
        { first := some (.segment (.ofField (segmentField opcode))), width := .word }
  | accumulatorRegister :
      FieldBytes opcode .accumulatorRegister []
        { first := some .accumulator,
          second := some (.register (.ofField .word (opcodeRegister opcode))), width := .word }
  | byteImmediate {v : List UInt8} {n : Int16} (hn : ImmediateBytes .byte v n) :
      FieldBytes opcode .byteImmediate v { first := some (.immediate n) }
  | wordImmediate {v : List UInt8} {n : Int16} (hn : ImmediateBytes .word v n) :
      FieldBytes opcode .wordImmediate v { first := some (.immediate n) }
  | nearTarget {v : List UInt8} {n : Int16} (hn : ImmediateBytes .word v n) :
      FieldBytes opcode .nearTarget v { first := some (.immediate n) }
  | farTarget {u v : List UInt8} {ip cs : Int16} (hip : ImmediateBytes .word u ip)
      (hcs : ImmediateBytes .word v cs) :
      FieldBytes opcode .farTarget (u ++ v) { first := some (.far ip cs) }
  | shortTarget (b : UInt8) :
      FieldBytes opcode .shortTarget [b] { first := some (.label b.toInt8) }
  | fixedPort (b : UInt8) :
      FieldBytes opcode .fixedPort [b]
        (directed opcode .accumulator (.immediate b.toUInt16.toInt16) (widthOf opcode))
  | variablePort :
      FieldBytes opcode .variablePort []
        (directed opcode .accumulator (.register .dx) (widthOf opcode))
  | escape {u : List UInt8} {x : Operand} {reg : Fin 8} (h : RmBytes (widthOf opcode) u x reg) :
      FieldBytes opcode .escape u
        { first := some (.immediate (Int16.ofNat ((opcodeRegister opcode).val + 8 * reg.val))),
          second := some x, width := widthOf opcode }

variable {w : Width} {bs v : List UInt8} {m : ModRm} {x : Operand} {reg : Fin 8} {opcode : UInt8}
variable {low high : UInt8} {n : Int16} {s : Option SegmentRegister}

/-- Reading a byte and going on. -/
lemma reads_byte_bind_iff {α : Type} {f : UInt8 → Reader α} {y : α} :
    (byte.bind f).Reads bs y ↔ ∃ b v, bs = b :: v ∧ (f b).Reads v y := by
  rw [reads_bind_iff]
  constructor
  · rintro ⟨u, v, b, rfl, rd, rd'⟩
    obtain rfl := reads_byte_iff.1 rd
    exact ⟨b, v, rfl, rd'⟩
  · rintro ⟨b, v, rfl, rd⟩
    exact ⟨[b], v, b, rfl, reads_byte_iff.2 rfl, rd⟩

/-- Reading a word. -/
lemma reads_word_iff {y : UInt16} :
    word.Reads bs y ↔ ∃ low high, bs = [low, high] ∧ y = wordOfBytes low high := by
  simp only [word, bind_eq, pure_eq, reads_byte_bind_iff, reads_done_iff]
  constructor
  · rintro ⟨low, _, rfl, high, _, rfl, rfl, rfl⟩
    exact ⟨low, high, rfl, rfl⟩
  · rintro ⟨low, high, rfl, rfl⟩
    exact ⟨low, [high], rfl, high, [], rfl, rfl, rfl⟩

/-- Reading a displacement byte with the override that may stand before it. -/
lemma reads_displacementByte_iff :
    ModRm.displacementByte.Reads bs (s, low) ↔
      bs = overrideBytes s ++ [low] ∧ (s = none → override? low = none) := by
  simp only [ModRm.displacementByte, bind_eq, reads_byte_bind_iff]
  constructor
  · rintro ⟨b, v, rfl, rd⟩
    cases hb : override? b with
    | none =>
      simp only [hb, pure_eq, reads_done_iff, Prod.mk.injEq] at rd
      obtain ⟨rfl, rfl, rfl⟩ := rd
      exact ⟨rfl, fun _ => hb⟩
    | some t =>
      simp only [hb, pure_eq, reads_byte_bind_iff, reads_done_iff, Prod.mk.injEq] at rd
      obtain ⟨c, _, rfl, rfl, rfl, rfl⟩ := rd
      obtain rfl := override?_eq_some_iff.1 hb
      exact ⟨rfl, fun h => (Option.some_ne_none _ h).elim⟩
  · rintro ⟨rfl, hs⟩
    cases s with
    | none =>
      refine ⟨low, [], rfl, ?_⟩
      rw [hs rfl]
      exact .done _
    | some t =>
      refine ⟨t.overrideByte, [low], rfl, ?_⟩
      rw [override?_eq_some_iff.2 rfl]
      exact .next (.done _)

/-- Reading a displacement word with the override that may stand before it. -/
lemma reads_displacementWord_iff {y : UInt16} :
    ModRm.displacementWord.Reads bs (s, y) ↔
      ∃ low high, bs = overrideBytes s ++ [low, high] ∧ y = wordOfBytes low high ∧
        (s = none → override? low = none) := by
  simp only [ModRm.displacementWord, bind_eq, pure_eq, reads_bind_iff, Prod.exists,
    reads_displacementByte_iff, reads_byte_iff, reads_done_iff, Prod.mk.injEq]
  constructor
  · rintro ⟨_, _, s, low, rfl, ⟨rfl, hs⟩, _, _, high, rfl, rfl, rfl, rfl, rfl⟩
    exact ⟨low, high, by simp, rfl, hs⟩
  · rintro ⟨low, high, rfl, rfl, hs⟩
    exact ⟨overrideBytes s ++ [low], [high], s, low, by simp, ⟨rfl, hs⟩, [high], [], high, rfl,
      rfl, rfl, rfl, rfl⟩

/-- Reading what follows a mod-r/m byte. -/
theorem reads_operand_iff : (m.operand w).Reads bs x ↔ OperandBytes w m bs x := by
  obtain ⟨mode, reg, rm⟩ := m
  constructor
  · intro rd
    cases mode with
    | register =>
      obtain ⟨rfl, rfl⟩ := reads_done_iff.1 rd
      exact .register reg rm
    | plain =>
      by_cases hrm : rm = 6
      · subst hrm
        obtain ⟨_, _, ⟨s, y⟩, rfl, rd, rd'⟩ := reads_bind_iff.1 rd
        obtain ⟨low, high, rfl, rfl, hs⟩ := reads_displacementWord_iff.1 rd
        obtain ⟨rfl, rfl⟩ := reads_done_iff.1 rd'
        rw [List.append_nil]
        exact .direct reg high hs
      · have hval : rm.val ≠ 6 := fun h => hrm (Fin.ext h)
        simp only [ModRm.operand, hval, if_false, pure_eq, reads_done_iff] at rd
        obtain ⟨rfl, rfl⟩ := rd
        exact .plain reg hrm
    | byteDisplacement =>
      obtain ⟨_, _, ⟨s, b⟩, rfl, rd, rd'⟩ := reads_bind_iff.1 rd
      obtain ⟨rfl, hs⟩ := reads_displacementByte_iff.1 rd
      obtain ⟨rfl, rfl⟩ := reads_done_iff.1 rd'
      rw [List.append_nil]
      exact .byte reg rm hs
    | wordDisplacement =>
      obtain ⟨_, _, ⟨s, y⟩, rfl, rd, rd'⟩ := reads_bind_iff.1 rd
      obtain ⟨low, high, rfl, rfl, hs⟩ := reads_displacementWord_iff.1 rd
      obtain ⟨rfl, rfl⟩ := reads_done_iff.1 rd'
      rw [List.append_nil]
      exact .word reg rm high hs
  · intro h
    cases h with
    | register => exact .done _
    | plain _ hrm =>
      have hval : rm.val ≠ 6 := fun h => hrm (Fin.ext h)
      simp only [ModRm.operand, hval, if_false, pure_eq, reads_done_iff, and_self]
    | direct _ high hs =>
      rw [← List.append_nil (overrideBytes _ ++ _)]
      exact Reads.bind (reads_displacementWord_iff.2 ⟨_, high, rfl, rfl, hs⟩) (.done _)
    | byte _ _ hs =>
      rw [← List.append_nil (overrideBytes _ ++ _)]
      exact Reads.bind (reads_displacementByte_iff.2 ⟨rfl, hs⟩) (.done _)
    | word _ _ high hs =>
      rw [← List.append_nil (overrideBytes _ ++ _)]
      exact Reads.bind (reads_displacementWord_iff.2 ⟨_, high, rfl, rfl, hs⟩) (.done _)

/-- Reading a mod-r/m byte and what follows it. -/
theorem reads_rm_iff : (Fields.rm w).Reads bs (x, reg) ↔ RmBytes w bs x reg := by
  constructor
  · intro rd
    obtain ⟨b, v, rfl, rd1⟩ := reads_byte_bind_iff.1 rd
    obtain ⟨u, _, y, rfl, rd2, rd3⟩ := reads_bind_iff.1 rd1
    obtain ⟨rfl, e⟩ := reads_done_iff.1 rd3
    cases e
    rw [List.append_nil]
    have h := RmBytes.mk (ModRm.ofByte b) (reads_operand_iff.1 rd2)
    rwa [ModRm.toByte_ofByte] at h
  · rintro ⟨m, h⟩
    refine reads_byte_bind_iff.2 ⟨_, _, rfl, ?_⟩
    rw [ModRm.ofByte_toByte]
    exact reads_bind_iff.2 ⟨_, [], x, (List.append_nil _).symm, reads_operand_iff.2 h, .done _⟩

/-- Reading a signed word. -/
lemma reads_signedWord_iff : signedWord.Reads bs n ↔ ImmediateBytes .word bs n := by
  constructor
  · intro rd
    obtain ⟨_, _, y, rfl, rd1, rd2⟩ := reads_bind_iff.1 rd
    obtain ⟨low, high, rfl, rfl⟩ := reads_word_iff.1 rd1
    obtain ⟨rfl, rfl⟩ := reads_done_iff.1 rd2
    exact .word low high
  · rintro ⟨low, high⟩
    exact .next (.next (.done _))

/-- Reading an immediate. -/
lemma reads_immediate_iff :
    (Fields.immediate w).Reads bs x ↔ ∃ n, x = .immediate n ∧ ImmediateBytes w bs n := by
  constructor
  · intro rd
    cases w with
    | byte =>
      obtain ⟨_, _, y, rfl, rd1, rd2⟩ := reads_bind_iff.1 rd
      obtain ⟨b, v, rfl, rd3⟩ := reads_byte_bind_iff.1 rd1
      obtain ⟨rfl, rfl⟩ := reads_done_iff.1 rd3
      obtain ⟨rfl, rfl⟩ := reads_done_iff.1 rd2
      exact ⟨_, rfl, .byte b⟩
    | word =>
      obtain ⟨_, _, y, rfl, rd1, rd2⟩ := reads_bind_iff.1 rd
      obtain ⟨rfl, rfl⟩ := reads_done_iff.1 rd2
      rw [List.append_nil]
      exact ⟨y, rfl, reads_signedWord_iff.1 rd1⟩
  · rintro ⟨n, rfl, h⟩
    cases h with
    | byte b => exact .next (.done _)
    | word low high => exact .next (.next (.done _))

variable {r : Reader Fields} {form : Form} {f : Fields}

/-- Reading a mod-r/m operand alone. -/
lemma reads_rmOnly_iff :
    (Fields.rmOnly opcode).Reads bs f ↔ ∃ x reg,
      f = { first := some x, width := Fields.widthOf opcode } ∧
        RmBytes (Fields.widthOf opcode) bs x reg := by
  constructor
  · intro rd
    obtain ⟨_, _, ⟨x, reg⟩, rfl, rd1, rd2⟩ := reads_bind_iff.1 rd
    obtain ⟨rfl, rfl⟩ := reads_done_iff.1 rd2
    rw [List.append_nil]
    exact ⟨x, reg, rfl, reads_rm_iff.1 rd1⟩
  · rintro ⟨x, reg, rfl, h⟩
    exact (reads_rm_iff.2 h).bind_nil (.done _)

/-- What the reader of a form reads, its rule derives. -/
lemma fieldBytes_of_reads (hr : form.fields? opcode = some r) (rd : r.Reads bs f) :
    FieldBytes opcode form bs f := by
  cases form <;> cases hr
  case bare =>
    obtain ⟨rfl, rfl⟩ := reads_done_iff.1 rd
    exact .bare
  case string =>
    obtain ⟨rfl, rfl⟩ := reads_done_iff.1 rd
    exact .string
  case padded =>
    obtain ⟨b, v, rfl, rd1⟩ := reads_byte_bind_iff.1 rd
    obtain ⟨rfl, rfl⟩ := reads_done_iff.1 rd1
    exact .padded b
  case rmRegister =>
    obtain ⟨_, _, ⟨x, reg⟩, rfl, rd1, rd2⟩ := reads_bind_iff.1 rd
    obtain ⟨rfl, rfl⟩ := reads_done_iff.1 rd2
    rw [List.append_nil]
    exact .rmRegister (reads_rm_iff.1 rd1)
  case rmImmediate =>
    obtain ⟨u, _, ⟨x, reg⟩, rfl, rd1, rd2⟩ := reads_bind_iff.1 rd
    obtain ⟨v, _, y, rfl, rd3, rd4⟩ := reads_bind_iff.1 rd2
    obtain ⟨rfl, rfl⟩ := reads_done_iff.1 rd4
    obtain ⟨n, rfl, hn⟩ := reads_immediate_iff.1 rd3
    rw [List.append_nil]
    exact .rmImmediate (reads_rm_iff.1 rd1) hn
  case rmSignedByte =>
    obtain ⟨u, _, ⟨x, reg⟩, rfl, rd1, rd2⟩ := reads_bind_iff.1 rd
    -- The rest of the reader stands in both branches, so the sign bit is settled before it.
    by_cases hbit : opcode.toNat.testBit 1
    · simp only [hbit, if_true] at rd2
      obtain ⟨v, _, y, rfl, rd3, rd4⟩ := reads_bind_iff.1 rd2
      obtain ⟨rfl, rfl⟩ := reads_done_iff.1 rd4
      obtain ⟨n, rfl, hn⟩ := reads_immediate_iff (w := .byte).1 rd3
      rw [List.append_nil]
      exact .rmSignedByte (reads_rm_iff.1 rd1) (by rwa [if_pos hbit])
    · simp only [hbit] at rd2
      obtain ⟨v, _, y, rfl, rd3, rd4⟩ := reads_bind_iff.1 rd2
      obtain ⟨rfl, rfl⟩ := reads_done_iff.1 rd4
      obtain ⟨n, rfl, hn⟩ := reads_immediate_iff.1 rd3
      rw [List.append_nil]
      exact .rmSignedByte (reads_rm_iff.1 rd1) (by rwa [if_neg hbit])
  case registerImmediate =>
    obtain ⟨_, _, y, rfl, rd1, rd2⟩ := reads_bind_iff.1 rd
    obtain ⟨rfl, rfl⟩ := reads_done_iff.1 rd2
    obtain ⟨n, rfl, hn⟩ := reads_immediate_iff.1 rd1
    rw [List.append_nil]
    exact .registerImmediate hn
  case accumulatorMemory =>
    obtain ⟨_, _, y, rfl, rd1, rd2⟩ := reads_bind_iff.1 rd
    obtain ⟨rfl, rfl⟩ := reads_done_iff.1 rd2
    obtain ⟨_, _, z, rfl, rd3, rd4⟩ := reads_bind_iff.1 rd1
    obtain ⟨rfl, rfl⟩ := reads_done_iff.1 rd4
    obtain ⟨low, high, rfl, rfl⟩ := reads_word_iff.1 rd3
    exact .accumulatorMemory low high
  case memoryAccumulator =>
    obtain ⟨_, _, y, rfl, rd1, rd2⟩ := reads_bind_iff.1 rd
    obtain ⟨rfl, rfl⟩ := reads_done_iff.1 rd2
    obtain ⟨_, _, z, rfl, rd3, rd4⟩ := reads_bind_iff.1 rd1
    obtain ⟨rfl, rfl⟩ := reads_done_iff.1 rd4
    obtain ⟨low, high, rfl, rfl⟩ := reads_word_iff.1 rd3
    exact .memoryAccumulator low high
  case accumulatorImmediate =>
    obtain ⟨_, _, y, rfl, rd1, rd2⟩ := reads_bind_iff.1 rd
    obtain ⟨rfl, rfl⟩ := reads_done_iff.1 rd2
    obtain ⟨n, rfl, hn⟩ := reads_immediate_iff.1 rd1
    rw [List.append_nil]
    exact .accumulatorImmediate hn
  case rm =>
    obtain ⟨x, reg, rfl, h⟩ := reads_rmOnly_iff.1 rd
    exact .rm h
  case rmFar =>
    obtain ⟨_, _, g, rfl, rd1, rd2⟩ := reads_bind_iff.1 rd
    obtain ⟨rfl, rfl⟩ := reads_done_iff.1 rd2
    obtain ⟨x, reg, rfl, h⟩ := reads_rmOnly_iff.1 rd1
    rw [List.append_nil]
    exact .rmFar h
  case registerMemory =>
    obtain ⟨_, _, ⟨x, reg⟩, rfl, rd1, rd2⟩ := reads_bind_iff.1 rd
    obtain ⟨rfl, rfl⟩ := reads_done_iff.1 rd2
    rw [List.append_nil]
    exact .registerMemory (reads_rm_iff.1 rd1)
  case rmOne =>
    obtain ⟨_, _, g, rfl, rd1, rd2⟩ := reads_bind_iff.1 rd
    obtain ⟨rfl, rfl⟩ := reads_done_iff.1 rd2
    obtain ⟨x, reg, rfl, h⟩ := reads_rmOnly_iff.1 rd1
    rw [List.append_nil]
    exact .rmOne h
  case rmCount =>
    obtain ⟨_, _, g, rfl, rd1, rd2⟩ := reads_bind_iff.1 rd
    obtain ⟨rfl, rfl⟩ := reads_done_iff.1 rd2
    obtain ⟨x, reg, rfl, h⟩ := reads_rmOnly_iff.1 rd1
    rw [List.append_nil]
    exact .rmCount h
  case rmSegment =>
    obtain ⟨_, _, ⟨x, reg⟩, rfl, rd1, rd2⟩ := reads_bind_iff.1 rd
    obtain ⟨rfl, rfl⟩ := reads_done_iff.1 rd2
    rw [List.append_nil]
    exact .rmSegment (reads_rm_iff.1 rd1)
  case register =>
    obtain ⟨rfl, rfl⟩ := reads_done_iff.1 rd
    exact .register
  case segmentRegister =>
    obtain ⟨rfl, rfl⟩ := reads_done_iff.1 rd
    exact .segmentRegister
  case accumulatorRegister =>
    obtain ⟨rfl, rfl⟩ := reads_done_iff.1 rd
    exact .accumulatorRegister
  case byteImmediate =>
    obtain ⟨_, _, y, rfl, rd1, rd2⟩ := reads_bind_iff.1 rd
    obtain ⟨rfl, rfl⟩ := reads_done_iff.1 rd2
    obtain ⟨n, rfl, hn⟩ := reads_immediate_iff (w := .byte).1 rd1
    rw [List.append_nil]
    exact .byteImmediate hn
  case wordImmediate =>
    obtain ⟨_, _, y, rfl, rd1, rd2⟩ := reads_bind_iff.1 rd
    obtain ⟨rfl, rfl⟩ := reads_done_iff.1 rd2
    obtain ⟨n, rfl, hn⟩ := reads_immediate_iff (w := .word).1 rd1
    rw [List.append_nil]
    exact .wordImmediate hn
  case nearTarget =>
    obtain ⟨_, _, y, rfl, rd1, rd2⟩ := reads_bind_iff.1 rd
    obtain ⟨rfl, rfl⟩ := reads_done_iff.1 rd2
    obtain ⟨n, rfl, hn⟩ := reads_immediate_iff (w := .word).1 rd1
    rw [List.append_nil]
    exact .nearTarget hn
  case farTarget =>
    obtain ⟨u, _, ip, rfl, rd1, rd2⟩ := reads_bind_iff.1 rd
    obtain ⟨v, _, cs, rfl, rd3, rd4⟩ := reads_bind_iff.1 rd2
    obtain ⟨rfl, rfl⟩ := reads_done_iff.1 rd4
    rw [List.append_nil]
    exact .farTarget (reads_signedWord_iff.1 rd1) (reads_signedWord_iff.1 rd3)
  case shortTarget =>
    obtain ⟨_, _, o, rfl, rd1, rd2⟩ := reads_bind_iff.1 rd
    obtain ⟨b, v, rfl, rd3⟩ := reads_byte_bind_iff.1 rd1
    obtain ⟨rfl, rfl⟩ := reads_done_iff.1 rd3
    obtain ⟨rfl, rfl⟩ := reads_done_iff.1 rd2
    exact .shortTarget b
  case fixedPort =>
    obtain ⟨_, _, y, rfl, rd1, rd2⟩ := reads_bind_iff.1 rd
    obtain ⟨b, v, rfl, rd3⟩ := reads_byte_bind_iff.1 rd1
    obtain ⟨rfl, rfl⟩ := reads_done_iff.1 rd3
    obtain ⟨rfl, rfl⟩ := reads_done_iff.1 rd2
    exact .fixedPort b
  case variablePort =>
    obtain ⟨rfl, rfl⟩ := reads_done_iff.1 rd
    exact .variablePort
  case escape =>
    obtain ⟨_, _, ⟨x, reg⟩, rfl, rd1, rd2⟩ := reads_bind_iff.1 rd
    obtain ⟨rfl, rfl⟩ := reads_done_iff.1 rd2
    rw [List.append_nil]
    exact .escape (reads_rm_iff.1 rd1)

/-- What the rule of a form derives, its reader reads. -/
lemma exists_reads_of_fieldBytes (h : FieldBytes opcode form bs f) :
    ∃ r, form.fields? opcode = some r ∧ r.Reads bs f := by
  cases h with
  | bare => exact ⟨_, rfl, .done _⟩
  | string => exact ⟨_, rfl, .done _⟩
  | padded b => exact ⟨_, rfl, .next (.done _)⟩
  | rmRegister h => exact ⟨_, rfl, (reads_rm_iff.2 h).bind_nil (.done _)⟩
  | rmImmediate h hn =>
    refine ⟨_, rfl, (reads_rm_iff.2 h).bind ?_⟩
    exact (reads_immediate_iff.2 ⟨_, rfl, hn⟩).bind_nil (.done _)
  | rmSignedByte h hn =>
    refine ⟨_, rfl, (reads_rm_iff.2 h).bind ?_⟩
    by_cases hbit : opcode.toNat.testBit 1
    · rw [if_pos hbit] at hn
      simp only [hbit, if_true]
      exact (reads_immediate_iff (w := .byte).2 ⟨_, rfl, hn⟩).bind_nil (.done _)
    · rw [if_neg hbit] at hn
      simp only [hbit]
      exact (reads_immediate_iff.2 ⟨_, rfl, hn⟩).bind_nil (.done _)
  | registerImmediate hn =>
    exact ⟨_, rfl, (reads_immediate_iff.2 ⟨_, rfl, hn⟩).bind_nil (.done _)⟩
  | accumulatorMemory low high => exact ⟨_, rfl, .next (.next (.done _))⟩
  | memoryAccumulator low high => exact ⟨_, rfl, .next (.next (.done _))⟩
  | accumulatorImmediate hn =>
    exact ⟨_, rfl, (reads_immediate_iff.2 ⟨_, rfl, hn⟩).bind_nil (.done _)⟩
  | rm h => exact ⟨_, rfl, reads_rmOnly_iff.2 ⟨_, _, rfl, h⟩⟩
  | rmFar h => exact ⟨_, rfl, (reads_rmOnly_iff.2 ⟨_, _, rfl, h⟩).bind_nil (.done _)⟩
  | registerMemory h => exact ⟨_, rfl, (reads_rm_iff.2 h).bind_nil (.done _)⟩
  | rmOne h => exact ⟨_, rfl, (reads_rmOnly_iff.2 ⟨_, _, rfl, h⟩).bind_nil (.done _)⟩
  | rmCount h => exact ⟨_, rfl, (reads_rmOnly_iff.2 ⟨_, _, rfl, h⟩).bind_nil (.done _)⟩
  | rmSegment h => exact ⟨_, rfl, (reads_rm_iff.2 h).bind_nil (.done _)⟩
  | register => exact ⟨_, rfl, .done _⟩
  | segmentRegister => exact ⟨_, rfl, .done _⟩
  | accumulatorRegister => exact ⟨_, rfl, .done _⟩
  | byteImmediate hn =>
    exact ⟨_, rfl, (reads_immediate_iff (w := .byte).2 ⟨_, rfl, hn⟩).bind_nil (.done _)⟩
  | wordImmediate hn =>
    exact ⟨_, rfl, (reads_immediate_iff (w := .word).2 ⟨_, rfl, hn⟩).bind_nil (.done _)⟩
  | nearTarget hn =>
    exact ⟨_, rfl, (reads_immediate_iff (w := .word).2 ⟨_, rfl, hn⟩).bind_nil (.done _)⟩
  | farTarget hip hcs =>
    refine ⟨_, rfl, (reads_signedWord_iff.2 hip).bind ?_⟩
    exact (reads_signedWord_iff.2 hcs).bind_nil (.done _)
  | shortTarget b => exact ⟨_, rfl, .next (.done _)⟩
  | fixedPort b => exact ⟨_, rfl, .next (.done _)⟩
  | variablePort => exact ⟨_, rfl, .done _⟩
  | escape h => exact ⟨_, rfl, (reads_rm_iff.2 h).bind_nil (.done _)⟩

/-- The reader of a form reads exactly what its rule derives. -/
theorem reads_fields_iff :
    (∃ r, form.fields? opcode = some r ∧ r.Reads bs f) ↔ FieldBytes opcode form bs f :=
  ⟨fun ⟨_, hr, rd⟩ => fieldBytes_of_reads hr rd, exists_reads_of_fieldBytes⟩

end I8086
