import I8086.Decode
import I8086.Proofs.Grammar
import Mathlib.Tactic.Lemma

/-!
# Encoding instructions

Bytes for a finished instruction, computed from the instruction alone: the modifying bytes, an opcode,
a mod-r/m byte with the shortest displacement that holds the address, and the values. Which opcode,
and which register field of the mod-r/m byte, `Instruction.fits` decides by asking the opcode map;
`Instruction.encode?` takes the first that fits.
-/

namespace I8086

open Reader

/-- The low byte of a word. -/
def lowByte (w : UInt16) : UInt8 :=
  w.toUInt8

/-- The high byte of a word. -/
def highByte (w : UInt16) : UInt8 :=
  (w >>> 8).toUInt8

/-- The bytes of a value, low byte first; a byte is the low one. -/
def Width.bytes : Width → UInt16 → List UInt8
  | .byte, n => [lowByte n]
  | .word, n => [lowByte n, highByte n]

/-- The number of a word by its bytes. -/
lemma toNat_wordOfBytes (low high : UInt8) :
    (wordOfBytes low high).toNat = 256 * high.toNat + low.toNat := by
  have hh := high.toNat_lt
  have hs : (high.toUInt16 <<< (8 : UInt16)).toNat = 256 * high.toNat := by
    simp [Nat.shiftLeft_eq]
    omega
  have hor := Nat.two_pow_add_eq_or_of_lt low.toNat_lt high.toNat
  rw [wordOfBytes, UInt16.toNat_or, hs, UInt8.toNat_toUInt16, Nat.or_comm]
  exact hor.symm

/-- A word is that of its bytes. -/
@[simp] lemma wordOfBytes_bytes (n : UInt16) : wordOfBytes (lowByte n) (highByte n) = n := by
  apply UInt16.toNat_inj.1
  have hn := n.toNat_lt
  rw [toNat_wordOfBytes]
  simp [lowByte, highByte, Nat.shiftRight_eq_div_pow]
  omega

/-- The low byte of a word is the first of its bytes. -/
@[simp] lemma lowByte_wordOfBytes (low high : UInt8) : lowByte (wordOfBytes low high) = low := by
  apply UInt8.toNat_inj.1
  have hl := low.toNat_lt
  rw [lowByte, UInt16.toNat_toUInt8, toNat_wordOfBytes]
  omega

/-- A number that fits a byte is its low byte, sign-extended. -/
lemma signExtend_lowByte {d : Int16} (h : -128 ≤ d.toInt ∧ d.toInt ≤ 127) :
    (lowByte d.toUInt16).toInt8.toInt16 = d := by
  have hd : (lowByte d.toUInt16).toInt8 = d.toInt8 := by
    apply Int8.toBitVec_inj.1
    simp only [lowByte, UInt8.toBitVec_toInt8, UInt16.toBitVec_toUInt8, Int16.toBitVec_toUInt16,
      Int16.toBitVec_toInt8]
    exact (BitVec.signExtend_eq_setWidth_of_le _ (by decide)).symm
  apply Int16.toInt_inj.1
  rw [hd, Int8.toInt_toInt16, Int16.toInt_toInt8]
  exact Int.bmod_eq_of_le (by omega) (by omega)

/-- The low byte of a sign-extended byte. -/
@[simp] lemma lowByte_signExtend (b : UInt8) : lowByte b.toInt8.toInt16.toUInt16 = b := by
  revert b
  exact forall_byte (by decide +kernel)

/-- The low byte of a zero-extended byte. -/
@[simp] lemma lowByte_zeroExtend (b : UInt8) : lowByte b.toUInt16 = b := by
  revert b
  exact forall_byte (by decide +kernel)

/-- The bytes of an immediate that was read give it again. -/
lemma ImmediateBytes.bytes {w : Width} {bs : List UInt8} {n : Int16}
    (h : ImmediateBytes w bs n) : ImmediateBytes w (w.bytes n.toUInt16) n := by
  cases h with
  | byte b =>
    rw [Width.bytes, lowByte_signExtend]
    exact .byte b
  | word low high =>
    have hw := ImmediateBytes.word (lowByte (wordOfBytes low high)) (highByte (wordOfBytes low high))
    rwa [wordOfBytes_bytes] at hw

/-- The override that a displacement needs in front of it: one whose low byte would be taken for an
override has that of the operand there. -/
def inlineSegment (s : Option SegmentRegister) (displacement : UInt16) :
    Option SegmentRegister :=
  if override? (lowByte displacement) = none then none else s

/-- A displacement with what stands before it. -/
def displacementBytes (w : Width) (s : Option SegmentRegister) (displacement : UInt16) :
    List UInt8 :=
  overrideBytes (inlineSegment s displacement) ++ w.bytes displacement

namespace Operand

/-- The segment override of a memory operand, if it has one. -/
def segment? : Operand → Option SegmentRegister
  | .memory _ s => s
  | _ => none

/-- The mod-r/m byte with a given register field, and the displacement. A zero displacement is left
out except with the base `bp`, and one that fits a byte takes one. -/
def rmBytes (reg : Fin 8) : Operand → List UInt8
  | .register r => [ModRm.toByte ⟨.register, reg, r.field⟩]
  | .memory (.direct address) s =>
    ModRm.toByte ⟨.plain, reg, 6⟩ :: displacementBytes .word s address
  | .memory (.based base d) s =>
    if d = 0 ∧ base ≠ .bp then [ModRm.toByte ⟨.plain, reg, base.field⟩]
    else if -128 ≤ d.toInt ∧ d.toInt ≤ 127 then
      ModRm.toByte ⟨.byteDisplacement, reg, base.field⟩ :: displacementBytes .byte s d.toUInt16
    else ModRm.toByte ⟨.wordDisplacement, reg, base.field⟩ :: displacementBytes .word s d.toUInt16
  | _ => []

/-- The bytes of an operand that has no mod-r/m byte: an immediate of a given width, the address of a
memory operand, the offset of a label or a far target. -/
def valueBytes (w : Width) : Operand → List UInt8
  | .immediate n => w.bytes n.toUInt16
  | .memory (.direct address) _ => Width.word.bytes address
  | .label offset => [offset.toUInt8]
  | .far ip cs => Width.word.bytes ip.toUInt16 ++ Width.word.bytes cs.toUInt16
  | _ => []

end Operand

/-- What the mod-r/m byte and the displacement say of an operand: the override is left to the
modifying bytes unless the displacement needs one. -/
def Operand.inlined : Operand → Operand
  | .memory (.direct address) s => .memory (.direct address) (inlineSegment s address)
  | .memory (.based base d) s => .memory (.based base d) (inlineSegment s d.toUInt16)
  | x => x

/-- What a mod-r/m byte names at a width. The low byte of an address or displacement without an
override is none. -/
inductive RmOperand (w : Width) : Operand → Prop where
  | register (r : Register) (h : r.width = w) : RmOperand w (.register r)
  | direct (address : UInt16) (s : Option SegmentRegister)
      (hs : s = none → override? (lowByte address) = none) :
      RmOperand w (.memory (.direct address) s)
  | based (base : AddressBase) (d : Int16) (s : Option SegmentRegister)
      (hs : s = none → override? (lowByte d.toUInt16) = none) :
      RmOperand w (.memory (.based base d) s)

namespace Instruction

open Fields

/-- The segment override of the memory operand, if there is one. -/
def segment? (i : Instruction) : Option SegmentRegister :=
  i.operands.findSome? Operand.segment?

/-- The modifying bytes of an instruction. -/
def modifierBytes (i : Instruction) : List UInt8 :=
  (if i.modifiers.locked then [0xF0] else []) ++ (if i.modifiers.repeated then [0xF3] else []) ++
    overrideBytes i.segment?

/-- The operand that a mod-r/m byte names. -/
def rmOperand? (i : Instruction) (opcode : UInt8) : Option Operand :=
  match i.form with
  | .rmRegister | .rmSegment => if reversed opcode then i.second else i.first
  | .rmImmediate | .rmSignedByte | .rm | .rmFar | .rmOne | .rmCount => i.first
  | .registerMemory | .escape => i.second
  | _ => none

/-- The bytes of the operand that has bytes of its own after the mod-r/m byte, or without one. -/
def valueBytes (i : Instruction) (opcode pad : UInt8) : List UInt8 :=
  match i.form with
  | .padded => [pad]
  | .rmImmediate | .accumulatorImmediate =>
    i.second.elim [] (Operand.valueBytes (widthOf opcode))
  | .rmSignedByte => i.second.elim [] (Operand.valueBytes .byte)
  | .registerImmediate => i.second.elim [] (Operand.valueBytes (registerWidth opcode))
  | .accumulatorMemory => i.second.elim [] (Operand.valueBytes .word)
  | .memoryAccumulator | .wordImmediate | .nearTarget | .farTarget | .shortTarget =>
    i.first.elim [] (Operand.valueBytes .word)
  | .byteImmediate => i.first.elim [] (Operand.valueBytes .byte)
  | .fixedPort =>
    (if reversed opcode then i.first else i.second).elim [] (Operand.valueBytes .byte)
  | _ => []

/-- The bytes after the opcode. -/
def fieldBytes (i : Instruction) (opcode : UInt8) (reg : Fin 8) (pad : UInt8) : List UInt8 :=
  (i.rmOperand? opcode).elim [] (Operand.rmBytes reg) ++ i.valueBytes opcode pad

/-- What the bits of an opcode and a register field say is so: the width, the operand order and the
register. -/
def agrees (i : Instruction) (opcode : UInt8) (reg : Fin 8) : Bool :=
  match i.form with
  | .string | .rmImmediate | .rmSignedByte | .rm | .rmFar | .rmOne | .rmCount
  | .accumulatorMemory | .memoryAccumulator | .accumulatorImmediate => i.width = widthOf opcode
  | .rmRegister =>
    i.width = widthOf opcode ∧
      (if reversed opcode then i.first else i.second) =
        some (.register (.ofField (widthOf opcode) reg))
  | .rmSegment =>
    (if reversed opcode then i.first else i.second) =
      some (.segment (.ofField (lowBits2 reg.val)))
  | .registerMemory => i.first = some (.register (.ofField .word reg))
  | .escape =>
    i.width = widthOf opcode ∧
      i.first = some (.immediate (Int16.ofNat ((opcodeRegister opcode).val + 8 * reg.val)))
  | .registerImmediate =>
    i.width = registerWidth opcode ∧
      i.first = some (.register (.ofField (registerWidth opcode) (opcodeRegister opcode)))
  | .register => i.first = some (.register (.ofField .word (opcodeRegister opcode)))
  | .segmentRegister => i.first = some (.segment (.ofField (segmentField opcode)))
  | .accumulatorRegister => i.second = some (.register (.ofField .word (opcodeRegister opcode)))
  | .fixedPort | .variablePort =>
    i.width = widthOf opcode ∧
      (if reversed opcode then i.second else i.first) = some .accumulator
  | _ => true

/-- An opcode, with a register field of the byte after it, stands for the operation in its form and
agrees with the instruction. -/
def fits (i : Instruction) (opcode : UInt8) (reg : Fin 8) : Bool :=
  let d := (lookup opcode).resolve (ModRm.toByte ⟨.register, reg, 0⟩)
  d.op = i.op ∧ d.form = i.form ∧ i.agrees opcode reg

/-- The bytes of an instruction for a given opcode, register field and meaningless byte. -/
def encoding (i : Instruction) (opcode : UInt8) (reg : Fin 8) (pad : UInt8) : List UInt8 :=
  i.modifierBytes ++ opcode :: i.fieldBytes opcode reg pad

/-- The bytes encode the instruction, with an opcode that fits it. -/
def IsEncoding (i : Instruction) (bytes : List UInt8) : Prop :=
  ∃ opcode reg pad, i.fits opcode reg ∧ bytes = i.encoding opcode reg pad

/-- The bytes of an instruction with the first opcode and register field that fit it. -/
def encode? (i : Instruction) (pad : UInt8) : Option (List UInt8) :=
  let choices := (List.finRange 256).flatMap fun n =>
    (List.finRange 8).map fun reg => (UInt8.ofFin n, reg)
  (choices.find? fun c => i.fits c.1 c.2).map fun c => i.encoding c.1 c.2 pad

end Instruction

/-- The bytes of all instructions in order. -/
def Program.encode? (p : Program) (pad : UInt8) : Option (List UInt8) :=
  (p.instructions.toList.mapM (Instruction.encode? · pad)).map List.flatten

section Operands

variable {w : Width} {bs : List UInt8} {m : ModRm} {x : Operand} {s : Option SegmentRegister}
variable {n : UInt16}

/-- What is read after a mod-r/m byte is such an operand. -/
lemma OperandBytes.rmOperand (h : OperandBytes w m bs x) : RmOperand w x := by
  cases h with
  | register reg rm => exact .register _ (Register.width_ofField w rm)
  | plain reg hrm => exact .based _ 0 none fun _ => by decide +kernel
  | direct reg high hs => exact .direct _ _ (by rwa [lowByte_wordOfBytes])
  | byte reg rm hs => exact .based _ _ _ (by rwa [lowByte_signExtend])
  | word reg rm high hs =>
    exact .based _ _ _ (by rwa [UInt16.toUInt16_toInt16, lowByte_wordOfBytes])

/-- An override stands before a displacement only if its low byte needs one, and then it does. -/
lemma override?_of_inlineSegment (hs : s = none → override? (lowByte n) = none)
    (h : inlineSegment s n = none) : override? (lowByte n) = none := by
  unfold inlineSegment at h
  split at h
  · assumption
  · exact hs h

/-- The encoded operand reads as the operand with the overrides that its displacement needs. -/
theorem RmOperand.rmBytes (hx : RmOperand w x) (reg : Fin 8) :
    RmBytes w (x.rmBytes reg) x.inlined reg := by
  cases hx with
  | register r hr =>
    subst hr
    have h := RmBytes.mk _ (OperandBytes.register (w := r.width) reg r.field)
    rwa [Register.ofField_field] at h
  | direct address s hs =>
    have h := RmBytes.mk _ (OperandBytes.direct (w := w) reg (highByte address)
      (override?_of_inlineSegment hs))
    rwa [wordOfBytes_bytes] at h
  | based base d s hs =>
    simp only [Operand.rmBytes, Operand.inlined]
    split
    · next hd =>
      obtain ⟨rfl, hb⟩ := hd
      have hrm : base.field ≠ 6 := by
        cases base <;> first | decide | exact (hb rfl).elim
      have h := RmBytes.mk _ (OperandBytes.plain (w := w) reg hrm)
      have hn : inlineSegment s 0 = none := if_pos (by decide +kernel)
      rw [AddressBase.ofField_field] at h
      rwa [show (0 : Int16).toUInt16 = 0 from rfl, hn]
    split
    · next hd =>
      have h := RmBytes.mk _ (OperandBytes.byte (w := w) reg base.field
        (override?_of_inlineSegment hs))
      rwa [AddressBase.ofField_field, signExtend_lowByte hd] at h
    · have h := RmBytes.mk _ (OperandBytes.word (w := w) reg base.field
        (highByte d.toUInt16) (override?_of_inlineSegment hs))
      rwa [AddressBase.ofField_field, wordOfBytes_bytes, Int16.toInt16_toUInt16] at h

end Operands

end I8086
