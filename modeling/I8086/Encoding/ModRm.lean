import I8086.OpcodeMap
import I8086.Operand
import I8086.Encoding.Reader

/-!
# The mod-r/m byte

The byte that names a register and a second operand in a register or in memory, and the reader of
the displacement that may follow it. A segment override that stands where the first displacement byte
is expected belongs to the operand, and the displacement comes after it. Main statement:
`ModRm.ofByte_toByte`, the byte and its three fields determine each other.
-/

namespace I8086

/-- How a mod-r/m byte names its second operand. -/
inductive Mode where
  /-- Memory without a displacement, or at a fixed address. -/
  | plain
  /-- Memory with a displacement of one signed byte. -/
  | byteDisplacement
  /-- Memory with a displacement of one word. -/
  | wordDisplacement
  /-- A register. -/
  | register
  deriving DecidableEq, Inhabited

/-- The mode of a two-bit field. -/
def Mode.ofField : Fin 4 → Mode
  | 0 => .plain
  | 1 => .byteDisplacement
  | 2 => .wordDisplacement
  | 3 => .register

/-- The two-bit field of a mode. -/
def Mode.field : Mode → Fin 4
  | .plain => lowBits2 0
  | .byteDisplacement => lowBits2 1
  | .wordDisplacement => lowBits2 2
  | .register => lowBits2 3

/-- The fields of a mod-r/m byte. -/
structure ModRm where
  /-- How the second operand is named. -/
  mode : Mode
  /-- The register, or the member of an opcode group. -/
  reg : Fin 8
  /-- The second operand's register or address base. -/
  rm : Fin 8
  deriving DecidableEq, Inhabited

namespace ModRm

/-- The fields of a byte: two bits, three bits, three bits. -/
def ofByte (b : UInt8) : ModRm :=
  ⟨.ofField (lowBits2 (b.toNat / 64)), registerField b, lowBits3 b.toNat⟩

/-- The byte with given fields. -/
def toByte (m : ModRm) : UInt8 :=
  UInt8.ofNat (m.mode.field.val * 64 + m.reg.val * 8 + m.rm.val)

/-- The byte is determined by its fields. -/
@[simp] theorem toByte_ofByte (b : UInt8) : (ofByte b).toByte = b := by
  revert b
  exact forall_byte (by decide +kernel)

/-- The fields are determined by their byte. -/
@[simp] theorem ofByte_toByte (m : ModRm) : ofByte m.toByte = m := by
  have h : ∀ (f : Fin 4) (reg rm : Fin 8),
      ofByte (ModRm.toByte ⟨.ofField f, reg, rm⟩) = ⟨.ofField f, reg, rm⟩ := by
    decide +kernel
  have hm : Mode.ofField m.mode.field = m.mode := by cases m.mode <;> rfl
  simpa only [hm] using h m.mode.field m.reg m.rm

/-- Reads the first byte of a displacement with the override that may stand before it. -/
def displacementByte : Reader (Option SegmentRegister × UInt8) := do
  let b ← Reader.byte
  match override? b with
  | some s => return (some s, ← Reader.byte)
  | none => return (none, b)

/-- Reads a word displacement, low byte first, with the override that may stand before it. -/
def displacementWord : Reader (Option SegmentRegister × UInt16) := do
  let (segment, low) ← displacementByte
  let high ← Reader.byte
  return (segment, Reader.wordOfBytes low high)

/-- Reads what follows the mod-r/m byte and gives the second operand. Base number six without a
displacement stands for a fixed address. -/
def operand (m : ModRm) (w : Width) : Reader Operand :=
  match m.mode with
  | .register => return .register (.ofField w m.rm)
  | .plain =>
    if m.rm.val = 6 then do
      let (segment, address) ← displacementWord
      return .memory (.direct address) segment
    else
      return .memory (.based (.ofField m.rm) 0) none
  | .byteDisplacement => do
    let (segment, displacement) ← displacementByte
    return .memory (.based (.ofField m.rm) displacement.toInt8.toInt16) segment
  | .wordDisplacement => do
    let (segment, displacement) ← displacementWord
    return .memory (.based (.ofField m.rm) displacement.toInt16) segment

end ModRm

end I8086
