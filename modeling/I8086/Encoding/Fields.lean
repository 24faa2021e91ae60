import I8086.Encoding.ModRm
import I8086.Instruction

/-!
# Instruction fields

What the bytes of an instruction say about its operands and width, form by form. `Form.fields?` is
the reader of the bytes after the opcode; forms that stand for no instruction have none. Operands
are given with the destination first, whichever way round the bytes name them.
-/

namespace I8086

/-- What the bytes of an instruction say, its name and operation apart. -/
structure Fields where
  /-- The destination, or the only operand. -/
  first : Option Operand := none
  /-- The source. -/
  second : Option Operand := none
  /-- The operation width. -/
  width : Width := .byte
  /-- The instruction is a string operation. -/
  stringOp : Bool := false
  /-- The operand holds a far pointer. -/
  far : Bool := false
  deriving DecidableEq, Inhabited

namespace Fields

/-- The width bit of an opcode, bit 0. -/
def widthOf (opcode : UInt8) : Width :=
  .ofBit (opcode.toNat.testBit 0)

/-- The direction bit of an opcode, bit 1: the operand named second is the destination. -/
def reversed (opcode : UInt8) : Bool :=
  opcode.toNat.testBit 1

/-- The width bit of an opcode that names a register, bit 3. -/
def registerWidth (opcode : UInt8) : Width :=
  .ofBit (opcode.toNat.testBit 3)

/-- The register field of an opcode that names a register, bits 0 to 2. -/
def opcodeRegister (opcode : UInt8) : Fin 8 :=
  lowBits3 opcode.toNat

/-- Two operands in the order that the direction bit says. -/
def directed (opcode : UInt8) (x y : Operand) (w : Width) : Fields :=
  if reversed opcode then { first := some y, second := some x, width := w }
  else { first := some x, second := some y, width := w }

/-- Reads a byte immediate, sign-extended. -/
def byteImmediate : Reader Operand := do
  let b ← Reader.signedByte
  return .immediate b.toInt16

/-- Reads a word immediate. -/
def wordImmediate : Reader Operand := do
  let w ← Reader.signedWord
  return .immediate w

/-- Reads an immediate of a given width. -/
def immediate : Width → Reader Operand
  | .byte => byteImmediate
  | .word => wordImmediate

/-- Reads a mod-r/m byte and what belongs to it. -/
def rm (w : Width) : Reader (Operand × Fin 8) := do
  let m := ModRm.ofByte (← Reader.byte)
  return (← m.operand w, m.reg)

/-- A mod-r/m operand and the register of the same byte. -/
def rmRegister (opcode : UInt8) : Reader Fields := do
  let w := widthOf opcode
  let (x, reg) ← rm w
  return directed opcode x (.register (.ofField w reg)) w

/-- A mod-r/m operand and an immediate of the operation width. -/
def rmImmediate (opcode : UInt8) : Reader Fields := do
  let w := widthOf opcode
  let (x, _) ← rm w
  return { first := some x, second := some (← immediate w), width := w }

/-- A mod-r/m operand and an immediate that is one byte if the sign bit of the opcode, bit 1, is
set. -/
def rmSignedByte (opcode : UInt8) : Reader Fields := do
  let w := widthOf opcode
  let (x, _) ← rm w
  let value ← if opcode.toNat.testBit 1 then byteImmediate else immediate w
  return { first := some x, second := some value, width := w }

/-- A register named in the opcode and an immediate. -/
def registerImmediate (opcode : UInt8) : Reader Fields := do
  let w := registerWidth opcode
  let value ← immediate w
  return { first := some (.register (.ofField w (opcodeRegister opcode))), second := some value,
           width := w }

/-- A memory operand at the address that follows. -/
def direct : Reader Operand := do
  let address ← Reader.word
  return .memory (.direct address) none

/-- One mod-r/m operand. -/
def rmOnly (opcode : UInt8) : Reader Fields := do
  let w := widthOf opcode
  let (x, _) ← rm w
  return { first := some x, width := w }

/-- A mod-r/m operand and a fixed second operand. -/
def rmWith (opcode : UInt8) (y : Operand) : Reader Fields := do
  return { ← rmOnly opcode with second := some y }

/-- A word register and a mod-r/m operand. -/
def registerMemory : Reader Fields := do
  let (x, reg) ← rm .word
  return { first := some (.register (.ofField .word reg)), second := some x, width := .word }

/-- A mod-r/m operand and the segment register of the same byte. -/
def rmSegment (opcode : UInt8) : Reader Fields := do
  let (x, reg) ← rm .word
  return directed opcode x (.segment (.ofField (lowBits2 reg.val))) .word

/-- A coprocessor code, three bits from the opcode and three from the mod-r/m byte, and the mod-r/m
operand. -/
def escape (opcode : UInt8) : Reader Fields := do
  let w := widthOf opcode
  let (x, reg) ← rm w
  let code := Int16.ofNat ((opcodeRegister opcode).val + 8 * reg.val)
  return { first := some (.immediate code), second := some x, width := w }

/-- A port number, zero-extended. -/
def port : Reader Operand := do
  let b ← Reader.byte
  return .immediate b.toUInt16.toInt16

end Fields

open Fields in
/-- The reader of the bytes after an opcode. -/
def Form.fields? (opcode : UInt8) : Form → Option (Reader Fields)
  | .unknown | .shared | .segmentOverride => none
  | .bare => some (return {})
  | .string => some (return { width := widthOf opcode, stringOp := true })
  | .padded => some do
    let _ ← Reader.byte
    return {}
  | .rmRegister => some (Fields.rmRegister opcode)
  | .rmImmediate => some (Fields.rmImmediate opcode)
  | .rmSignedByte => some (Fields.rmSignedByte opcode)
  | .registerImmediate => some (Fields.registerImmediate opcode)
  | .accumulatorMemory => some do
    return { first := some .accumulator, second := some (← direct), width := widthOf opcode }
  | .memoryAccumulator => some do
    return { first := some (← direct), second := some .accumulator, width := widthOf opcode }
  | .accumulatorImmediate => some do
    let w := widthOf opcode
    return { first := some .accumulator, second := some (← immediate w), width := w }
  | .rm => some (rmOnly opcode)
  | .rmFar => some do
    return { ← rmOnly opcode with far := true }
  | .registerMemory => some Fields.registerMemory
  | .rmOne => some (rmWith opcode (.immediate 1))
  | .rmCount => some (rmWith opcode (.register .cl))
  | .rmSegment => some (Fields.rmSegment opcode)
  | .register => some do
    return { first := some (.register (.ofField .word (opcodeRegister opcode))), width := .word }
  | .segmentRegister => some do
    return { first := some (.segment (.ofField (segmentField opcode))), width := .word }
  | .accumulatorRegister => some do
    return { first := some .accumulator,
             second := some (.register (.ofField .word (opcodeRegister opcode))), width := .word }
  | .byteImmediate => some do
    return { first := some (← Fields.byteImmediate) }
  | .wordImmediate | .nearTarget => some do
    return { first := some (← Fields.wordImmediate) }
  | .farTarget => some do
    let ip ← Reader.signedWord
    let cs ← Reader.signedWord
    return { first := some (.far ip cs) }
  | .shortTarget => some do
    let offset ← Reader.signedByte
    return { first := some (.label offset) }
  | .fixedPort => some do
    return directed opcode .accumulator (← port) (widthOf opcode)
  | .variablePort => some (return directed opcode .accumulator (.register .dx) (widthOf opcode))
  | .escape => some (Fields.escape opcode)

end I8086
