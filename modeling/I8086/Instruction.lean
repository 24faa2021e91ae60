import I8086.Opcode
import I8086.Operand

/-!
# Instructions

An instruction carries its name, operation and form, up to two operands with the destination first,
and the modifiers that its opcode and the bytes before it gave it.
-/

namespace I8086

/-- What modifies an instruction besides its operands. -/
structure Modifiers where
  /-- The operation width. -/
  width : Width := .byte
  /-- The second operand is the destination. No decoded instruction is left in that order. -/
  dest : Bool := false
  /-- The bus is locked. -/
  locked : Bool := false
  /-- A string operation is repeated. -/
  repeated : Bool := false
  /-- The instruction is a string operation. -/
  stringOp : Bool := false
  /-- The operand holds a far pointer. -/
  far : Bool := false
  deriving DecidableEq, Inhabited

/-- An instruction. -/
structure Instruction where
  /-- The name in assembly text. -/
  name : String
  /-- What the instruction does. -/
  op : Mnemonic
  /-- How its bytes are laid out. -/
  form : Form := .unknown
  /-- The destination, or the only operand. -/
  first : Option Operand := none
  /-- The source. -/
  second : Option Operand := none
  /-- The modifiers. -/
  modifiers : Modifiers := {}
  deriving DecidableEq, Inhabited

namespace Instruction

/-- The operation width. -/
def width (i : Instruction) : Width :=
  i.modifiers.width

/-- The operands that are present. -/
def operands (i : Instruction) : List Operand :=
  i.first.toList ++ i.second.toList

/-- The instruction with a segment override on its first memory operand, if it has one. -/
def override (s : SegmentRegister) (i : Instruction) : Instruction :=
  match i.first.bind (Operand.override? s) with
  | some x => { i with first := some x }
  | none =>
    match i.second.bind (Operand.override? s) with
    | some x => { i with second := some x }
    | none => i

end Instruction

end I8086
