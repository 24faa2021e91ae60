import I8086.Arithmetic
import I8086.RegisterFile
import I8086.Program

/-!
# Execution

Moves, additions, subtractions and comparisons between registers and immediates. Every other
instruction is skipped and leaves the register file as it was. A run takes a program's instructions
in order, without following branches, and traces the outcome and the flags after each.
-/

namespace I8086

/-- Why an instruction is skipped. -/
inductive SkipReason where
  /-- The operation is not one that is executed. -/
  | opcode
  /-- An operand is missing or is neither a register nor, as a source, an immediate. -/
  | operand
  deriving DecidableEq, Inhabited

/-- The identifier in saved data and log lines. -/
def SkipReason.id : SkipReason → String
  | .opcode => "UnsupportedOpcode"
  | .operand => "UnsupportedOperand"

/-- What became of an instruction. -/
inductive Outcome where
  | executed
  | skipped (reason : SkipReason)
  deriving DecidableEq, Inhabited

/-- A place in the register file. -/
inductive Location where
  | register (register : Register)
  | segment (register : SegmentRegister)
  deriving DecidableEq, Inhabited

/-- The place in the register file that an operand names. -/
def Operand.location? (w : Width) : Operand → Option Location
  | .register r => some (.register r)
  | .accumulator => some (.register (.accumulator w))
  | .segment s => some (.segment s)
  | _ => none

namespace RegisterFile

/-- The value at a location. -/
def readLocation (r : RegisterFile) : Location → UInt16
  | .register x => r.read x
  | .segment s => r.readSegment s

/-- The file with a value at a location. -/
def writeLocation (r : RegisterFile) (l : Location) (value : UInt16) : RegisterFile :=
  match l with
  | .register x => r.write x value
  | .segment s => r.writeSegment s value

/-- The value of a source operand within the operation width. -/
def sourceValue? (r : RegisterFile) (w : Width) : Operand → Option UInt16
  | .immediate value => some (value.toUInt16 &&& w.mask)
  | x => (x.location? w).map fun l => r.readLocation l &&& w.mask

/-- Moves a value to any register. -/
def move (r : RegisterFile) (i : Instruction) : Outcome × RegisterFile :=
  match i.first.bind (Operand.location? i.width), i.second.bind (r.sourceValue? i.width) with
  | some l, some value => (.executed, r.writeLocation l value)
  | _, _ => (.skipped .operand, r)

/-- Combines a general register with a value; the result is written back if `keep`. -/
def combine (r : RegisterFile) (i : Instruction) (op : Width → UInt16 → UInt16 → Arithmetic)
    (keep : Bool) : Outcome × RegisterFile :=
  match i.first.bind (Operand.location? i.width), i.second.bind (r.sourceValue? i.width) with
  | some (.register x), some b =>
    let result := op i.width (r.read x &&& i.width.mask) b
    let r := r.replaceFlags (result.flags i.width r.flags)
    (.executed, if keep then r.write x result.value else r)
  | _, _ => (.skipped .operand, r)

/-- Executes one instruction. -/
def execute (r : RegisterFile) (i : Instruction) : Outcome × RegisterFile :=
  match i.op with
  | .mov => r.move i
  | .add => r.combine i Arithmetic.add true
  | .sub => r.combine i Arithmetic.sub true
  | .cmp => r.combine i Arithmetic.sub false
  | _ => (.skipped .opcode, r)

end RegisterFile

/-- What a run records of one instruction. -/
structure TraceEntry where
  /-- The index of the instruction. -/
  index : Nat
  /-- What became of it. -/
  outcome : Outcome
  /-- The flags after it. -/
  flags : Flags
  deriving DecidableEq, Inhabited

/-- The record of a run. -/
structure Trace where
  /-- One entry for each instruction, in order. -/
  entries : Array TraceEntry := #[]
  deriving DecidableEq, Inhabited

namespace Trace

/-- The number of executed instructions. -/
def executed (t : Trace) : Nat :=
  t.entries.countP fun e => e.outcome = .executed

/-- The number of skipped instructions. -/
def skipped (t : Trace) : Nat :=
  t.entries.size - t.executed

end Trace

/-- The state of a run between two instructions. -/
structure Run where
  /-- The registers. -/
  registers : RegisterFile
  /-- The record so far. -/
  trace : Trace := {}
  deriving DecidableEq, Inhabited

/-- Executes one more instruction. -/
def Run.step (s : Run) (i : Instruction) : Run :=
  let (outcome, registers) := s.registers.execute i
  { registers := registers
    trace := ⟨s.trace.entries.push ⟨s.trace.entries.size, outcome, registers.flags⟩⟩ }

/-- Runs instructions from a register file. -/
def RegisterFile.run (r : RegisterFile) (instructions : Array Instruction) : Run :=
  instructions.foldl Run.step { registers := r }

end I8086
