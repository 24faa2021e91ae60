import I8086.Encoding.Fields

/-!
# Items of a byte stream

A byte stream is a sequence of items: instructions, and single bytes that modify the instruction
after them. `Item.reader` reads one item; bytes that encode nothing come out as `Unsupported`.
`Pending` gathers the modifying bytes until an instruction takes them up.
-/

namespace I8086

/-- A byte that modifies the next instruction. -/
inductive ModifierByte where
  /-- Overrides the segment of the memory operand. -/
  | segment (register : SegmentRegister)
  /-- Locks the bus. -/
  | lock
  /-- Repeats a string operation. -/
  | rep
  deriving DecidableEq, Inhabited

/-- A modifying byte or an instruction. -/
inductive Item where
  | modifier (byte : ModifierByte)
  | instruction (instruction : Instruction)
  deriving DecidableEq, Inhabited

/-- An opcode without an instruction. -/
structure Unsupported where
  /-- The opcode. -/
  opcode : UInt8
  /-- The form that the opcode map gives for it. -/
  form : Form
  deriving DecidableEq, Inhabited

namespace Descriptor

/-- The modifying byte that an opcode stands for, if it is one. -/
def modifier? (d : Descriptor) (opcode : UInt8) : Option ModifierByte :=
  match d.form, d.op with
  | .segmentOverride, _ => some (.segment (.ofField (segmentField opcode)))
  | .bare, .lock => some .lock
  | .bare, .rep => some .rep
  | _, _ => none

/-- The instruction with given fields. -/
def instruction (d : Descriptor) (f : Fields) : Instruction where
  name := d.name
  op := d.op
  form := d.form
  first := f.first
  second := f.second
  modifiers := { width := f.width, stringOp := f.stringOp, far := f.far }

/-- Reads the rest of the item that an opcode starts. -/
def reader (d : Descriptor) (opcode : UInt8) : Reader (Except Unsupported Item) :=
  match d.modifier? opcode with
  | some m => return .ok (.modifier m)
  | none =>
    match d.form.fields? opcode with
    | some fields => do return .ok (.instruction (d.instruction (← fields)))
    | none => return .error ⟨opcode, d.form⟩

end Descriptor

/-- Reads one item. The second byte of a shared opcode selects the instruction and is then the first
byte of that instruction's fields. -/
def Item.reader : Reader (Except Unsupported Item) := do
  let opcode ← Reader.byte
  match lookup opcode with
  | .single d => d.reader opcode
  | .shared g => do
    let second ← Reader.byte
    (((Entry.shared g).resolve second).reader opcode).feed second

/-- Modifying bytes that wait for an instruction. -/
structure Pending where
  /-- The last segment override. -/
  segment : Option SegmentRegister := none
  /-- A lock byte was seen. -/
  locked : Bool := false
  /-- A repeat byte was seen. -/
  repeated : Bool := false
  deriving DecidableEq, Inhabited

namespace Pending

/-- One more modifying byte. -/
def add (p : Pending) : ModifierByte → Pending
  | .segment s => { p with segment := some s }
  | .lock => { p with locked := true }
  | .rep => { p with repeated := true }

/-- The instruction as the modifying bytes change it. -/
def apply (p : Pending) (i : Instruction) : Instruction :=
  let i := match p.segment with
    | some s => i.override s
    | none => i
  { i with modifiers := { i.modifiers with locked := p.locked, repeated := p.repeated } }

end Pending

end I8086
