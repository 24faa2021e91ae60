import I8086.Encoding.Item
import I8086.Program
import I8086.Text.Hex

/-!
# Decoding

A byte stream becomes a program in one forward pass. The pass keeps the instructions so far, the
targets of their branches and the modifying bytes that wait for an instruction; such bytes at the end
of the stream are dropped. It fails at the first opcode without an instruction and where the stream
ends inside an instruction. Besides its result the pass records what it saw, in order.
-/

namespace I8086

/-- Why a byte stream is not a program. -/
inductive DecodeError where
  /-- No instruction has this opcode. -/
  | unsupported (opcode : UInt8) (form : Form) (offset index : Nat)
  /-- The stream ends inside an instruction. -/
  | endOfBytes (offset index : Nat)
  deriving DecidableEq, Inhabited

/-- The error in words. -/
def DecodeError.message : DecodeError → String
  | unsupported opcode form offset index =>
    s!"instruction not supported: opcode 0x{Hex.upper 2 opcode.toNat} ({form.id}) at offset " ++
      s!"0x{Hex.upper 4 offset}, index {index}"
  | endOfBytes offset index =>
    s!"byte stream ends inside instruction {index} at offset 0x{Hex.upper 4 offset}"

/-- What a decoding pass saw. -/
inductive DecodeEvent where
  /-- A branch names a new target. -/
  | label (number : Nat) (target : Int) (index : Nat)
  /-- An instruction is complete; the offset is that of its opcode. -/
  | instruction (offset index : Nat) (instruction : Instruction)
  /-- The stream ended between instructions. -/
  | finished (instructions labels : Nat)
  deriving DecidableEq, Inhabited

/-- The outcome of a decoding pass. -/
structure Decoding where
  /-- The program, or why there is none. -/
  result : Except DecodeError Program
  /-- What the pass saw. -/
  events : Array DecodeEvent

/-- The state of a decoding pass between two items. -/
structure Decoder where
  /-- The instructions so far. -/
  instructions : Array Instruction := #[]
  /-- The targets of their branches. -/
  labels : LabelTable := .empty
  /-- The modifying bytes since the last instruction. -/
  pending : Pending := {}
  /-- What the pass saw. -/
  events : Array DecodeEvent := #[]

namespace Decoder

/-- Notes the target of a branch. -/
def mark (s : Decoder) (target : Int) : Decoder :=
  let ⟨instructions, labels, pending, events⟩ := s
  match labels.get? target with
  | some _ => ⟨instructions, labels, pending, events⟩
  | none =>
    let event := .label labels.size target instructions.size
    ⟨instructions, labels.insert target, pending, events.push event⟩

/-- Notes the target of an instruction that branches. -/
def markBranch (s : Decoder) (i : Instruction) : Decoder :=
  match i.first with
  | some (.label offset) => s.mark (branchTarget s.instructions.size offset)
  | _ => s

/-- Adds an instruction, which takes up the modifying bytes before it. -/
def push (s : Decoder) (offset : Nat) (i : Instruction) : Decoder :=
  let ⟨instructions, labels, pending, events⟩ := s
  let i := pending.apply i
  let event := .instruction offset instructions.size i
  ⟨instructions.push i, labels, {}, events.push event⟩

/-- Takes up the item whose opcode stands at an offset. -/
def accept (s : Decoder) (offset : Nat) : Item → Decoder
  | .modifier m => { s with pending := s.pending.add m }
  | .instruction i => (s.markBranch i).push offset i

/-- The decoding of a stream that ended between instructions. -/
def finish (s : Decoder) : Decoding where
  result := .ok ⟨s.instructions, s.labels⟩
  events := s.events.push (.finished s.instructions.size s.labels.size)

/-- Decodes from a cursor on. -/
def run (s : Decoder) (c : Cursor) : Decoding :=
  if c.atEnd then s.finish
  else
    match _h : Item.reader.run c with
    | .error position => ⟨.error (.endOfBytes position s.instructions.size), s.events⟩
    | .ok (.error u, _) =>
      ⟨.error (.unsupported u.opcode u.form c.position s.instructions.size), s.events⟩
    | .ok (.ok item, d) => (s.accept c.position item).run d
termination_by c.rest.length
decreasing_by exact Reader.length_rest_lt _h

end Decoder

/-- The decoding pass over a byte stream. -/
def decoding (bytes : List UInt8) : Decoding :=
  Decoder.run {} (.ofBytes bytes)

/-- The program that a byte stream encodes. -/
def decode (bytes : List UInt8) : Except DecodeError Program :=
  (decoding bytes).result

end I8086
