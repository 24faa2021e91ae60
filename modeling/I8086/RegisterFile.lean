import I8086.Register
import I8086.Flags

/-!
# The register file

Eight general cells, four segment words and the flags word. A register is read and written through
its slot: a byte register is one half of a cell, read zero-extended, and writing it leaves the other
half alone.
-/

namespace I8086

/-- The registers of the machine. -/
structure RegisterFile where
  /-- The general cells in field order: ax, cx, dx, bx, sp, bp, si, di. -/
  cells : Vector UInt16 8 := Vector.replicate 8 0
  /-- The segment words in field order: es, cs, ss, ds. -/
  segments : Vector UInt16 4 := Vector.replicate 4 0
  /-- The flags word. -/
  flags : Flags := ⟨0⟩
  deriving DecidableEq, Inhabited

namespace RegisterFile

/-- The value in a slot, zero-extended. -/
def readSlot (r : RegisterFile) : Slot → UInt16
  | .low cell => r.cells[cell] &&& 0x00FF
  | .high cell => r.cells[cell] >>> (8 : UInt16)
  | .word cell => r.cells[cell]

/-- The file with a new value in a slot; a byte slot takes the low byte of the value. -/
def writeSlot (r : RegisterFile) (slot : Slot) (value : UInt16) : RegisterFile :=
  match slot with
  | .low cell =>
    { r with cells := r.cells.set cell ((r.cells[cell] &&& 0xFF00) ||| (value &&& 0x00FF)) }
  | .high cell =>
    { r with cells := r.cells.set cell ((r.cells[cell] &&& 0x00FF) ||| (value <<< (8 : UInt16))) }
  | .word cell => { r with cells := r.cells.set cell value }

/-- The value of a general register. -/
def read (r : RegisterFile) (x : Register) : UInt16 :=
  r.readSlot x.slot

/-- The file with a general register written. -/
def write (r : RegisterFile) (x : Register) (value : UInt16) : RegisterFile :=
  r.writeSlot x.slot value

/-- The value of a segment register. -/
def readSegment (r : RegisterFile) (s : SegmentRegister) : UInt16 :=
  r.segments[s.field]

/-- The file with a segment register written. -/
def writeSegment (r : RegisterFile) (s : SegmentRegister) (value : UInt16) : RegisterFile :=
  { r with segments := r.segments.set s.field value }

/-- Whether a flag is set. -/
def testFlag (r : RegisterFile) (x : Flag) : Bool :=
  r.flags.contains x

/-- The file with one flag set or cleared. -/
def setFlag (r : RegisterFile) (x : Flag) (value : Bool) : RegisterFile :=
  { r with flags := r.flags.set x value }

/-- The file with the whole flags word replaced, unnamed bits included. -/
def replaceFlags (r : RegisterFile) (flags : Flags) : RegisterFile :=
  { r with flags := flags }

end RegisterFile

end I8086
