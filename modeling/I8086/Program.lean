import I8086.Instruction
import I8086.LabelTable

/-!
# Programs

A program is a sequence of instructions and the table of the targets that its branches name.
-/

namespace I8086

/-- A program. -/
structure Program where
  /-- The instructions in order. -/
  instructions : Array Instruction := #[]
  /-- The targets of the branches. -/
  labels : LabelTable := .empty
  deriving Inhabited

/-- The number of instructions. -/
def Program.size (p : Program) : Nat :=
  p.instructions.size

end I8086
