import I8086.Execution
import I8086.Listing
import I8086.Text.Hex

/-!
# Reports on registers and runs

The dump of a register file, one register a line with four hexadecimal digits and the flags last,
and the text of a trace, one line for each entry that belongs to the program.
-/

namespace I8086

/-- The word registers in the order of the dump. -/
def dumpOrder : List Register :=
  [.ax, .bx, .cx, .dx, .sp, .bp, .si, .di]

namespace RegisterFile

/-- The lines of the dump before the flags. -/
def wordLines (r : RegisterFile) : List String :=
  dumpOrder.map (fun x => s!"{x.name} -> {Hex.lower 4 (r.read x).toNat}") ++
    SegmentRegister.all.map fun s => s!"{s.name} -> {Hex.lower 4 (r.readSegment s).toNat}"

/-- The dump. -/
def dump (r : RegisterFile) : String :=
  String.join (r.wordLines.map (· ++ "\n")) ++ r.flags.line

end RegisterFile

/-- The line of a trace entry, if the program has an instruction at its index. -/
def Program.traceLine? (p : Program) (e : TraceEntry) : Option String :=
  p.instructions[e.index]?.map fun i => s!"{i.text p.labels e.index} ; {e.flags.line}\n"

/-- The text of a trace. -/
def Program.traceText (p : Program) (t : Trace) : String :=
  String.join (t.entries.toList.filterMap p.traceLine?)

end I8086
