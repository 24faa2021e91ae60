import I8086.Decode
import I8086.Execution
import I8086.Log.Settings

/-!
# Log lines

The lines that decoding and running write, in order: one for each new label and each instruction of
a decoded stream and one at its end, and one for each instruction of a run. The settings let some of
them through.
-/

namespace I8086

/-- A log line. -/
structure LogLine where
  category : LogCategory
  level : LogLevel
  message : String
  deriving DecidableEq, Inhabited

/-- The text of a line. -/
def LogLine.text (l : LogLine) : String :=
  s!"[{l.category.name}] {l.message}\n"

/-- The text of the lines that the settings let through. -/
def LogSettings.text (s : LogSettings) (lines : List LogLine) : String :=
  String.join ((lines.filter fun l => s.allows l.category l.level).map LogLine.text)

/-- An optional value in full. -/
def optionDetail (detail : String) : String :=
  s!"Some({detail})"

/-- A segment override in full. -/
def overrideDetail : Option SegmentRegister → String
  | some s => optionDetail s.id
  | none => "None"

/-- Fields between braces. -/
def fieldsDetail (name : String) (fields : List (String × String)) : String :=
  name ++ " \x7b " ++ ", ".intercalate (fields.map fun (field, value) => s!"{field}: {value}") ++
    " \x7d"

/-- An operand in full. -/
def Operand.detail : Operand → String
  | .label offset => s!"Label({offset.toInt})"
  | .immediate value => s!"Immediate({value.toInt})"
  | .accumulator => "Accumulator"
  | .register r => s!"Register({r.id})"
  | .segment s => s!"SegmentRegister({s.id})"
  | .memory (.based base displacement) override =>
    fieldsDetail "EffectiveAddress"
      [("base", base.id), ("displacement", toString displacement.toInt),
       ("segment", overrideDetail override)]
  | .memory (.direct address) override =>
    fieldsDetail "DirectAccess"
      [("address", toString address.toNat), ("segment", overrideDetail override)]
  | .far ip cs =>
    fieldsDetail "FarProc" [("ip", toString ip.toInt), ("cs", toString cs.toInt)]

/-- An operand that may be missing, in full. -/
def operandDetail : Option Operand → String
  | some x => optionDetail x.detail
  | none => "None"

/-- The operands of an instruction in full. -/
def Instruction.operandsDetail (i : Instruction) : String :=
  s!"[{operandDetail i.first}, {operandDetail i.second}]"

/-- Modifiers in full. -/
def Modifiers.detail (m : Modifiers) : String :=
  fieldsDetail "InstructionFlags"
    [("wide", toString m.width.bit), ("dest", toString m.dest), ("locked", toString m.locked),
     ("repeated", toString m.repeated), ("string_op", toString m.stringOp),
     ("far", toString m.far)]

/-- The line of a decoding event. -/
def DecodeEvent.line : DecodeEvent → LogLine
  | .label number target index =>
    ⟨.decoder, .debug, s!"label{number} -> instruction {target} (from {index})"⟩
  | .instruction offset index i =>
    ⟨.decoder, .trace,
      s!"{Hex.upper 6 offset} #{index} {i.name} {i.operandsDetail} {i.modifiers.detail}"⟩
  | .finished instructions labels =>
    ⟨.decoder, .info, s!"decoded {instructions} instructions, {labels} labels"⟩

/-- The lines of a decoding pass. -/
def Decoding.lines (d : Decoding) : List LogLine :=
  d.events.toList.map DecodeEvent.line

/-- The line of an instruction that was executed or skipped. -/
def Instruction.runLine (i : Instruction) (e : TraceEntry) : LogLine :=
  match e.outcome with
  | .executed =>
    ⟨.emulator, .trace,
      s!"{i.name} {i.operandsDetail} -> flags 0x{Hex.upper 4 e.flags.bits.toNat}"⟩
  | .skipped reason => ⟨.stubs, .warn, s!"ignoring instruction {i.name}: {reason.id}"⟩

/-- The lines of a run of a program. -/
def Program.runLines (p : Program) (t : Trace) : List LogLine :=
  List.zipWith Instruction.runLine p.instructions.toList t.entries.toList

end I8086
