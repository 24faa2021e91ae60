import I8086.Saved.Tagged
import I8086.Instruction

/-!
# Saved instructions

Operands are saved as variants named for their kind, and modifiers as an object of truth values. The
modifiers are also read from a list in the order of the structure; members of other names are passed
over. Instructions are only written.
-/

namespace I8086

/-- The saved form of an optional segment override. -/
def overrideToJson (s : Option SegmentRegister) : Json :=
  .option SegmentRegister.toJson s

/-- The segment override of an object: its member may be missing or null. -/
def overrideOfJson? (j : Json) : Option (Option SegmentRegister) :=
  match j.member? "segment" with
  | none | some .null => some none
  | some s => (SegmentRegister.ofJson? s).map some

namespace Operand

/-- The saved form. -/
def toJson : Operand → Json
  | .label offset => .tagged "Label" (.integer offset.toInt)
  | .immediate value => .tagged "Immediate" (.integer value.toInt)
  | .accumulator => .string "Accumulator"
  | .register r => .tagged "Register" r.toJson
  | .segment s => .tagged "SegmentRegister" s.toJson
  | .memory (.based base displacement) override =>
    .tagged "EffectiveAddress" (.object
      [("base", base.toJson), ("displacement", .integer displacement.toInt),
       ("segment", overrideToJson override)])
  | .memory (.direct address) override =>
    .tagged "DirectAccess" (.object
      [("address", .nat address.toNat), ("segment", overrideToJson override)])
  | .far ip cs =>
    .tagged "FarProc" (.object [("cs", .integer cs.toInt), ("ip", .integer ip.toInt)])

/-- The operand of a variant with content. -/
def ofTagged? (content : Json) : String → Option Operand
  | "Label" => content.int8?.map .label
  | "Immediate" => content.int16?.map .immediate
  | "Register" => (Register.ofJson? content).map .register
  | "SegmentRegister" => (SegmentRegister.ofJson? content).map .segment
  | "EffectiveAddress" => do
    let base ← AddressBase.ofJson? (← content.member? "base")
    let displacement ← (← content.member? "displacement").int16?
    return .memory (.based base displacement) (← overrideOfJson? content)
  | "DirectAccess" => do
    let address ← (← content.member? "address").uint16?
    return .memory (.direct address) (← overrideOfJson? content)
  | "FarProc" => do
    let ip ← (← content.member? "ip").int16?
    let cs ← (← content.member? "cs").int16?
    return .far ip cs
  | _ => none

/-- The operand of a saved form. -/
def ofJson? (j : Json) : Option Operand :=
  if j.tag? = some "Accumulator" then some .accumulator
  else j.tagged?.bind fun (name, content) => ofTagged? content name

end Operand

namespace Modifiers

/-- The saved form. -/
def toJson (m : Modifiers) : Json :=
  .object
    [("dest", .bool m.dest), ("far", .bool m.far), ("locked", .bool m.locked),
     ("repeated", .bool m.repeated), ("string_op", .bool m.stringOp),
     ("wide", .bool m.width.bit)]

/-- The modifiers with given truth values, in the order of the structure. -/
def ofBits? : List Bool → Option Modifiers
  | [wide, dest, locked, repeated, stringOp, far] =>
    some ⟨.ofBit wide, dest, locked, repeated, stringOp, far⟩
  | _ => none

/-- The modifiers of a saved form. -/
def ofJson? : Json → Option Modifiers
  | .list items => (items.mapM Json.bool?).bind ofBits?
  | j => do
    let names := ["wide", "dest", "locked", "repeated", "string_op", "far"]
    ofBits? (← names.mapM fun name => (j.member? name).bind Json.bool?)

end Modifiers

/-- The saved form. -/
def Instruction.toJson (i : Instruction) : Json :=
  .object
    [("category", i.form.toJson), ("flags", i.modifiers.toJson), ("name", .string i.name),
     ("op", i.op.toJson),
     ("operands", .list [.option Operand.toJson i.first, .option Operand.toJson i.second])]

end I8086
