import I8086.Program

/-!
# Listings

The assembly text of operands, instructions and programs. A memory operand shows its size where no
other operand fixes it. A label is defined after the instruction whose index it names; labels before
the first instruction stand after the header, and labels past the last one at the end.
`Program.lines` gives the lines of a listing as data, `Program.listing` the text.
-/

namespace I8086

/-- The word that shows the size of a memory operand. -/
def Width.specifier : Width → String
  | .byte => "byte"
  | .word => "word"

/-- The name of a label. -/
def labelName (number : Nat) : String :=
  s!"label{number}"

/-- The text of an address: a base with its displacement, if that is not zero, or a number. -/
def Address.text : Address → String
  | .based base displacement =>
    let d := displacement.toInt
    if 0 < d then s!"[{base.name} + {d}]"
    else if d < 0 then s!"[{base.name} - {d.natAbs}]"
    else s!"[{base.name}]"
  | .direct address => s!"[{address.toNat}]"

/-- The text of an operand of the instruction at an index; a memory operand shows its size if
`sized`. A branch to a target that the table does not know has no number. -/
def Operand.text (labels : LabelTable) (index : Int) (w : Width) (sized : Bool) : Operand → String
  | .label offset =>
    match labels.get? (branchTarget index offset) with
    | some number => labelName number
    | none => "label?"
  | .immediate value => toString value.toInt
  | .accumulator => (Register.accumulator w).name
  | .register r => r.name
  | .segment s => s.name
  | .memory address override =>
    let size := if sized then w.specifier ++ " " else ""
    let segment := match override with
      | some s => s.name ++ ":"
      | none => ""
    size ++ segment ++ address.text
  | .far ip cs => s!"{cs.toInt}:{ip.toInt}"

namespace Instruction

/-- Whether an operand is an immediate. -/
def isImmediate : Option Operand → Bool
  | some (.immediate _) => true
  | _ => false

/-- Whether memory operands may show their size at all: the target of a transfer does not. -/
def showsSize (i : Instruction) : Bool :=
  i.op != .call && i.op != .jmp

/-- Whether the first operand shows its size: nothing else fixes it. -/
def firstSized (i : Instruction) : Bool :=
  i.showsSize && (i.second.isNone || isImmediate i.second)

/-- Whether the second operand shows its size. -/
def secondSized (i : Instruction) : Bool :=
  i.showsSize && isImmediate i.first

/-- Whether the first operand is a far target. -/
def namesFarTarget (i : Instruction) : Bool :=
  match i.first with
  | some (.far ..) => true
  | _ => false

/-- The words before the operands. -/
def head (i : Instruction) : String :=
  let m := i.modifiers
  let suffix := if m.stringOp then (match m.width with | .byte => "b" | .word => "w") else ""
  (if m.locked then "lock " else "") ++ (if m.repeated then "rep " else "") ++ i.name ++ suffix ++
    (if m.far && !i.namesFarTarget then " far" else "")

/-- The text of the instruction at an index. -/
def text (labels : LabelTable) (index : Int) (i : Instruction) : String :=
  let first := match i.first with
    | some x => " " ++ x.text labels index i.width i.firstSized
    | none => ""
  let second := match i.second with
    | some x => ", " ++ x.text labels index i.width i.secondSized
    | none => ""
  i.head ++ first ++ second

end Instruction

/-- A line of a listing. -/
inductive ListingLine where
  /-- The first line. -/
  | header
  /-- The instruction at an index. -/
  | instruction (index : Nat) (instruction : Instruction)
  /-- The definition of a label. -/
  | label (number : Nat)
  deriving DecidableEq, Inhabited

/-- The text of a line. -/
def ListingLine.text (labels : LabelTable) : ListingLine → String
  | header => "bits 16"
  | instruction index i => i.text labels index
  | label number => labelName number ++ ":"

namespace LabelTable

/-- The definitions of the labels whose target satisfies a condition, in order. -/
def definitions (l : LabelTable) (p : Int → Bool) : List ListingLine :=
  (l.toList.zipIdx.filter fun (t, _) => p t).map fun (_, n) => .label n

/-- The definition of the label at an instruction index, if there is one. -/
def definitionAt (l : LabelTable) (index : Nat) : List ListingLine :=
  ((l.get? index).map ListingLine.label).toList

end LabelTable

namespace Program

/-- The lines of the listing. -/
def lines (p : Program) : List ListingLine :=
  .header :: p.labels.definitions (· < 0) ++
    p.instructions.toList.zipIdx.flatMap (fun (i, index) =>
      .instruction index i :: p.labels.definitionAt index) ++
    p.labels.definitions ((p.size : Int) ≤ ·)

/-- The text of the listing. -/
def listing (p : Program) : String :=
  String.join (p.lines.map fun line => line.text p.labels ++ "\n")

end Program

end I8086
