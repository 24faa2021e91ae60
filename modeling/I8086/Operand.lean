import I8086.Register

/-!
# Operands

Memory addresses and the operands of an instruction. A memory operand may name a segment register
that overrides the default one; `Operand.override?` attaches such a name to a memory operand.
-/

namespace I8086

/-- The register sums that a memory address starts from. -/
inductive AddressBase where
  | bxSi | bxDi | bpSi | bpDi
  | si | di | bp | bx
  deriving DecidableEq, Inhabited

namespace AddressBase

/-- Every base in field order. -/
def all : List AddressBase :=
  [.bxSi, .bxDi, .bpSi, .bpDi, .si, .di, .bp, .bx]

/-- The base that a three-bit field selects. -/
def ofField : Fin 8 → AddressBase
  | 0 => .bxSi
  | 1 => .bxDi
  | 2 => .bpSi
  | 3 => .bpDi
  | 4 => .si
  | 5 => .di
  | 6 => .bp
  | 7 => .bx

/-- The three-bit field that selects this base. -/
def field : AddressBase → Fin 8
  | .bxSi => lowBits3 0
  | .bxDi => lowBits3 1
  | .bpSi => lowBits3 2
  | .bpDi => lowBits3 3
  | .si => lowBits3 4
  | .di => lowBits3 5
  | .bp => lowBits3 6
  | .bx => lowBits3 7

/-- The sum in assembly text. -/
def name : AddressBase → String
  | .bxSi => "bx + si"
  | .bxDi => "bx + di"
  | .bpSi => "bp + si"
  | .bpDi => "bp + di"
  | .si => "si"
  | .di => "di"
  | .bp => "bp"
  | .bx => "bx"

/-- The identifier in saved data and log lines. -/
def id : AddressBase → String
  | .bxSi => "BxSi"
  | .bxDi => "BxDi"
  | .bpSi => "BpSi"
  | .bpDi => "BpDi"
  | .si => "Si"
  | .di => "Di"
  | .bp => "Bp"
  | .bx => "Bx"

/-- The base with a given identifier. -/
def ofId? (s : String) : Option AddressBase :=
  all.find? (·.id == s)

@[simp] theorem ofField_field (b : AddressBase) : ofField b.field = b := by
  cases b <;> rfl

end AddressBase

/-- A memory address within a segment. -/
inductive Address where
  /-- A register sum plus a signed displacement. -/
  | based (base : AddressBase) (displacement : Int16)
  /-- A fixed address. -/
  | direct (address : UInt16)
  deriving DecidableEq, Inhabited

/-- An operand of an instruction. -/
inductive Operand where
  /-- The offset of a short branch in bytes, counted from the next instruction. -/
  | label (offset : Int8)
  /-- A value in the instruction. -/
  | immediate (value : Int16)
  /-- The accumulator of the operation's width. -/
  | accumulator
  /-- A general register. -/
  | register (register : Register)
  /-- A segment register. -/
  | segment (register : SegmentRegister)
  /-- A place in memory, with a segment override if one is given. -/
  | memory (address : Address) (override : Option SegmentRegister)
  /-- A far target. -/
  | far (ip cs : Int16)
  deriving DecidableEq, Inhabited

namespace Operand

/-- Whether the operand is in memory. -/
def isMemory : Operand → Bool
  | .memory .. => true
  | _ => false

/-- A memory operand with a segment override in place of the one it had. -/
def override? (s : SegmentRegister) : Operand → Option Operand
  | .memory address _ => some (.memory address (some s))
  | _ => none

end Operand

end I8086
