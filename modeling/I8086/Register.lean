/-!
# Registers

The operand sizes, the sixteen general registers and the four segment registers, with the field
values that select them in an instruction and the names that stand for them in text. A general
register is a half or the whole of one of eight sixteen-bit cells; `Register.slot` says which.
Main statements: `Register.ofField_field` and `SegmentRegister.ofField_field`, a register is the one
its own field selects.
-/

namespace I8086

/-- The low two bits of a number. -/
def lowBits2 (n : Nat) : Fin 4 :=
  ⟨n % 4, Nat.mod_lt _ (by decide)⟩

/-- The low three bits of a number. -/
def lowBits3 (n : Nat) : Fin 8 :=
  ⟨n % 8, Nat.mod_lt _ (by decide)⟩

/-- The size of an operation. -/
inductive Width where
  | byte
  | word
  deriving DecidableEq, Inhabited

/-- A set width bit selects the word. -/
def Width.ofBit : Bool → Width
  | false => .byte
  | true => .word

/-- The width bit that selects this width. -/
def Width.bit : Width → Bool
  | .byte => false
  | .word => true

@[simp] theorem Width.bit_ofBit (b : Bool) : (ofBit b).bit = b := by cases b <;> rfl

/-- The general registers: low bytes, high bytes, then words. -/
inductive Register where
  | al | cl | dl | bl
  | ah | ch | dh | bh
  | ax | cx | dx | bx
  | sp | bp | si | di
  deriving DecidableEq, Inhabited

namespace Register

/-- Every general register, byte registers first, each group in field order. -/
def all : List Register :=
  [.al, .cl, .dl, .bl, .ah, .ch, .dh, .bh, .ax, .cx, .dx, .bx, .sp, .bp, .si, .di]

/-- The register that a three-bit field selects at a given width. -/
def ofField : Width → Fin 8 → Register
  | .byte, 0 => .al
  | .byte, 1 => .cl
  | .byte, 2 => .dl
  | .byte, 3 => .bl
  | .byte, 4 => .ah
  | .byte, 5 => .ch
  | .byte, 6 => .dh
  | .byte, 7 => .bh
  | .word, 0 => .ax
  | .word, 1 => .cx
  | .word, 2 => .dx
  | .word, 3 => .bx
  | .word, 4 => .sp
  | .word, 5 => .bp
  | .word, 6 => .si
  | .word, 7 => .di

/-- The accumulator of a given width. -/
def accumulator : Width → Register
  | .byte => .al
  | .word => .ax

/-- The three-bit field that selects this register. -/
def field : Register → Fin 8
  | .al | .ax => lowBits3 0
  | .cl | .cx => lowBits3 1
  | .dl | .dx => lowBits3 2
  | .bl | .bx => lowBits3 3
  | .ah | .sp => lowBits3 4
  | .ch | .bp => lowBits3 5
  | .dh | .si => lowBits3 6
  | .bh | .di => lowBits3 7

/-- The size of what this register holds. -/
def width : Register → Width
  | .al | .cl | .dl | .bl | .ah | .ch | .dh | .bh => .byte
  | .ax | .cx | .dx | .bx | .sp | .bp | .si | .di => .word

/-- The name in assembly text. -/
def name : Register → String
  | .al => "al"
  | .cl => "cl"
  | .dl => "dl"
  | .bl => "bl"
  | .ah => "ah"
  | .ch => "ch"
  | .dh => "dh"
  | .bh => "bh"
  | .ax => "ax"
  | .cx => "cx"
  | .dx => "dx"
  | .bx => "bx"
  | .sp => "sp"
  | .bp => "bp"
  | .si => "si"
  | .di => "di"

/-- The identifier in saved data and log lines. -/
def id : Register → String
  | .al => "AL"
  | .cl => "CL"
  | .dl => "DL"
  | .bl => "BL"
  | .ah => "AH"
  | .ch => "CH"
  | .dh => "DH"
  | .bh => "BH"
  | .ax => "AX"
  | .cx => "CX"
  | .dx => "DX"
  | .bx => "BX"
  | .sp => "SP"
  | .bp => "BP"
  | .si => "SI"
  | .di => "DI"

/-- The register with a given identifier. -/
def ofId? (s : String) : Option Register :=
  all.find? (·.id == s)

/-- The register with a given assembly name. -/
def ofName? (s : String) : Option Register :=
  all.find? (·.name == s)

@[simp] theorem ofField_field (r : Register) : ofField r.width r.field = r := by
  cases r <;> rfl

@[simp] theorem width_ofField (w : Width) (f : Fin 8) : (ofField w f).width = w := by
  cases w <;> revert f <;> decide

@[simp] theorem width_accumulator (w : Width) : (accumulator w).width = w := by
  cases w <;> rfl

end Register

/-- The part of a cell that a register names. -/
inductive Slot where
  /-- The low byte of a cell. -/
  | low (cell : Fin 8)
  /-- The high byte of a cell. -/
  | high (cell : Fin 8)
  /-- A whole cell. -/
  | word (cell : Fin 8)
  deriving DecidableEq

/-- Where a register lives: the byte registers share the first four cells. -/
def Register.slot : Register → Slot
  | .al => .low (lowBits3 0)
  | .cl => .low (lowBits3 1)
  | .dl => .low (lowBits3 2)
  | .bl => .low (lowBits3 3)
  | .ah => .high (lowBits3 0)
  | .ch => .high (lowBits3 1)
  | .dh => .high (lowBits3 2)
  | .bh => .high (lowBits3 3)
  | .ax => .word (lowBits3 0)
  | .cx => .word (lowBits3 1)
  | .dx => .word (lowBits3 2)
  | .bx => .word (lowBits3 3)
  | .sp => .word (lowBits3 4)
  | .bp => .word (lowBits3 5)
  | .si => .word (lowBits3 6)
  | .di => .word (lowBits3 7)

/-- The segment registers. -/
inductive SegmentRegister where
  | es
  | cs
  | ss
  | ds
  deriving DecidableEq, Inhabited

namespace SegmentRegister

/-- Every segment register in field order. -/
def all : List SegmentRegister :=
  [.es, .cs, .ss, .ds]

/-- The segment register that a two-bit field selects. -/
def ofField : Fin 4 → SegmentRegister
  | 0 => .es
  | 1 => .cs
  | 2 => .ss
  | 3 => .ds

/-- The two-bit field that selects this segment register. -/
def field : SegmentRegister → Fin 4
  | .es => lowBits2 0
  | .cs => lowBits2 1
  | .ss => lowBits2 2
  | .ds => lowBits2 3

/-- The name in assembly text. -/
def name : SegmentRegister → String
  | .es => "es"
  | .cs => "cs"
  | .ss => "ss"
  | .ds => "ds"

/-- The identifier in saved data and log lines. -/
def id : SegmentRegister → String
  | .es => "ES"
  | .cs => "CS"
  | .ss => "SS"
  | .ds => "DS"

/-- The segment register with a given identifier. -/
def ofId? (s : String) : Option SegmentRegister :=
  all.find? (·.id == s)

/-- The segment register with a given assembly name. -/
def ofName? (s : String) : Option SegmentRegister :=
  all.find? (·.name == s)

@[simp] theorem ofField_field (s : SegmentRegister) : ofField s.field = s := by
  cases s <;> rfl

@[simp] theorem field_ofField (f : Fin 4) : (ofField f).field = f := by
  revert f; decide

end SegmentRegister

end I8086
