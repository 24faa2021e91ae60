import I8086.Flags
import I8086.Register

/-!
# Arithmetic

Addition and subtraction of bytes and words, with the six status flags that they set. Operands are
taken to be no larger than the operation width, and so is the value that comes out.
-/

namespace I8086

/-- The bits that an operation of this width works on. -/
def Width.mask : Width → UInt16
  | .byte => 0x00FF
  | .word => 0xFFFF

/-- The most significant of those bits. -/
def Width.signBit : Width → UInt16
  | .byte => 0x0080
  | .word => 0x8000

/-- The outcome of an arithmetic operation. -/
structure Arithmetic where
  /-- The value within the operation width. -/
  value : UInt16
  /-- A carry out of the operation width, or a borrow into it. -/
  carry : Bool
  /-- The value has the wrong sign. -/
  overflow : Bool
  /-- A carry out of the lowest four bits, or a borrow into them. -/
  auxiliary : Bool
  deriving DecidableEq, Inhabited

namespace Arithmetic

/-- The sum. It overflows if both operands differ from it in sign. -/
def add (w : Width) (a b : UInt16) : Arithmetic :=
  let value := (a + b) &&& w.mask
  { value := value
    carry := w.mask.toNat < a.toNat + b.toNat
    overflow := (a ^^^ value) &&& (b ^^^ value) &&& w.signBit != 0
    auxiliary := 0xF < (a &&& 0xF) + (b &&& 0xF) }

/-- The difference. It overflows if the operands differ in sign and it differs from the first. -/
def sub (w : Width) (a b : UInt16) : Arithmetic :=
  let value := (a - b) &&& w.mask
  { value := value
    carry := a < b
    overflow := (a ^^^ b) &&& (a ^^^ value) &&& w.signBit != 0
    auxiliary := (a &&& 0xF) < (b &&& 0xF) }

/-- Whether the low byte of a value has an even number of set bits. -/
def evenParity (value : UInt16) : Bool :=
  (List.range 8).countP value.toNat.testBit % 2 == 0

/-- The flags after the operation; flags that say nothing about it stay. -/
def flags (x : Arithmetic) (w : Width) (old : Flags) : Flags :=
  old.set .zero (x.value == 0)
    |>.set .sign (x.value &&& w.signBit != 0)
    |>.set .parity (evenParity x.value)
    |>.set .carry x.carry
    |>.set .overflow x.overflow
    |>.set .auxiliary x.auxiliary

end Arithmetic

end I8086
