/-!
# Status flags

The nine named bits of the flags word. The remaining seven bits carry no meaning but are stored and
copied with the others. Main statement: `Flags.contains_set`, setting a flag is seen by a test of the
same flag and by no other test.
-/

namespace I8086

/-- The named flags. -/
inductive Flag where
  | carry
  | parity
  | auxiliary
  | zero
  | sign
  | trap
  | interrupt
  | direction
  | overflow
  deriving DecidableEq, Inhabited

namespace Flag

/-- Every named flag, most significant first. -/
def all : List Flag :=
  [.overflow, .direction, .interrupt, .trap, .sign, .zero, .auxiliary, .parity, .carry]

/-- The bit of the flags word that holds this flag. -/
def bit : Flag → UInt16
  | .carry => 0x0001
  | .parity => 0x0004
  | .auxiliary => 0x0010
  | .zero => 0x0040
  | .sign => 0x0080
  | .trap => 0x0100
  | .interrupt => 0x0200
  | .direction => 0x0400
  | .overflow => 0x0800

/-- The number of that bit. -/
def position : Flag → Nat
  | .carry => 0
  | .parity => 2
  | .auxiliary => 4
  | .zero => 6
  | .sign => 7
  | .trap => 8
  | .interrupt => 9
  | .direction => 10
  | .overflow => 11

theorem toNat_bit (x : Flag) : x.bit.toNat = 1 <<< x.position := by
  cases x <;> rfl

theorem position_lt (x : Flag) : x.position < 16 := by
  cases x <;> decide

theorem position_inj {x y : Flag} : x.position = y.position ↔ x = y := by
  cases x <;> cases y <;> decide

/-- The customary two-letter name. -/
def name : Flag → String
  | .carry => "CF"
  | .parity => "PF"
  | .auxiliary => "AF"
  | .zero => "ZF"
  | .sign => "SF"
  | .trap => "TF"
  | .interrupt => "IF"
  | .direction => "DF"
  | .overflow => "OF"

/-- The flag with a given two-letter name. -/
def ofName? (s : String) : Option Flag :=
  all.find? (·.name == s)

end Flag

/-- The flags word. -/
structure Flags where
  /-- All sixteen bits, the unnamed ones included. -/
  bits : UInt16
  deriving DecidableEq, Inhabited

namespace Flags

/-- Whether a flag is set. -/
def contains (f : Flags) (x : Flag) : Bool :=
  f.bits &&& x.bit != 0

/-- The flags word with one flag set or cleared. -/
def set (f : Flags) (x : Flag) (value : Bool) : Flags :=
  if value then ⟨f.bits ||| x.bit⟩ else ⟨f.bits &&& ~~~x.bit⟩

/-- The flags that are set, most significant first. -/
def toList (f : Flags) : List Flag :=
  Flag.all.filter f.contains

/-- The names of the set flags, separated by spaces. -/
def text (f : Flags) : String :=
  " ".intercalate (f.toList.map Flag.name)

/-- The line that reports the set flags. -/
def line (f : Flags) : String :=
  f.toList.foldl (fun acc x => acc ++ " " ++ x.name) "flags:"

/-- A flag is set when the bit at its position is. -/
theorem contains_eq_testBit (f : Flags) (x : Flag) :
    f.contains x = f.bits.toNat.testBit x.position := by
  have hbit : ∀ i, (f.bits &&& x.bit).toNat.testBit i =
      (f.bits.toNat.testBit i && decide (x.position = i)) := by
    intro i
    rw [UInt16.toNat_and, Flag.toNat_bit, Nat.one_shiftLeft, Nat.testBit_and, Nat.testBit_two_pow]
  cases hb : f.bits.toNat.testBit x.position with
  | false =>
    have hz : f.bits &&& x.bit = 0 := by
      apply UInt16.toNat_inj.1
      apply Nat.eq_of_testBit_eq
      intro i
      rw [hbit]
      by_cases h : x.position = i
      · simp [← h, hb]
      · simp [h]
    simp [Flags.contains, hz]
  | true =>
    have hz : f.bits &&& x.bit ≠ 0 := by
      intro hz
      have h := hbit x.position
      rw [hz, hb] at h
      simp at h
    simp [Flags.contains, hz]

/-- Setting a flag writes the bit at its position and no other. -/
theorem testBit_set (f : Flags) (x : Flag) (value : Bool) (i : Nat) (hi : i < 16) :
    (f.set x value).bits.toNat.testBit i =
      if i = x.position then value else f.bits.toNat.testBit i := by
  cases value with
  | true =>
    simp only [Flags.set, ↓reduceIte, UInt16.toNat_or, Flag.toNat_bit, Nat.one_shiftLeft,
      Nat.testBit_or, Nat.testBit_two_pow]
    by_cases h : i = x.position
    · simp [h]
    · simp [h, Ne.symm h]
  | false =>
    have hn : (~~~x.bit).toNat = 2 ^ 16 - (2 ^ x.position + 1) := by
      rw [UInt16.toNat_not, Flag.toNat_bit, Nat.one_shiftLeft]
      simp [UInt16.size]
    have hlt : 2 ^ x.position < 2 ^ 16 := Nat.pow_lt_pow_right (by decide) x.position_lt
    simp only [Flags.set, Bool.false_eq_true, ↓reduceIte, UInt16.toNat_and, hn, Nat.testBit_and,
      Nat.testBit_two_pow_sub_succ hlt, Nat.testBit_two_pow]
    by_cases h : i = x.position
    · simp [h]
    · simp [h, hi, Ne.symm h]

/-- A test sees the last value of its own flag. -/
theorem contains_set (f : Flags) (x y : Flag) (value : Bool) :
    (f.set x value).contains y = if y = x then value else f.contains y := by
  rw [contains_eq_testBit, testBit_set _ _ _ _ y.position_lt, contains_eq_testBit]
  simp only [Flag.position_inj]

end Flags

end I8086
