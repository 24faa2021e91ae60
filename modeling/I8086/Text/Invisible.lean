import I8086.Text.CombiningMark
import I8086.Text.Unassigned

/-!
# Invisible characters

The characters that show nothing of their own: controls, formats, separators other than the space,
private and unassigned code points, fillers, and marks that combine with the character before them.
-/

namespace I8086.Invisible

/-- Controls, formats, separators other than the space, and code points for private use. -/
def controls : Ranges :=
  [(0x0, 0x1F), (0x7F, 0xA0), (0xAD, 0xAD), (0x600, 0x605), (0x61C, 0x61C), (0x6DD, 0x6DD),
   (0x70F, 0x70F), (0x890, 0x891), (0x8E2, 0x8E2), (0x1680, 0x1680), (0x180E, 0x180E),
   (0x2000, 0x200F), (0x2028, 0x202F), (0x205F, 0x2064), (0x2066, 0x206F), (0x3000, 0x3000),
   (0xE000, 0xF8FF), (0xFEFF, 0xFEFF), (0xFFF9, 0xFFFB), (0x110BD, 0x110BD), (0x110CD, 0x110CD),
   (0x13430, 0x1343F), (0x1BCA0, 0x1BCA3), (0x1D173, 0x1D17A), (0xE0001, 0xE0001),
   (0xE0020, 0xE007F), (0xF0000, 0xFFFFD), (0x100000, 0x10FFFD)]

/-- The letters that stand for nothing: places to fill in a syllable. -/
def fillers : Ranges :=
  [(0x115F, 0x1160), (0x3164, 0x3164), (0xFFA0, 0xFFA0)]

/-- Whether a code point shows nothing of its own. -/
def contains (n : Nat) : Bool :=
  controls.contains n || fillers.contains n || CombiningMark.ranges.contains n ||
    Unassigned.ranges.contains n

end I8086.Invisible
