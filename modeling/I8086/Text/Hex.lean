/-!
# Hexadecimal text

Numbers in base sixteen with a least number of places. Main statement: `Hex.length_padded`, a padded
numeral has at least the places asked for.
-/

namespace I8086.Hex

/-- The digits of a number, in lower case, with zeros in front up to a number of places. -/
def padded (places n : Nat) : List Char :=
  (Nat.toDigits 16 n).leftpad places '0'

/-- A padded numeral has at least the places asked for. -/
theorem length_padded (places n : Nat) : places ≤ (padded places n).length := by
  rw [padded, List.length_leftpad]
  exact Nat.le_max_left _ _

/-- A number with lower-case digits. -/
def lower (places n : Nat) : String :=
  String.ofList (padded places n)

/-- A number with upper-case digits. -/
def upper (places n : Nat) : String :=
  String.ofList ((padded places n).map Char.toUpper)

end I8086.Hex
