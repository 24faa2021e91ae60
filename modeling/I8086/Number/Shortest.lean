import I8086.Number.Binary64

/-!
# Shortest decimals

The shortest decimal that reads back as a given binary64 magnitude. A decimal of `n` digits lies on
the grid of a power of ten; of the two grid points around the magnitude, those within its rounding
interval read back, and the nearer one is taken.
-/

namespace I8086

/-- A decimal: digits times a power of ten. -/
structure Decimal where
  digits : Nat
  exponent : Int
  deriving DecidableEq, Inhabited

namespace Decimal

/-- The decimal without zeros at its end. -/
def trim (d : Decimal) : Decimal :=
  let zeros := ((Nat.toDigits 10 d.digits).reverse.takeWhile (· == '0')).length
  if d.digits = 0 then ⟨0, 0⟩ else ⟨d.digits / Nat.pow 10 zeros, d.exponent + zeros⟩

end Decimal

namespace Binary64

/-- A ratio divided by a power of ten. -/
def scaleDownTen (num den : Nat) (e : Int) : Nat × Nat :=
  if 0 ≤ e then (num, den * Nat.pow 10 e.toNat) else (num * Nat.pow 10 (-e).toNat, den)

/-- The rounding interval in quarters of the last place: the magnitude itself and its distance from
the lower and the upper end. Below a power of two the numbers lie twice as close. -/
def interval (x : Binary64) : Nat × Nat × Nat :=
  let below := if x.mantissa = 1 <<< 52 ∧ minExponent < x.exponent then 1 else 2
  (4 * x.mantissa, below, 2)

/-- Whether a ratio, in quarters of the last place, rounds to the magnitude. The ends of the interval
do if the mantissa is even. -/
def roundsTo (x : Binary64) (num den : Nat) : Bool :=
  let (value, below, above) := x.interval
  let low := (value - below) * den
  let high := (value + above) * den
  if x.mantissa % 2 = 0 then low ≤ num ∧ num ≤ high else low < num ∧ num < high

/-- The grid point of `10 ^ e` that is nearest to the magnitude among those that round to it. -/
def nearestOnGrid? (x : Binary64) (e : Int) : Option Decimal :=
  let (num, den) := x.ratio
  let (n, d) := scaleDownTen num den e
  let floor := n / d
  let quarter := x.exponent - 2
  let inside (c : Nat) : Bool :=
    let (p, q) := scaleDownTen c 1 (-e)
    let (p, q) := scaleDown p q quarter
    x.roundsTo p q
  let twice := 2 * (n % d)
  let lowerFirst := twice < d ∨ (twice = d ∧ floor % 2 = 0)
  let (near, far) := if lowerFirst then (floor, floor + 1) else (floor + 1, floor)
  if inside near then some ⟨near, e⟩ else if inside far then some ⟨far, e⟩ else none

/-- The exponent of a power of ten that is not below the magnitude and at most a hundred times it. -/
def boundTen (x : Binary64) : Int :=
  let (num, den) := x.ratio
  if den ≤ num then (Nat.toDigits 10 (num / den)).length
  else 2 - ((Nat.toDigits 10 (den / num)).length : Int)

/-- The shortest decimal that rounds to the magnitude, and of those the nearest. -/
def shortest (x : Binary64) : Decimal :=
  if x.mantissa = 0 then ⟨0, 0⟩
  else
    let found := (List.range 19).findSome? fun (n : Nat) => x.nearestOnGrid? (x.boundTen - n)
    (found.getD ⟨x.ratio.1, 0⟩).trim

end Binary64

/-- The text of a signed magnitude. It is written out if its leading digit stands at most sixteen
places before the point or at most five after it, with a zero after the point if nothing else is;
else with an exponent and its sign. -/
def Binary64.text (negative : Bool) (x : Binary64) : String :=
  let d := x.shortest
  let digits := Nat.toDigits 10 d.digits
  let point : Int := digits.length + d.exponent
  let body :=
    if 0 ≤ d.exponent ∧ point ≤ 16 then
      String.ofList (digits ++ List.replicate d.exponent.toNat '0') ++ ".0"
    else if 0 < point ∧ point ≤ 16 then
      String.ofList (digits.take point.toNat) ++ "." ++ String.ofList (digits.drop point.toNat)
    else if -5 < point ∧ point ≤ 0 then
      "0." ++ String.ofList (List.replicate (-point).toNat '0' ++ digits)
    else
      let fraction := if digits.length = 1 then "" else "." ++ String.ofList (digits.drop 1)
      let sign := if 0 < point then "+" else ""
      s!"{String.ofList (digits.take 1)}{fraction}e{sign}{point - 1}"
  (if negative then "-" else "") ++ body

end I8086
