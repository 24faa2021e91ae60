/-!
# Binary64 magnitudes

Finite non-negative binary64 numbers as an integer times a power of two, rounding of ratios to them,
and the magnitude of a decimal literal. All arithmetic is exact up to the one rounding at its end.
-/

namespace I8086

/-- The integer nearest to a quotient; a half goes to the even neighbour. -/
def roundDiv (num den : Nat) : Nat :=
  let quotient := num / den
  let twice := 2 * (num % den)
  if twice < den ∨ (twice = den ∧ quotient % 2 = 0) then quotient else quotient + 1

/-- A finite binary64 magnitude, the mantissa times two to the exponent. The mantissa has 53 bits
unless the exponent is the least one. -/
structure Binary64 where
  mantissa : Nat
  exponent : Int
  deriving DecidableEq, Inhabited

namespace Binary64

/-- The least exponent. -/
def minExponent : Int := -1074

/-- The greatest exponent. -/
def maxExponent : Int := 971

/-- Zero. -/
def zero : Binary64 := ⟨0, minExponent⟩

/-- A ratio divided by a power of two. -/
def scaleDown (num den : Nat) (e : Int) : Nat × Nat :=
  if 0 ≤ e then (num, den <<< e.toNat) else (num <<< (-e).toNat, den)

/-- The exponent that leaves a positive ratio 53 bits before the point, or the least one. -/
def ratioExponent (num den : Nat) : Int :=
  let estimate : Int := (num.log2 : Int) - den.log2 - 52
  let (n, d) := scaleDown num den estimate
  max minExponent (if n < d <<< 52 then estimate - 1 else estimate)

/-- The magnitude nearest to a ratio, a half going to the even neighbour; none past the greatest
finite magnitude. -/
def ofRatio? (num den : Nat) : Option Binary64 :=
  if num = 0 then some zero
  else
    let e := ratioExponent num den
    let (n, d) := scaleDown num den e
    let m := roundDiv n d
    let x : Binary64 := if m = 1 <<< 53 then ⟨1 <<< 52, e + 1⟩ else ⟨m, e⟩
    if x.exponent ≤ maxExponent then some x else none

/-- The numerator and denominator of a magnitude. -/
def ratio (x : Binary64) : Nat × Nat :=
  if 0 ≤ x.exponent then (x.mantissa <<< x.exponent.toNat, 1)
  else (x.mantissa, 1 <<< (-x.exponent).toNat)

/-- The rounded product. -/
def mul? (x y : Binary64) : Option Binary64 :=
  ofRatio? (x.ratio.1 * y.ratio.1) (x.ratio.2 * y.ratio.2)

/-- The rounded quotient. -/
def div? (x y : Binary64) : Option Binary64 :=
  ofRatio? (x.ratio.1 * y.ratio.2) (x.ratio.2 * y.ratio.1)

/-- The exponent of the greatest power of ten below the greatest magnitude. -/
def maxPowerOfTen : Nat := 308

/-- A magnitude times a power of ten. Each factor up to the greatest power of ten is rounded, and so
is the outcome of each step. -/
def scaleByTen? (x : Binary64) (e : Int) : Option Binary64 :=
  if e.natAbs ≤ maxPowerOfTen then do
    let power ← ofRatio? (Nat.pow 10 e.natAbs) 1
    if 0 ≤ e then x.mul? power else x.div? power
  else if x.mantissa = 0 then some x
  else if 0 ≤ e then none
  else do
    let power ← ofRatio? (Nat.pow 10 maxPowerOfTen) 1
    (← x.div? power).scaleByTen? (e + maxPowerOfTen)
termination_by e.natAbs
decreasing_by simp only [maxPowerOfTen] at *; omega

end Binary64

end I8086
