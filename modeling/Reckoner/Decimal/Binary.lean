import Reckoner.Decimal.Rounding

/-!
# Binary fractions of double precision

Two parts of the calculator look at numbers through the 64-bit binary format: square roots are
taken there, and a settings file may write an integer as a fraction such as `12.0`. A finite
number of the format is `± mantissa × 2 ^ exponent` with a mantissa of at most 53 bits; this module
holds the non-negative ones as such pairs and computes with naturals only, so every step is exact
up to the one rounding it names.
-/

namespace Reckoner

-- Powers are those of the core library, also where an algebra library is imported.
attribute [local instance (high)] instPowNat

/-- **A non-negative binary fraction**: `mantissa × 2 ^ exponent`. -/
structure Binary where
  /-- The significant bits, read as a natural number. -/
  mantissa : Nat
  /-- The power of two the mantissa is multiplied with. -/
  exponent : Int
deriving DecidableEq

/-- **The integer square root**: the largest number whose square is not above `n`. -/
def squareRoot (n : Nat) : Nat :=
  if n = 0 then 0
  else
    let r := 2 * squareRoot (n / 4)
    if (r + 1) * (r + 1) ≤ n then r + 1 else r
termination_by n

namespace Binary

/-- The number of bits of a mantissa. -/
def mantissaBits : Nat := 53

/-- The smallest exponent of the format: numbers below `2 ^ -1022` have fewer bits. -/
def minExponent : Int := -1074

/-- Whether a number of this many times a power of two lies beyond the format. -/
def overflows (x : Binary) : Bool := decide (1024 < (x.mantissa.log2 : Int) + 1 + x.exponent) &&
  x.mantissa != 0

/-- **The fraction nearest to `n / d`**, a tie going to the even mantissa; nothing if it lies beyond
the format. -/
def ofQuotient? (n d : Nat) : Option Binary :=
  if n = 0 then some ⟨0, 0⟩
  else
    -- `n / d` lies between `2 ^ (gap - 1)` and `2 ^ (gap + 1)`
    let gap : Int := (n.log2 : Int) - d.log2
    let reaches := decide (d * 2 ^ gap.toNat ≤ n * 2 ^ (-gap).toNat)
    let top := if reaches then gap else gap - 1
    let exponent := max (top - mantissaBits + 1) minExponent
    let mantissa := roundQuotient .halfEven false (n * 2 ^ (-exponent).toNat) (d * 2 ^ exponent.toNat)
    let x : Binary := ⟨mantissa, exponent⟩
    if x.overflows then none else some x

/-- **The fraction nearest to the absolute value of a decimal.** Outside the powers of ten that the
format reaches, the answer does not depend on the digits. -/
def ofScaled? (x : Scaled) : Option Binary :=
  if x.isZero || decide (x.adjusted < -400) then some ⟨0, 0⟩
  else if 400 < x.adjusted then none
  else ofQuotient? (appendZeros x.coefficient x.exponent.toNat) (10 ^ (-x.exponent).toNat)

/-- **The square root**, rounded to the nearest fraction. The radicand is scaled by an even power of
two until its integer root has all the bits of a mantissa; the root of an integer is never exactly
between two integers, so there are no ties. -/
def sqrt (x : Binary) : Binary :=
  if x.mantissa = 0 then ⟨0, 0⟩
  else
    let bits : Int := x.mantissa.log2 + 1
    let wanted : Int := 2 * mantissaBits - bits
    let shift := if (x.exponent - wanted) % 2 = 0 then wanted else wanted - 1
    let radicand := x.mantissa * 2 ^ shift.toNat
    let root := squareRoot radicand
    ⟨if root < radicand - root * root then root + 1 else root, (x.exponent - shift) / 2⟩

/-- The fraction with its even factors moved into the exponent, as far as that stays negative. -/
def reduce (x : Binary) : Binary :=
  if x.exponent < 0 ∧ x.mantissa ≠ 0 ∧ x.mantissa % 2 = 0 then reduce ⟨x.mantissa / 2, x.exponent + 1⟩
  else if x.mantissa = 0 then ⟨0, 0⟩
  else x
termination_by x.mantissa
decreasing_by omega

/-- **The exact decimal expansion**, with as few places as it needs. -/
def toScaled (x : Binary) : Scaled :=
  let y := x.reduce
  if 0 ≤ y.exponent then ⟨false, y.mantissa * 2 ^ y.exponent.toNat, 0⟩
  else ⟨false, y.mantissa * 5 ^ (-y.exponent).toNat, y.exponent⟩

/-- The value as a natural number, if it is one. -/
def toNat? (x : Binary) : Option Nat :=
  let y := x.reduce
  if 0 ≤ y.exponent then some (y.mantissa * 2 ^ y.exponent.toNat) else none

end Binary

end Reckoner
