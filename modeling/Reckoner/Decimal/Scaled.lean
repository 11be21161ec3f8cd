import Reckoner.Decimal.Digits

/-!
# Scaled integers

A finite decimal is a sign, a natural coefficient and a power of ten. The three are kept apart, and
nothing normalises them: `2.50` and `2.5` are equal numbers but different scaled integers, and the
sign is kept even when the coefficient is zero. That is what lets a sum show the places of its
operands, and what makes "equal in value" a relation of its own (`Scaled.compareMagnitude`) rather
than equality of the structure.

The operations of this module are exact. They neither round nor fail; the limits of a context are
applied afterwards, in `Reckoner.Decimal.Rounding`.
-/

namespace Reckoner

-- Powers are those of the core library, also where an algebra library is imported.
attribute [local instance (high)] instPowNat

/-- **A scaled integer** stands for `± coefficient × 10 ^ exponent`. -/
structure Scaled where
  /-- Whether the number carries a minus sign. A zero may carry one. -/
  negative : Bool
  /-- The digits of the number, read as a natural number. -/
  coefficient : Nat
  /-- The power of ten the coefficient is multiplied with. -/
  exponent : Int
deriving DecidableEq

namespace Scaled

/-- The natural number `n`, with exponent zero. -/
def ofNat (n : Nat) : Scaled := ⟨false, n, 0⟩

/-- The integer `n`, with exponent zero. -/
def ofInt (n : Int) : Scaled := ⟨decide (n < 0), n.natAbs, 0⟩

/-- Whether the number is zero, of either sign. -/
def isZero (x : Scaled) : Bool := x.coefficient == 0

/-- The exponent of the first digit: the number is that digit times this power of ten, and less. -/
def adjusted (x : Scaled) : Int := x.exponent + digitCount x.coefficient - 1

/-- The number with the opposite sign. -/
def negate (x : Scaled) : Scaled := { x with negative := !x.negative }

/-- The number without its sign. -/
def abs (x : Scaled) : Scaled := { x with negative := false }

/-- The number with the sign `negative`. -/
def withSign (x : Scaled) (negative : Bool) : Scaled := { x with negative }

/-- The coefficient the number has at the exponent `e`, which must not lie above its own. -/
def coefficientAt (x : Scaled) (e : Int) : Nat := appendZeros x.coefficient (x.exponent - e).toNat

/-- The signed coefficient the number has at the exponent `e`. -/
def integerAt (x : Scaled) (e : Int) : Int :=
  if x.negative then -(x.coefficientAt e : Int) else x.coefficientAt e

/-- **The exact sum**, at the smaller of the two exponents. A sum of zero is negative only if both
operands carry the minus sign. -/
def add (x y : Scaled) : Scaled :=
  let e := min x.exponent y.exponent
  let sum := x.integerAt e + y.integerAt e
  ⟨if sum = 0 then x.negative && y.negative else decide (sum < 0), sum.natAbs, e⟩

/-- **The exact product**: coefficients multiply, exponents add. -/
def mul (x y : Scaled) : Scaled :=
  ⟨x.negative != y.negative, x.coefficient * y.coefficient, x.exponent + y.exponent⟩

/-- **The exact remainder** of a division whose quotient is cut to an integer: it has the sign of
the dividend and the smaller of the two exponents. A dividend whose first digit stands lower than
that of the divisor is its own remainder, and the divisor need not be brought to its exponent. -/
def rem (x y : Scaled) : Scaled :=
  let e := min x.exponent y.exponent
  if x.isZero || decide (x.adjusted < y.adjusted) then ⟨x.negative, x.coefficientAt e, e⟩
  else ⟨x.negative, x.coefficientAt e % y.coefficientAt e, e⟩

/-- The number without zeros at the end of its coefficient, as far as the exponent stays at or
below `limit`. -/
def stripZerosTo (x : Scaled) (limit : Int) : Scaled :=
  let k := min (trailingZeros x.coefficient) (limit - x.exponent).toNat
  ⟨x.negative, x.coefficient / 10 ^ k, x.exponent + k⟩

/-- **The shortest form** of the number: no zero at the end of the coefficient, and exponent zero
for zero. -/
def reduce (x : Scaled) : Scaled :=
  if x.isZero then ⟨x.negative, 0, 0⟩
  else
    let k := trailingZeros x.coefficient
    ⟨x.negative, x.coefficient / 10 ^ k, x.exponent + k⟩

/-- **The order of the absolute values.** Where the first digits already stand at different powers
of ten these decide, so that numbers of very different size are never brought to one exponent. -/
def compareMagnitude (x y : Scaled) : Ordering :=
  if x.isZero then (if y.isZero then .eq else .lt)
  else if y.isZero then .gt
  else if x.adjusted < y.adjusted then .lt
  else if y.adjusted < x.adjusted then .gt
  else
    let e := min x.exponent y.exponent
    compare (x.coefficientAt e) (y.coefficientAt e)

/-- Whether the absolute value equals the natural number `n`. -/
def hasMagnitude (x : Scaled) (n : Nat) : Bool := x.compareMagnitude (ofNat n) == .eq

/-- Whether the absolute value is at least `n`. -/
def magnitudeAtLeast (x : Scaled) (n : Nat) : Bool := x.compareMagnitude (ofNat n) != .lt

/-- Whether the number lies below zero. Negative zero does not. -/
def isBelowZero (x : Scaled) : Bool := x.negative && !x.isZero

/-- **The absolute value as a natural number**, if it is one. -/
def toNat? (x : Scaled) : Option Nat :=
  if x.isZero then some 0
  else if 0 ≤ x.exponent then some (x.coefficient * 10 ^ x.exponent.toNat)
  else
    let k := (-x.exponent).toNat
    if trailingZeros x.coefficient < k then none else some (x.coefficient / 10 ^ k)

end Scaled

end Reckoner
