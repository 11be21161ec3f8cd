import Reckoner.Decimal.Scaled

/-!
# Rounding and the limits of a context

There is one rounding in the whole library: that of a quotient of natural numbers to one of the
two integers around it (`roundQuotient`). What a mode decides is only which of the two, and all it
may look at is the sign, the parity of the lower integer and where the discarded part lies
relative to one half (`Discarded`). Cutting digits off a coefficient, dividing, and reading a
decimal as a binary fraction all go through it.

A `Context` fixes how many digits a result may have. Exponents are limited to
`Context.maxExponent` on both sides; below the lower limit a number loses digits instead
(`Context.tiny` is the last exponent that still exists), above the upper one the operation signals
`Signal.overflow`.
-/

namespace Reckoner

-- Powers are those of the core library, also where an algebra library is imported.
attribute [local instance (high)] instPowNat

/-! ## Conditions of decimal arithmetic -/

/-- **The conditions that decimal arithmetic may report.** Only the first three stop an operation
here; the others describe results that are delivered all the same. -/
inductive Signal where
  | overflow
  | divisionByZero
  | invalidOperation
  | underflow
  | subnormal
  | inexact
  | rounded
  | clamped
deriving DecidableEq

/-! ## Modes -/

/-- Which of the two neighbouring integers a quotient is rounded to. -/
inductive RoundingMode where
  /-- To the nearest, a tie away from zero. -/
  | halfUp
  /-- To the nearest, a tie to the even neighbour. -/
  | halfEven
  /-- To the lower one. -/
  | floor
  /-- To the upper one. -/
  | ceiling
deriving DecidableEq

/-- Where the part that rounding discards lies. -/
inductive Discarded where
  | nothing
  | belowHalf
  | half
  | aboveHalf
deriving DecidableEq

/-- The position of `remainder / divisor` relative to one half. -/
def Discarded.ofRemainder (remainder divisor : Nat) : Discarded :=
  if remainder = 0 then .nothing
  else
    match compare (2 * remainder) divisor with
    | .lt => .belowHalf
    | .eq => .half
    | .gt => .aboveHalf

/-- Whether the mode goes away from zero, given the sign of the number, whether the neighbour
nearer to zero is odd, and what is discarded. -/
def RoundingMode.goesAway (mode : RoundingMode) (negative odd : Bool) : Discarded → Bool
  | .nothing => false
  | .belowHalf =>
    match mode with
    | .halfUp | .halfEven => false
    | .floor => negative
    | .ceiling => !negative
  | .half =>
    match mode with
    | .halfUp => true
    | .halfEven => odd
    | .floor => negative
    | .ceiling => !negative
  | .aboveHalf =>
    match mode with
    | .halfUp | .halfEven => true
    | .floor => negative
    | .ceiling => !negative

/-- **A quotient rounded to an integer**, as the absolute value of a number with the given sign. -/
def roundQuotient (mode : RoundingMode) (negative : Bool) (n d : Nat) : Nat :=
  let q := n / d
  if mode.goesAway negative (q % 2 == 1) (Discarded.ofRemainder (n % d) d) then q + 1 else q

/-- **A coefficient without its last `k` digits**, rounded. A cut that takes more digits than there
are leaves less than a tenth, so no power of ten is formed for it. -/
def cutDigits (mode : RoundingMode) (negative : Bool) (n k : Nat) : Nat :=
  if k ≤ digitCount n then roundQuotient mode negative n (10 ^ k)
  else if n = 0 then 0
  else if mode.goesAway negative false .belowHalf then 1
  else 0

namespace Scaled

/-- **The number written with the exponent `e`**: zeros are appended, or digits are cut and the
number is rounded by `mode`. -/
def withExponent (x : Scaled) (mode : RoundingMode) (e : Int) : Scaled :=
  if e ≤ x.exponent then ⟨x.negative, x.coefficientAt e, e⟩
  else ⟨x.negative, cutDigits mode x.negative x.coefficient (e - x.exponent).toNat, e⟩

end Scaled

/-! ## Contexts -/

/-- **A context**: how many digits a result may have, and how it is rounded to them. -/
structure Context where
  /-- The number of significant digits. -/
  precision : Nat
  /-- How results are rounded to that many digits. -/
  mode : RoundingMode
deriving DecidableEq

namespace Context

/-- The largest exponent that the first digit of a number may have. -/
def maxExponent : Int := 999999999999999999

/-- The smallest exponent that the first digit of a number may have at full precision. -/
def minExponent : Int := -999999999999999999

/-- The largest precision there is. -/
def maxPrecision : Nat := 999999999999999999

/-- **The context of exact arithmetic**: no result in reach of memory is long enough to be
rounded. -/
def exact : Context := ⟨maxPrecision, .halfUp⟩

/-- The context of division and powers at `precision` digits: ties go away from zero. -/
def working (precision : Nat) : Context := ⟨precision, .halfUp⟩

/-- The smallest exponent of all: the last digit of the numbers closest to zero. -/
def tiny (ctx : Context) : Int := minExponent - ctx.precision + 1

/-- The number with this sign, coefficient and exponent, the coefficient having been rounded to at
most one digit more than the precision allows: rounding up a row of nines gives a power of ten,
whose last zero moves into the exponent. Signals an overflow if the first digit lies too high. -/
def settle (ctx : Context) (negative : Bool) (coefficient : Nat) (exponent : Int) :
    Except Signal Scaled :=
  let x : Scaled :=
    if ctx.precision < digitCount coefficient then ⟨negative, coefficient / 10, exponent + 1⟩
    else ⟨negative, coefficient, exponent⟩
  if !x.isZero && decide (maxExponent < x.adjusted) then .error .overflow else .ok x

/-- The exponent of the last digit that a number keeps whose first digit has the exponent
`adjusted`. -/
def lastExponent (ctx : Context) (adjusted : Int) : Int :=
  max (adjusted - ctx.precision + 1) ctx.tiny

/-- **Bring an exact number into the context**: digits beyond the precision, or below the smallest
exponent, are rounded away. A zero has only its exponent clamped. -/
def round (ctx : Context) (x : Scaled) : Except Signal Scaled :=
  if x.isZero then .ok ⟨x.negative, 0, max ctx.tiny (min x.exponent maxExponent)⟩
  else
    let last := max x.exponent (ctx.lastExponent x.adjusted)
    ctx.settle x.negative (cutDigits ctx.mode x.negative x.coefficient (last - x.exponent).toNat) last

/-- **The quotient of two numbers**, the divisor not zero, rounded once. An exact quotient is
written with the exponent nearest to the difference of the operands' exponents, any other with as
many digits as the context has. -/
def divide (ctx : Context) (x y : Scaled) : Except Signal Scaled :=
  let negative := x.negative != y.negative
  let ideal := x.exponent - y.exponent
  if x.isZero then .ok ⟨negative, 0, max ctx.tiny (min ideal maxExponent)⟩
  else
    -- the quotient of the coefficients lies between `10 ^ (gap - 1)` and `10 ^ (gap + 1)`
    let gap : Int := (digitCount x.coefficient : Int) - digitCount y.coefficient
    let top := appendZeros x.coefficient (-gap).toNat
    let bottom := appendZeros y.coefficient gap.toNat
    let adjusted := ideal + gap - (if top < bottom then 1 else 0)
    let last := ctx.lastExponent adjusted
    if adjusted + 1 < last then
      ctx.settle negative (if ctx.mode.goesAway negative false .belowHalf then 1 else 0) last
    else
      let n := appendZeros x.coefficient (ideal - last).toNat
      let d := appendZeros y.coefficient (last - ideal).toNat
      if n % d = 0 then
        (ctx.settle negative (n / d) last).map fun q => q.stripZerosTo (max ideal last)
      else
        ctx.settle negative (roundQuotient ctx.mode negative n d) last

/-- **Rounding to the exponent `e`** within the context: a result with more digits than the context
has is an invalid operation. -/
def quantize (ctx : Context) (mode : RoundingMode) (e : Int) (x : Scaled) : Except Signal Scaled :=
  if !x.isZero && decide ((ctx.precision : Int) < x.adjusted + 1 - e) then .error .invalidOperation
  else .ok (x.withExponent mode e)

end Context

end Reckoner
