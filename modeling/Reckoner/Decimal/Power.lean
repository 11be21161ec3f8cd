import Reckoner.Decimal.Basic

/-!
# Integer powers

A power is computed by repeated squaring: the bits of the exponent are read from the top, each
squares the number reached so far, and a set bit multiplies it with the base once more. The
products are rounded half-even at a few digits more than the context has – the digits of the
exponent and two, and one more if the base had to be inverted first – and the last of them is
rounded to the context. The result is therefore close to the exact power, but not always the number
nearest to it.
-/

namespace Reckoner

-- Powers are those of the core library, also where an algebra library is imported.
attribute [local instance (high)] instPowNat

/-- The binary digits of a natural number, the highest first; none for zero. -/
def binaryDigits (n : Nat) : List Bool :=
  if n = 0 then [] else binaryDigits (n / 2) ++ [n % 2 == 1]
termination_by n

namespace Context

/-- The context that the products of a power with exponent `± n` are rounded in. -/
def forPower (ctx : Context) (n : Nat) (inverted : Bool) : Context :=
  ⟨ctx.precision + digitCount n + 2 + (if inverted then 1 else 0), .halfEven⟩

/-- **Repeated squaring**: `acc` is the power reached so far, `base` what a set bit multiplies it
with, and the bits are those still to come. -/
def squareAndMultiply (ctx : Context) (base : Scaled) : Scaled → List Bool → Except Signal Scaled
  | acc, [] => .ok acc
  | acc, bit :: bits => do
    let square ← ctx.round (acc.mul acc)
    let next ← if bit then ctx.round (square.mul base) else .ok square
    squareAndMultiply ctx base next bits

/-- A power of the number one: it shows as many places as the exact power has, if the context has
room for them. -/
def powerOfOne (ctx : Context) (x : Scaled) (n : Nat) (inverted : Bool) : Scaled :=
  if inverted then .ofNat 1
  else
    let places := min (ctx.precision - 1) (n * (-x.exponent).toNat)
    ⟨false, 10 ^ places, -places⟩

/-- **The power `x ^ n`**, or `1 / x ^ n` if `inverted`, for `x` and `n` not zero. -/
def powerScaled (ctx : Context) (x : Scaled) (n : Nat) (inverted : Bool) : Except Signal Scaled :=
  if !x.negative && x.hasMagnitude 1 then .ok (ctx.powerOfOne x n inverted)
  else do
    let inner := ctx.forPower n inverted
    let base ← if inverted then inner.divide (.ofNat 1) x else .ok x
    let power ← inner.squareAndMultiply base base (binaryDigits n).tail
    ctx.round (power.withSign (x.negative && n % 2 == 1))

/-- **The power of a decimal** to the integer `± n`, `n` not zero; the base is not zero where the
power is `inverted`. A power of zero is zero with exponent zero. -/
def power (ctx : Context) (x : Decimal) (n : Nat) (inverted : Bool) : Except Signal Decimal :=
  match x with
  | .finite a =>
    if a.isZero then .ok (.finite ⟨a.negative && n % 2 == 1, 0, 0⟩)
    else (ctx.powerScaled a n inverted).map .finite
  | .infinite s =>
    let negative := s && n % 2 == 1
    .ok (if inverted then .finite ⟨negative, 0, 0⟩ else .infinite negative)
  | x => ctx.propagate x x

end Context

end Reckoner
