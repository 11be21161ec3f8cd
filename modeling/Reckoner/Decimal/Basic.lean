import Reckoner.Decimal.Rounding

/-!
# Decimals

A decimal is a scaled integer, an infinity or a NaN ("not a number"). The special values do not
arise from a typed line – every operation that would produce one signals instead – but a variable
may be given one from outside, and then the rules below say what comes of it: a signalling NaN
stops every operation, a quiet one is passed on, and infinities follow the usual limits.

The operations are those of a `Context`. `Context.exact` serves for sums, products and remainders,
a working context for quotients and powers.
-/

namespace Reckoner

-- Powers are those of the core library, also where an algebra library is imported.
attribute [local instance (high)] instPowNat

/-- **A decimal**: a scaled integer or one of the special values. -/
inductive Decimal where
  /-- An ordinary number. -/
  | finite (number : Scaled)
  /-- An infinity. -/
  | infinite (negative : Bool)
  /-- Not a number. A signalling one stops the next operation; the payload is a number that is
  passed on. -/
  | nan (negative signalling : Bool) (payload : Nat)
deriving DecidableEq

namespace Decimal

/-- The natural number `n`. -/
def ofNat (n : Nat) : Decimal := .finite (.ofNat n)

/-- The integer `n`. -/
def ofInt (n : Int) : Decimal := .finite (.ofInt n)

/-- The scaled integer, if the decimal is one. -/
def toScaled? : Decimal → Option Scaled
  | .finite x => some x
  | _ => none

/-- Whether the decimal is a zero, of either sign. -/
def isZero : Decimal → Bool
  | .finite x => x.isZero
  | _ => false

/-- The decimal with the opposite sign. This is no arithmetic: even a NaN changes its sign. -/
def negate : Decimal → Decimal
  | .finite x => .finite x.negate
  | .infinite s => .infinite !s
  | .nan s q p => .nan (!s) q p

/-- The decimal without its sign. This is no arithmetic either. -/
def abs : Decimal → Decimal
  | .finite x => .finite x.abs
  | .infinite _ => .infinite false
  | .nan _ q p => .nan false q p

end Decimal

namespace Context

/-- A NaN as the result of an operation: quiet, and with no more of its payload than fits. -/
def quiet (ctx : Context) (negative : Bool) (payload : Nat) : Decimal :=
  .nan negative false
    (if digitCount payload ≤ ctx.precision then payload else payload % 10 ^ ctx.precision)

/-- **The result of an operation on two decimals of which one is a NaN.** A signalling NaN is an
invalid operation; otherwise the first NaN is passed on. -/
def propagate (ctx : Context) : Decimal → Decimal → Except Signal Decimal
  | .nan _ true _, _ => .error .invalidOperation
  | _, .nan _ true _ => .error .invalidOperation
  | .nan s false p, _ => .ok (ctx.quiet s p)
  | _, .nan s false p => .ok (ctx.quiet s p)
  | _, _ => .error .invalidOperation

/-- **Addition.** Opposite infinities have no sum. -/
def add (ctx : Context) (x y : Decimal) : Except Signal Decimal :=
  match x, y with
  | .finite a, .finite b => (ctx.round (a.add b)).map .finite
  | .infinite s, .infinite t => if s = t then .ok (.infinite s) else .error .invalidOperation
  | .infinite s, .finite _ => .ok (.infinite s)
  | .finite _, .infinite s => .ok (.infinite s)
  | x, y => ctx.propagate x y

/-- **Subtraction**: the negated number is added, while a NaN keeps its sign. -/
def sub (ctx : Context) (x y : Decimal) : Except Signal Decimal :=
  match y with
  | .nan s q p => ctx.propagate x (.nan s q p)
  | y => ctx.add x y.negate

/-- **Multiplication.** Zero times an infinity is invalid. -/
def mul (ctx : Context) (x y : Decimal) : Except Signal Decimal :=
  match x, y with
  | .finite a, .finite b => (ctx.round (a.mul b)).map .finite
  | .infinite s, .infinite t => .ok (.infinite (s != t))
  | .infinite s, .finite b =>
    if b.isZero then .error .invalidOperation else .ok (.infinite (s != b.negative))
  | .finite a, .infinite t =>
    if a.isZero then .error .invalidOperation else .ok (.infinite (a.negative != t))
  | x, y => ctx.propagate x y

/-- **Remainder** of a division whose quotient is cut to an integer. It is invalid if that integer
has more digits than the context. The divisor is not zero. -/
def rem (ctx : Context) (x y : Decimal) : Except Signal Decimal :=
  match x, y with
  | .finite a, .finite b =>
    if !a.isZero && decide ((ctx.precision : Int) < a.adjusted - b.adjusted) then
      .error .invalidOperation
    else (ctx.round (a.rem b)).map .finite
  | .finite a, .infinite _ => (ctx.round a).map .finite
  | .infinite _, .finite _ => .error .invalidOperation
  | .infinite _, .infinite _ => .error .invalidOperation
  | x, y => ctx.propagate x y

/-- **Division**, the quotient in its shortest form. The divisor is not zero. -/
def quotient (ctx : Context) (x y : Decimal) : Except Signal Decimal :=
  match x, y with
  | .finite a, .finite b => (ctx.divide a b).map fun q => .finite q.reduce
  | .finite a, .infinite t => .ok (.finite ⟨a.negative != t, 0, 0⟩)
  | .infinite s, .finite b => .ok (.infinite (s != b.negative))
  | .infinite _, .infinite _ => .error .invalidOperation
  | x, y => ctx.propagate x y

/-- **Rounding to an integer** by `mode`. A NaN is passed on; an infinity has no integer near it. -/
def toInteger (ctx : Context) (mode : RoundingMode) (x : Decimal) : Except Signal Decimal :=
  match x with
  | .finite a => (ctx.quantize mode 0 a).map .finite
  | .infinite _ => .error .invalidOperation
  | x => ctx.propagate x x

end Context

end Reckoner
