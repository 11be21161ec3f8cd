import Reckoner.Expr.Row

/-!
# How many digits an evaluation writes down

No result has more than ten thousand digits before the point, but much longer numbers may have to be
written down on the way to it, or after the point. A sum has digits wherever one of its operands
has, and the operands may lie billions of places apart; a quotient is found with all digits that the
context has, also if it turns out to be short.

How many digits it takes to carry out an operation can be told beforehand (`Operator.effort` and its
neighbours). `Expr.evalWithin` evaluates like `Expr.eval`, but does not come to an end where an
operation takes more of them than there are. It never starts on such an operation.
-/

namespace Reckoner

namespace Scaled

/-- How many digits a number has where it is brought down to the exponent `e`. A zero has none that
could be moved. -/
def digitsAt (x : Scaled) (e : Int) : Nat :=
  if x.isZero then 1 else digitCount x.coefficient + (x.exponent - e).toNat

/-- The digits of two numbers that are brought to one exponent. -/
def alignedDigits (x y : Scaled) : Nat :=
  let e := min x.exponent y.exponent
  max (x.digitsAt e) (y.digitsAt e)

end Scaled

namespace Context

/-- The digits of a quotient, the divisor not zero: the dividend is extended until the quotient is
sure to have one digit more than the context. -/
def quotientEffort (ctx : Context) (x y : Scaled) : Nat :=
  if x.isZero then 0
  else max (digitCount x.coefficient) (ctx.precision + digitCount y.coefficient + 1)

/-- The digits of a remainder, the divisor not zero. Where it is invalid that is known at once, and
a dividend whose first digit stands lower than that of the divisor is left alone. -/
def remainderEffort (ctx : Context) (x y : Scaled) : Nat :=
  if x.isZero || decide ((ctx.precision : Int) < x.adjusted - y.adjusted) then 0
  else if x.adjusted < y.adjusted then x.digitsAt (min x.exponent y.exponent)
  else x.alignedDigits y

/-- The digits of the power `x ^ n`, or `1 / x ^ n` if `inverted`. They double with each square,
until they are cut to those of the inner context. -/
def powerEffort (ctx : Context) (x : Scaled) (n : Nat) (inverted : Bool) : Nat :=
  let inner := (ctx.forPower n inverted).precision
  let digits := digitCount x.coefficient
  if x.isZero || n == 0 then 0
  else if !x.negative && x.hasMagnitude 1 then (ctx.powerOfOne x n inverted).exponent.natAbs + 1
  else if inverted then max (inner + digits + 1) (2 * inner)
  else min (n * digits) (2 * max inner digits)

/-- The digits of an integer that a number is rounded to. -/
def toIntegerEffort (ctx : Context) (x : Scaled) : Nat :=
  if (ctx.precision : Int) < x.adjusted + 1 then 0 else x.digitsAt (min 0 x.exponent)

end Context

/-- **How many digits an operator takes.** Special values take none. -/
def Operator.effort (ctx : Context) (op : Operator) (x y : Decimal) : Nat :=
  match x, y with
  | .finite a, .finite b =>
    match op with
    | .add | .subtract => a.alignedDigits b
    | .multiply => digitCount a.coefficient + digitCount b.coefficient
    | .divide => if b.isZero then 0 else ctx.quotientEffort a b
    | .remainder => if b.isZero then 0 else Context.exact.remainderEffort a b
    | .power =>
      match powerExponent 0 y with
      | .ok (n, negative) => ctx.powerEffort a n negative
      | .error _ => 0
  | _, _ => 0

/-- How many digits a unit takes. -/
def UnitSuffix.effort (u : UnitSuffix) : Decimal → Nat
  | .finite a => digitCount a.coefficient + digitCount u.size
  | _ => 0

/-- How many digits a function takes. -/
def Builtin.effort (f : Builtin) : Decimal → Nat
  | .finite a =>
    match f with
    | .sqrt | .abs => digitCount a.coefficient
    | .floor | .ceil | .round => Context.exact.toIntegerEffort a
  | _ => 0

/-- An operation that takes some digits, where there are so many. It is not carried out before. -/
def Walk.withEffort (digits effort : Nat) (operation : Unit → Except Failure Decimal) :
    Walk Decimal :=
  if effort ≤ digits then .ofOutcome (operation ()) else .pending

/-- **The value of an expression, found with a limited number of digits.** -/
def Expr.evalWithin (digits : Nat) (ctx : Context) (env : Environment) : Expr → Walk Decimal
  | .number numeral => pure (.finite numeral.value)
  | .answer => pure env.answer
  | .variable name position =>
    match env.lookup name with
    | some x => pure x
    | none => .fail (.undefinedVariable name) position
  | .negate operand => do
    let x ← operand.evalWithin digits ctx env
    pure x.negate
  | .binary op position left right => do
    let x ← left.evalWithin digits ctx env
    let y ← right.evalWithin digits ctx env
    .withEffort digits (op.effort ctx x y) fun _ => op.apply ctx position x y
  | .inUnit u position operand => do
    let x ← operand.evalWithin digits ctx env
    .withEffort digits (u.effort x) fun _ => u.apply position x
  | .call f position argument => do
    let x ← argument.evalWithin digits ctx env
    .withEffort digits (f.effort x) fun _ => f.apply ctx position x
  | .missing cause position => .fail cause position
  | .thenStray operand cause position => do
    let _ ← operand.evalWithin digits ctx env
    .fail cause position

end Reckoner
