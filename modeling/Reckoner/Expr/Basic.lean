import Reckoner.Decimal.Binary
import Reckoner.Decimal.Power
import Reckoner.Fault
import Reckoner.Token.Basic

/-!
# Expressions and their values

An expression is a tree over numbers, variables and the last answer. Nodes whose evaluation may
fail carry the position of the token they were read from.

A line that breaks off, or goes on where it should end, is a tree too. The place where reading had
to stop is a node `missing`, or a node `thenStray` above the part that could be read, and the
evaluation of such a node fails with the cause it holds. Evaluation goes from left to right, so the
failure that is reported is the first one in the order of the line, be it in the grammar or in the
arithmetic: `1/0)` is a division by zero, `)1/0` an unexpected token.

Sums, products and remainders are exact. Quotients and powers are rounded in the working context.
No result of an operator or a unit may have more than ten thousand digits before the point
(`bounded`).
-/

namespace Reckoner

/-- **Expressions.** -/
inductive Expr where
  /-- A written number. -/
  | number (numeral : Numeral)
  /-- The last answer. -/
  | answer
  /-- The value of a variable. -/
  | variable (name : String) (position : Nat)
  /-- An expression with the opposite sign. -/
  | negate (operand : Expr)
  /-- Two expressions joined by an operator. -/
  | binary (op : Operator) (position : Nat) (left right : Expr)
  /-- An expression followed by a unit. -/
  | inUnit (u : UnitSuffix) (position : Nat) (operand : Expr)
  /-- A function applied to an expression. -/
  | call (f : Builtin) (position : Nat) (argument : Expr)
  /-- Where an operand should stand, something else does, or nothing. -/
  | missing (cause : Cause) (position : Nat)
  /-- What follows the operand does not belong there, or something is missing behind it. -/
  | thenStray (operand : Expr) (cause : Cause) (position : Nat)
deriving DecidableEq

/-- **What an expression is evaluated with**: the values of variables, and the last answer. -/
structure Environment where
  lookup : String → Option Decimal
  answer : Decimal

/-- A failure blamed on the token at `position`. -/
def Failure.at (cause : Cause) (position : Nat) : Failure := .fault (.evaluation cause position)

/-- The result of an operation of decimal arithmetic as part of an evaluation. -/
def signalled (result : Except Signal Decimal) : Except Failure Decimal :=
  result.mapError .signal

/-! ## Limits -/

/-- How many digits a result may have before the point. -/
def maxResultDigits : Nat := 10000

/-- The largest exponent of a power. -/
def maxPower : Nat := 1000

/-- **A result within the limit on its digits**; a larger one is blamed on `position`. Zero is
within the limit whatever its exponent, and so are the special values. -/
def bounded (position : Nat) (x : Decimal) : Except Failure Decimal :=
  match x with
  | .finite a =>
    if !a.isZero && decide ((maxResultDigits : Int) ≤ a.adjusted) then
      .error (.at .resultTooLarge position)
    else .ok x
  | _ => .ok x

/-! ## Functions -/

/-- **The square root** of a decimal: that of the nearest binary fraction, rounded to the context.
The root of negative zero is negative zero. -/
def Context.squareRoot (ctx : Context) (position : Nat) (x : Decimal) : Except Failure Decimal :=
  match x with
  | .nan .. => .error (.signal .invalidOperation)
  | .infinite true => .error (.at .negativeSqrt position)
  | .infinite false => .error (.at .invalidNumber position)
  | .finite a =>
    if a.isBelowZero then .error (.at .negativeSqrt position)
    else
      match Binary.ofScaled? a with
      | none => .error (.at .invalidNumber position)
      | some b =>
        signalled ((ctx.round (b.sqrt.toScaled.withSign a.negative)).map .finite)

/-- **The value of a function** for an argument. -/
def Builtin.apply (ctx : Context) (f : Builtin) (position : Nat) (x : Decimal) :
    Except Failure Decimal :=
  match f with
  | .sqrt => ctx.squareRoot position x
  | .abs => .ok x.abs
  | .floor => signalled (Context.exact.toInteger .floor x)
  | .ceil => signalled (Context.exact.toInteger .ceiling x)
  | .round => signalled (Context.exact.toInteger .halfUp x)

/-- The value of the function with a given name. -/
def Builtin.applyNamed (ctx : Context) (name : String) (position : Nat) (x : Decimal) :
    Except Failure Decimal :=
  match Builtin.ofText? name with
  | some f => f.apply ctx position x
  | none => .error (.at (.unknownFunction name) position)

/-! ## Operators -/

/-- The exponent of a power as an integer: its absolute value, and whether it is negative. -/
def powerExponent (position : Nat) (x : Decimal) : Except Failure (Nat × Bool) :=
  match x with
  | .nan .. => .error (.signal .invalidOperation)
  | .infinite _ => .error (.at .exponentTooLarge position)
  | .finite a =>
    if a.compareMagnitude (.ofNat maxPower) = .gt then .error (.at .exponentTooLarge position)
    else
      match a.toNat? with
      | none => .error (.at .negativePower position)
      | some n => .ok (n, a.negative)

/-- **A power.** Any base to the power zero is one; zero has no negative powers. -/
def powerValue (ctx : Context) (position : Nat) (base exponent : Decimal) :
    Except Failure Decimal := do
  let (n, negative) ← powerExponent position exponent
  if n = 0 then .ok (.ofNat 1)
  else if base.isZero && negative then .error (.at .divisionByZero position)
  else
    match ctx.power base n negative with
    | .ok result => bounded position result
    | .error .overflow => .error (.at .resultTooLarge position)
    | .error signal => .error (.signal signal)

/-- **The value of an operator** for two operands. -/
def Operator.apply (ctx : Context) (op : Operator) (position : Nat) (x y : Decimal) :
    Except Failure Decimal :=
  match op with
  | .add => signalled (Context.exact.add x y) >>= bounded position
  | .subtract => signalled (Context.exact.sub x y) >>= bounded position
  | .multiply => signalled (Context.exact.mul x y) >>= bounded position
  | .divide =>
    if y.isZero then .error (.at .divisionByZero position)
    else signalled (ctx.quotient x y) >>= bounded position
  | .remainder =>
    if y.isZero then .error (.at .moduloByZero position)
    else signalled (Context.exact.rem x y) >>= bounded position
  | .power => powerValue ctx position x y

/-- The value of a number followed by a unit. -/
def UnitSuffix.apply (u : UnitSuffix) (position : Nat) (x : Decimal) : Except Failure Decimal :=
  signalled (Context.exact.mul x (.ofNat u.size)) >>= bounded position

/-! ## Evaluation -/

/-- **The value of an expression**, or the first failure from left to right. -/
def Expr.eval (ctx : Context) (env : Environment) : Expr → Except Failure Decimal
  | .number numeral => .ok (.finite numeral.value)
  | .answer => .ok env.answer
  | .variable name position =>
    match env.lookup name with
    | some x => .ok x
    | none => .error (.at (.undefinedVariable name) position)
  | .negate operand => (operand.eval ctx env).map Decimal.negate
  | .binary op position left right => do
    let x ← left.eval ctx env
    let y ← right.eval ctx env
    op.apply ctx position x y
  | .inUnit u position operand => do
    let x ← operand.eval ctx env
    u.apply position x
  | .call f position argument => do
    let x ← argument.eval ctx env
    f.apply ctx position x
  | .missing cause position => .error (.at cause position)
  | .thenStray operand cause position => do
    let _ ← operand.eval ctx env
    .error (.at cause position)

end Reckoner
