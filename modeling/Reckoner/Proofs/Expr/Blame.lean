import Reckoner.Expr.Basic

/-!
# What the parts of an expression are blamed for

A node of an expression that has a value for each of its parts may still have none
itself. `Operator.Refuses` and `Builtin.Refuses` list the causes, which are few: every
operator has a limit on its result, three of them divide, and of the functions only
the root turns down an argument. A signal of the arithmetic is not among them, since
it knows no place (`Failure`).

`FaultsIn P x` says of an outcome that if it is a fault, the fault is one of `P`.
There is one lemma for each operation, and chains of steps go by `FaultsIn.bind`,
where the second step may use that the first had a value.
-/

namespace Reckoner

/-- **What an operator is blamed for.** -/
inductive Operator.Refuses : Operator → Cause → Prop
  | tooLarge (op : Operator) : Refuses op .resultTooLarge
  | divideByZero : Refuses .divide .divisionByZero
  | remainderByZero : Refuses .remainder .moduloByZero
  /-- A negative power of zero. -/
  | invertZero : Refuses .power .divisionByZero
  | largeExponent : Refuses .power .exponentTooLarge
  | fractionalExponent : Refuses .power .negativePower

/-- **What a function is blamed for.** The root of a number beyond the largest
binary fraction is not found. -/
inductive Builtin.Refuses : Builtin → Cause → Prop
  | negativeRoot : Refuses .sqrt .negativeSqrt
  | largeRoot : Refuses .sqrt .invalidNumber

/-- **The faults of an outcome are among `P`.** -/
def FaultsIn {α : Type} (P : Fault → Prop) (x : Except Failure α) : Prop :=
  ∀ fault, x = .error (.fault fault) → P fault

namespace FaultsIn

variable {α β : Type} {P : Fault → Prop} {x : Except Failure α}

theorem ok (a : α) : FaultsIn P (.ok a) := nofun

theorem signal (s : Signal) : FaultsIn P (.error (.signal s) : Except Failure α) := nofun

theorem blamed {cause : Cause} {position : Nat} (h : P (.evaluation cause position)) :
    FaultsIn P (.error (.at cause position) : Except Failure α) := by
  intro fault hfault
  obtain rfl := Failure.fault.inj (Except.error.inj hfault)
  exact h

/-- **A chain fails where one of its steps does.** -/
theorem bind {f : α → Except Failure β} (h : FaultsIn P x)
    (hstep : ∀ a, x = .ok a → FaultsIn P (f a)) : FaultsIn P (x >>= f) := by
  cases hx : x with
  | error failure =>
    intro fault hfault
    obtain rfl := Except.error.inj hfault
    exact h fault hx
  | ok a => exact hstep a hx

theorem map {f : α → β} (h : FaultsIn P x) : FaultsIn P (x.map f) := by
  cases hx : x with
  | error failure =>
    intro fault hfault
    obtain rfl := Except.error.inj hfault
    exact h fault hx
  | ok a => exact .ok (f a)

/-- Decimal arithmetic blames nothing. -/
theorem signalled (result : Except Signal Decimal) : FaultsIn P (signalled result) := by
  cases result with
  | error s => exact .signal s
  | ok a => exact .ok a

theorem bounded {position : Nat} (x : Decimal) (h : P (.evaluation .resultTooLarge position)) :
    FaultsIn P (bounded position x) := by
  unfold Reckoner.bounded
  split
  · split
    · exact .blamed h
    · exact .ok _
  · exact .ok _

/-- An exact or rounded result within the limit. -/
theorem signalled_bounded {position : Nat} (result : Except Signal Decimal)
    (h : P (.evaluation .resultTooLarge position)) :
    FaultsIn P (Reckoner.signalled result >>= Reckoner.bounded position) :=
  (signalled result).bind fun x _ => bounded x h

end FaultsIn

variable {P : Fault → Prop} {position : Nat}

theorem faultsIn_powerExponent (x : Decimal)
    (h : ∀ cause, Operator.power.Refuses cause → P (.evaluation cause position)) :
    FaultsIn P (powerExponent position x) := by
  cases x with
  | nan => exact .signal _
  | infinite negative => exact .blamed (h _ .largeExponent)
  | finite a =>
    unfold powerExponent
    dsimp only
    split
    · exact .blamed (h _ .largeExponent)
    · split
      · exact .blamed (h _ .fractionalExponent)
      · exact .ok _

theorem faultsIn_powerValue (ctx : Context) (base exponent : Decimal)
    (h : ∀ cause, Operator.power.Refuses cause → P (.evaluation cause position)) :
    FaultsIn P (powerValue ctx position base exponent) := by
  refine (faultsIn_powerExponent exponent h).bind fun (n, negative) _ => ?_
  dsimp only
  split
  · exact .ok _
  · split
    · exact .blamed (h _ .invertZero)
    · split
      · exact .bounded _ (h _ (.tooLarge _))
      · exact .blamed (h _ (.tooLarge _))
      · exact .signal _

/-- **What an operator cannot do it is blamed for.** -/
theorem Operator.faultsIn_apply (ctx : Context) (op : Operator) (x y : Decimal)
    (h : ∀ cause, op.Refuses cause → P (.evaluation cause position)) :
    FaultsIn P (op.apply ctx position x y) := by
  have hlarge := h _ (.tooLarge op)
  cases op with
  | add | subtract | multiply => exact .signalled_bounded _ hlarge
  | divide =>
    unfold apply
    dsimp only
    split
    · exact .blamed (h _ .divideByZero)
    · exact .signalled_bounded _ hlarge
  | remainder =>
    unfold apply
    dsimp only
    split
    · exact .blamed (h _ .remainderByZero)
    · exact .signalled_bounded _ hlarge
  | power => exact faultsIn_powerValue ctx x y h

/-- **A unit is blamed for a product beyond the limit.** -/
theorem UnitSuffix.faultsIn_apply (u : UnitSuffix) (x : Decimal)
    (h : P (.evaluation .resultTooLarge position)) : FaultsIn P (u.apply position x) :=
  .signalled_bounded _ h

/-- **What a function cannot do it is blamed for.** -/
theorem Builtin.faultsIn_apply (ctx : Context) (f : Builtin) (x : Decimal)
    (h : ∀ cause, f.Refuses cause → P (.evaluation cause position)) :
    FaultsIn P (f.apply ctx position x) := by
  cases f with
  | sqrt =>
    unfold apply Context.squareRoot
    dsimp only
    split
    · exact .signal _
    · exact .blamed (h _ .negativeRoot)
    · exact .blamed (h _ .largeRoot)
    · split
      · exact .blamed (h _ .negativeRoot)
      · split
        · exact .blamed (h _ .largeRoot)
        · exact .signalled _
  | abs => exact .ok _
  | floor | ceil | round => exact .signalled _

end Reckoner
