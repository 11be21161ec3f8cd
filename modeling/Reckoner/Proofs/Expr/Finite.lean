import Mathlib.Tactic.Common
import Reckoner.Expr.Basic
import Reckoner.Proofs.Outcome

/-!
# Finite values stay finite

A line cannot write an infinity or a NaN, and no operation makes one out of
numbers: where a quotient has no value or a power is too large, the operation
fails. So the value of an expression is a number (`Expr.isFinite_eval`) as long
as the last answer and the variables it is evaluated with are.
-/

namespace Reckoner

/-- **A decimal that is a number**, neither an infinity nor a NaN. -/
inductive Decimal.IsFinite : Decimal → Prop
  | finite (y : Scaled) : IsFinite (.finite y)

/-- **An environment of numbers**: the last answer and every variable. -/
structure Environment.IsFinite (env : Environment) : Prop where
  answer : env.answer.IsFinite
  lookup : ∀ name x, env.lookup name = some x → x.IsFinite

variable {ctx : Context} {position : Nat} {x y z : Decimal}

namespace Decimal

theorem isFinite_of_map_eq_ok {outcome : Except Signal Scaled}
    (h : outcome.map .finite = .ok z) : z.IsFinite := by
  obtain ⟨number, -, rfl⟩ := exists_of_map_eq_ok h
  exact .finite number

theorem IsFinite.exists_number (h : x.IsFinite) : ∃ y, x = .finite y := by
  obtain ⟨y⟩ := h
  exact ⟨y, rfl⟩

theorem IsFinite.negate (h : x.IsFinite) : x.negate.IsFinite := by
  obtain ⟨a⟩ := h
  exact .finite a.negate

theorem IsFinite.abs (h : x.IsFinite) : x.abs.IsFinite := by
  obtain ⟨a⟩ := h
  exact .finite a.abs

end Decimal

/-! ## Operations of a context -/

namespace Context

theorem isFinite_add (hx : x.IsFinite) (hy : y.IsFinite) (h : ctx.add x y = .ok z) :
    z.IsFinite := by
  obtain ⟨a⟩ := hx
  obtain ⟨b⟩ := hy
  exact Decimal.isFinite_of_map_eq_ok h

theorem isFinite_sub (hx : x.IsFinite) (hy : y.IsFinite) (h : ctx.sub x y = .ok z) :
    z.IsFinite := by
  obtain ⟨a⟩ := hx
  obtain ⟨b⟩ := hy
  exact isFinite_add (.finite a) (.finite b.negate) h

theorem isFinite_mul (hx : x.IsFinite) (hy : y.IsFinite) (h : ctx.mul x y = .ok z) :
    z.IsFinite := by
  obtain ⟨a⟩ := hx
  obtain ⟨b⟩ := hy
  exact Decimal.isFinite_of_map_eq_ok h

theorem isFinite_rem (hx : x.IsFinite) (hy : y.IsFinite) (h : ctx.rem x y = .ok z) :
    z.IsFinite := by
  obtain ⟨a⟩ := hx
  obtain ⟨b⟩ := hy
  rw [rem] at h
  split at h
  · cases h
  · exact Decimal.isFinite_of_map_eq_ok h

theorem isFinite_quotient (hx : x.IsFinite) (hy : y.IsFinite) (h : ctx.quotient x y = .ok z) :
    z.IsFinite := by
  obtain ⟨a⟩ := hx
  obtain ⟨b⟩ := hy
  obtain ⟨q, -, rfl⟩ := exists_of_map_eq_ok h
  exact .finite q.reduce

theorem isFinite_toInteger {mode : RoundingMode} (hx : x.IsFinite)
    (h : ctx.toInteger mode x = .ok z) : z.IsFinite := by
  obtain ⟨a⟩ := hx
  exact Decimal.isFinite_of_map_eq_ok h

theorem isFinite_power {n : Nat} {inverted : Bool} (hx : x.IsFinite)
    (h : ctx.power x n inverted = .ok z) : z.IsFinite := by
  obtain ⟨a⟩ := hx
  rw [power] at h
  split at h
  · obtain rfl := Except.ok.inj h
    exact .finite _
  · exact Decimal.isFinite_of_map_eq_ok h

theorem isFinite_squareRoot (hx : x.IsFinite) (h : ctx.squareRoot position x = .ok z) :
    z.IsFinite := by
  obtain ⟨a⟩ := hx
  rw [squareRoot] at h
  split at h
  · cases h
  · split at h
    · cases h
    · exact Decimal.isFinite_of_map_eq_ok (of_mapError_eq_ok h)

end Context

/-! ## Expressions -/

/-- What the limit on digits lets through it does not change. -/
theorem eq_of_bounded_eq_ok (h : bounded position x = .ok z) : z = x := by
  unfold bounded at h
  split at h
  · split at h
    · cases h
    · exact (Except.ok.inj h).symm
  · exact (Except.ok.inj h).symm

/-- A result that had to pass the limit on digits is that of the operation. -/
theorem eq_ok_of_bounded {outcome : Except Signal Decimal}
    (h : (signalled outcome >>= bounded position) = .ok z) : outcome = .ok z := by
  obtain ⟨result, hresult, hbounded⟩ := exists_of_bind_eq_ok h
  rw [eq_of_bounded_eq_ok hbounded]
  exact of_mapError_eq_ok hresult

theorem isFinite_powerValue (hx : x.IsFinite) (h : powerValue ctx position x y = .ok z) :
    z.IsFinite := by
  obtain ⟨⟨n, negative⟩, -, hpower⟩ := exists_of_bind_eq_ok h
  dsimp only at hpower
  split at hpower
  · obtain rfl := Except.ok.inj hpower
    exact .finite (.ofNat 1)
  · split at hpower
    · cases hpower
    · split at hpower
      · next result hresult =>
        rw [eq_of_bounded_eq_ok hpower]
        exact Context.isFinite_power hx hresult
      · cases hpower
      · cases hpower

theorem Operator.isFinite_apply {op : Operator} (hx : x.IsFinite) (hy : y.IsFinite)
    (h : op.apply ctx position x y = .ok z) : z.IsFinite := by
  cases op with
  | add => exact Context.isFinite_add hx hy (eq_ok_of_bounded h)
  | subtract => exact Context.isFinite_sub hx hy (eq_ok_of_bounded h)
  | multiply => exact Context.isFinite_mul hx hy (eq_ok_of_bounded h)
  | divide =>
    rw [apply] at h
    split at h
    · cases h
    · exact Context.isFinite_quotient hx hy (eq_ok_of_bounded h)
  | remainder =>
    rw [apply] at h
    split at h
    · cases h
    · exact Context.isFinite_rem hx hy (eq_ok_of_bounded h)
  | power => exact isFinite_powerValue hx h

theorem Builtin.isFinite_apply {f : Builtin} (hx : x.IsFinite)
    (h : f.apply ctx position x = .ok z) : z.IsFinite := by
  cases f with
  | sqrt => exact Context.isFinite_squareRoot hx h
  | abs => exact Except.ok.inj h ▸ hx.abs
  | floor => exact Context.isFinite_toInteger hx (of_mapError_eq_ok h)
  | ceil => exact Context.isFinite_toInteger hx (of_mapError_eq_ok h)
  | round => exact Context.isFinite_toInteger hx (of_mapError_eq_ok h)

/-- **The value of an expression is a number** in an environment of numbers. -/
theorem Expr.isFinite_eval {env : Environment} (henv : env.IsFinite) {e : Expr}
    (h : e.eval ctx env = .ok x) : x.IsFinite := by
  induction e generalizing x with
  | number numeral =>
    obtain rfl := Except.ok.inj h
    exact .finite numeral.value
  | answer =>
    obtain rfl := Except.ok.inj h
    exact henv.answer
  | «variable» name position =>
    rw [eval] at h
    split at h
    · next value hvalue =>
      obtain rfl := Except.ok.inj h
      exact henv.lookup name value hvalue
    · cases h
  | negate operand ih =>
    obtain ⟨y, hy, rfl⟩ := exists_of_map_eq_ok h
    exact (ih hy).negate
  | binary op position left right ihLeft ihRight =>
    obtain ⟨y, hy, h⟩ := exists_of_bind_eq_ok h
    obtain ⟨z, hz, h⟩ := exists_of_bind_eq_ok h
    exact Operator.isFinite_apply (ihLeft hy) (ihRight hz) h
  | inUnit u position operand ih =>
    obtain ⟨y, hy, h⟩ := exists_of_bind_eq_ok h
    exact Context.isFinite_mul (ih hy) (.finite (.ofNat u.size)) (eq_ok_of_bounded h)
  | call f position argument ih =>
    obtain ⟨y, hy, h⟩ := exists_of_bind_eq_ok h
    exact Builtin.isFinite_apply (ih hy) h
  | missing cause position => cases h
  | thenStray operand cause position ih =>
    obtain ⟨y, -, h⟩ := exists_of_bind_eq_ok h
    cases h

end Reckoner
