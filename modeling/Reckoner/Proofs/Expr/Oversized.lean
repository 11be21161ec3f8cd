import Reckoner.Proofs.Expr.Limit
import Reckoner.Proofs.Expr.Power

/-!
# Which result was too large

A line can be rejected because a result is too large, and the place that is reported should be
that of the operator, or of the unit, whose result it was. There are three ways to be too large.
A result of more than ten thousand digits is found by the check behind every operator and every
unit, and a power that the arithmetic gives up is found where powers are computed; both know
their token. But a sum, a product, a quotient or a remainder beyond the largest exponent is
a signal of the arithmetic, and that knows none. It is reported at the start of the line
(`TooLarge.exponent`).

`Expr.isRejectedAt_eval_iff` says that there is nothing else to it. An expression is rejected at
a position if and only if its evaluation comes to the application of an operator or a unit
(`Expr.Performs`) whose result is too large, and the position is the one that belongs to it
(`Application.IsOversized`). So functions have no part in it, and neither have the numbers,
variables and answers that are not applied to anything. How large a result is, is read off the
rational numbers: `Operator.rounded?` is the number that the operation comes to, or would, were
there no largest exponent.
-/

namespace Reckoner

variable {α β : Type} {ctx : Context} {env : Environment} {place position : ℕ}

/-! ## Rejections and their positions -/

/-- **A computation is rejected as too large, at a position.** -/
def IsRejectedAt (position : ℕ) (outcome : Except Failure α) : Prop :=
  ∃ failure, outcome = .error failure ∧ failure.toFault = .evaluation .resultTooLarge position

theorem not_isRejectedAt_ok (a : α) : ¬ IsRejectedAt position (.ok a) := nofun

theorem isRejectedAt_error_iff {failure : Failure} :
    IsRejectedAt position (.error failure : Except Failure α)
      ↔ failure.toFault = .evaluation .resultTooLarge position := by
  constructor
  · rintro ⟨failure', heq, hfault⟩
    obtain rfl := Except.error.inj heq
    exact hfault
  · exact fun hfault => ⟨failure, rfl, hfault⟩

/-- What is blamed on a token is rejected there. -/
theorem isRejectedAt_at_iff {cause : Cause} :
    IsRejectedAt position (.error (.at cause place) : Except Failure α)
      ↔ cause = .resultTooLarge ∧ position = place := by
  rw [isRejectedAt_error_iff]
  constructor
  · intro h
    obtain ⟨-, rfl, rfl⟩ := Fault.mk.inj h
    exact ⟨rfl, rfl⟩
  · rintro ⟨rfl, rfl⟩
    rfl

/-- **An overflow is reported at the start of the line**, and no other signal is a result that is
too large. -/
theorem isRejectedAt_signalled_iff {outcome : Except Signal Decimal} :
    IsRejectedAt position (signalled outcome) ↔ outcome = .error .overflow ∧ position = 0 := by
  cases outcome with
  | ok x => exact iff_of_false (not_isRejectedAt_ok x) nofun
  | error signal =>
    refine isRejectedAt_error_iff.trans ⟨fun h => ?_, ?_⟩
    · obtain ⟨-, hcause, rfl⟩ := Fault.mk.inj h
      cases signal with
      | overflow => exact ⟨rfl, rfl⟩
      | _ => cases hcause
    · rintro ⟨h, rfl⟩
      obtain rfl := Except.error.inj h
      rfl

/-- **A chain of steps is rejected where one of them is.** -/
theorem isRejectedAt_bind_iff {x : Except Failure α} {f : α → Except Failure β} :
    IsRejectedAt position (x >>= f)
      ↔ IsRejectedAt position x ∨ ∃ a, x = .ok a ∧ IsRejectedAt position (f a) := by
  cases x with
  | error failure =>
    have hsame : IsRejectedAt position (Except.error failure >>= f)
        ↔ IsRejectedAt position (.error failure : Except Failure α) :=
      isRejectedAt_error_iff.trans isRejectedAt_error_iff.symm
    refine hsame.trans ⟨.inl, fun h => h.elim id ?_⟩
    rintro ⟨a, ha, -⟩
    cases ha
  | ok a =>
    refine ⟨fun h => .inr ⟨a, rfl, h⟩, fun h => h.elim (absurd · (not_isRejectedAt_ok a)) ?_⟩
    rintro ⟨a', ha, h⟩
    obtain rfl := Except.ok.inj ha
    exact h

theorem isRejectedAt_map_iff {x : Except Failure α} {f : α → β} :
    IsRejectedAt position (x.map f) ↔ IsRejectedAt position x := by
  cases x with
  | error failure => exact isRejectedAt_error_iff.trans isRejectedAt_error_iff.symm
  | ok a => exact iff_of_false (not_isRejectedAt_ok _) (not_isRejectedAt_ok a)

/-! ## Numbers that are too large -/

/-- **A result that is too large**, with the position it is reported at, if its operator or unit
stands at `place`. -/
inductive TooLarge (place : ℕ) (q : ℚ) : ℕ → Prop
  /-- It has too many digits before the point. -/
  | digits (long : 10 ^ maxResultDigits ≤ |q|) (held : |q| < 10 ^ (Context.maxExponent + 1)) :
      TooLarge place q place
  /-- It is beyond the largest exponent. -/
  | exponent (beyond : 10 ^ (Context.maxExponent + 1) ≤ |q|) : TooLarge place q 0

/-- **The check behind an operator or a unit** rejects the results that have too many digits. -/
theorem isRejectedAt_bounded_iff {z : Scaled} : IsRejectedAt position (bounded place (.finite z))
    ↔ 10 ^ maxResultDigits ≤ |z.toRat| ∧ position = place := by
  rcases lt_or_ge |z.toRat| (10 ^ maxResultDigits) with hlt | hle
  · rw [bounded_eq_ok hlt]
    exact iff_of_false (not_isRejectedAt_ok _) fun h => absurd h.1 (not_le.mpr hlt)
  · have hrejects : bounded place (.finite z) = .error (.at .resultTooLarge place) := by
      unfold bounded
      dsimp only
      split
      · rfl
      · next hsmall =>
        -- what the check lets through is within the limit
        have hpassed : bounded place (.finite z) = .ok (.finite z) := if_neg hsmall
        obtain ⟨y, hy, hlt⟩ := Decimal.isWithinLimit_of_bounded (.finite z) hpassed
        obtain rfl := Decimal.finite.inj hy
        exact absurd hle (not_le.mpr hlt)
    rw [hrejects, isRejectedAt_at_iff]
    exact and_congr_left fun _ => iff_of_true rfl hle

/-- **A result is rejected if the number it stands for is too large.** -/
theorem isRejectedAt_bind_bounded_iff {outcome : Except Signal Scaled} {q : ℚ}
    (h : outcome.map Scaled.toRat = Context.deliver q) :
    IsRejectedAt position (signalled (outcome.map .finite) >>= bounded place)
      ↔ TooLarge place q position := by
  rw [isRejectedAt_bind_iff, isRejectedAt_signalled_iff]
  unfold Context.deliver at h
  split at h
  · next hbeyond =>
    rw [of_map_eq_error h]
    constructor
    · rintro (⟨-, rfl⟩ | ⟨x, hx, -⟩)
      · exact .exponent hbeyond
      · cases hx
    · rintro (⟨-, hheld⟩ | -)
      · exact absurd hbeyond (not_le.mpr hheld)
      · exact .inl ⟨rfl, rfl⟩
  · next hheld =>
    obtain ⟨z, rfl, rfl⟩ := exists_of_map_eq_ok h
    constructor
    · rintro (⟨hoverflow, -⟩ | ⟨x, hx, hrejected⟩)
      · cases hoverflow
      · obtain rfl := Except.ok.inj hx
        obtain ⟨hlong, rfl⟩ := isRejectedAt_bounded_iff.mp hrejected
        exact .digits hlong (not_le.mp hheld)
    · rintro (⟨hlong, -⟩ | hbeyond)
      · exact .inr ⟨_, rfl, isRejectedAt_bounded_iff.mpr ⟨hlong, rfl⟩⟩
      · exact absurd hbeyond hheld

/-- An exact result that is brought into its context. -/
theorem isRejectedAt_round_iff (hp : 1 ≤ ctx.precision) {z : Scaled} {q : ℚ} (hz : z.toRat = q) :
    IsRejectedAt position (signalled ((ctx.round z).map .finite) >>= bounded place)
      ↔ TooLarge place (ctx.nearest q) position :=
  isRejectedAt_bind_bounded_iff (hz ▸ Context.map_toRat_round hp z)

/-- A quotient is brought into its context when its digits are produced. -/
theorem isRejectedAt_quotient_iff (hp : 1 ≤ ctx.precision) {x y : Scaled} (hy : y.isZero = false) :
    IsRejectedAt position (signalled (ctx.quotient (.finite x) (.finite y)) >>= bounded place)
      ↔ TooLarge place (ctx.nearest (x.toRat / y.toRat)) position := by
  have hquotient : ctx.quotient (.finite x) (.finite y)
      = ((ctx.divide x y).map Scaled.reduce).map .finite := by
    rw [Context.quotient]
    cases ctx.divide x y <;> rfl
  rw [hquotient]
  refine isRejectedAt_bind_bounded_iff ?_
  rw [← Context.map_toRat_divide hp x hy]
  cases ctx.divide x y with
  | error signal => rfl
  | ok z => exact congrArg Except.ok z.toRat_reduce

/-- **A remainder is not formed** if the quotient has too many digits for the context. -/
def Context.LacksRoom (ctx : Context) (a b : ℚ) : Prop :=
  a ≠ 0 ∧ (ctx.precision : ℤ) < Int.log 10 |a| - Int.log 10 |b|

instance (a b : ℚ) : Decidable (ctx.LacksRoom a b) := inferInstanceAs (Decidable (_ ∧ _))

theorem isRejectedAt_rem_iff (hp : 1 ≤ ctx.precision) {x y : Scaled} (hy : y.isZero = false) :
    IsRejectedAt position (signalled (ctx.rem (.finite x) (.finite y)) >>= bounded place)
      ↔ ¬ ctx.LacksRoom x.toRat y.toRat
        ∧ TooLarge place (ctx.nearest (x.toRat - y.toRat * truncated (x.toRat / y.toRat)))
          position := by
  have hlong : (!x.isZero && decide ((ctx.precision : ℤ) < x.adjusted - y.adjusted)) = true
      ↔ ctx.LacksRoom x.toRat y.toRat := by
    rw [Context.LacksRoom, Bool.and_eq_true, Bool.not_eq_true', decide_eq_true_eq, Ne,
      x.toRat_eq_zero_iff, Bool.not_eq_true]
    refine and_congr_right fun hx => ?_
    rw [x.adjusted_eq_log hx, y.adjusted_eq_log hy]
  rw [Context.rem]
  split
  · next h =>
    rw [isRejectedAt_bind_iff, isRejectedAt_signalled_iff]
    refine iff_of_false ?_ fun hroom => hroom.1 (hlong.mp h)
    rintro (⟨hoverflow, -⟩ | ⟨z, hz, -⟩)
    · cases hoverflow
    · cases hz
  · next h =>
    rw [and_iff_right (mt hlong.mpr h)]
    exact isRejectedAt_round_iff hp (x.toRat_rem y hy)

/-! ## Operators and units -/

/-- **The number that an operator comes to**: its exact result, rounded to the digits of the
context it is computed in. Nothing is divided by zero, and powers, which are rounded more than
once, are left out. -/
def Operator.rounded? (ctx : Context) (op : Operator) (a b : ℚ) : Option ℚ :=
  match op with
  | .divide => if b = 0 then none else some (ctx.nearest (a / b))
  | .remainder =>
    if b = 0 ∨ Context.exact.LacksRoom a b then none
    else some (Context.exact.nearest (a - b * truncated (a / b)))
  | op => (op.exact a b).map Context.exact.nearest

/-- The context of exact arithmetic has digits. -/
theorem Context.one_le_precision_exact : 1 ≤ exact.precision := by decide

/-- **Which results of an operator are rejected**, powers apart. -/
theorem Operator.isRejectedAt_apply_iff (hp : 1 ≤ ctx.precision) {op : Operator} (hop : op ≠ .power)
    {x y : Scaled} : IsRejectedAt position (op.apply ctx place (.finite x) (.finite y))
      ↔ ∃ q, op.rounded? ctx x.toRat y.toRat = some q ∧ TooLarge place q position := by
  have hexact {z : Scaled} {q : ℚ} (hz : z.toRat = q) :
      IsRejectedAt position (signalled ((Context.exact.round z).map .finite) >>= bounded place)
        ↔ ∃ r, (some q).map Context.exact.nearest = some r ∧ TooLarge place r position := by
    rw [isRejectedAt_round_iff Context.one_le_precision_exact hz, Option.map_some]
    simp only [Option.some.injEq, exists_eq_left']
  -- zero is blamed for another reason than the size of a result
  have hzero {cause : Cause} (hcause : cause ≠ .resultTooLarge) :
      IsRejectedAt position (.error (.at cause place) : Except Failure Decimal)
        ↔ ∃ q, (none : Option ℚ) = some q ∧ TooLarge place q position := by
    rw [isRejectedAt_at_iff]
    exact iff_of_false (fun h => hcause h.1) (by rintro ⟨q, hq, -⟩; cases hq)
  cases op with
  | add => exact hexact (x.toRat_add y)
  | subtract => exact hexact (by rw [x.toRat_add, y.toRat_negate, sub_eq_add_neg])
  | multiply => exact hexact (x.toRat_mul y)
  | power => exact absurd rfl hop
  | divide =>
    rw [apply, rounded?, Decimal.isZero]
    cases hy : y.isZero with
    | true =>
      rw [if_pos rfl, if_pos (y.toRat_eq_zero_iff.mpr hy)]
      exact hzero fun h => Cause.noConfusion h
    | false =>
      rw [if_neg Bool.false_ne_true, if_neg (y.toRat_ne_zero hy), isRejectedAt_quotient_iff hp hy]
      simp only [Option.some.injEq, exists_eq_left']
  | remainder =>
    rw [apply, rounded?, Decimal.isZero]
    cases hy : y.isZero with
    | true =>
      rw [if_pos rfl, if_pos (.inl (y.toRat_eq_zero_iff.mpr hy))]
      exact hzero fun h => Cause.noConfusion h
    | false =>
      rw [if_neg Bool.false_ne_true, isRejectedAt_rem_iff Context.one_le_precision_exact hy]
      by_cases hroom : Context.exact.LacksRoom x.toRat y.toRat
      · rw [if_pos (.inr hroom)]
        exact iff_of_false (fun h => h.1 hroom) (by rintro ⟨q, hq, -⟩; cases hq)
      · rw [if_neg (not_or.mpr ⟨y.toRat_ne_zero hy, hroom⟩), and_iff_right hroom]
        simp only [Option.some.injEq, exists_eq_left']

/-- **Which results of a unit are rejected.** -/
theorem UnitSuffix.isRejectedAt_apply_iff {u : UnitSuffix} {x : Scaled} :
    IsRejectedAt position (u.apply place (.finite x))
      ↔ TooLarge place (Context.exact.nearest (x.toRat * u.size)) position :=
  isRejectedAt_round_iff Context.one_le_precision_exact (by rw [x.toRat_mul, u.toRat_size])

/-! ## Powers -/

/-- The exponent of a power is an integer of at most three digits, or a thousand. -/
theorem powerExponent_eq_ok_iff {y : Scaled} {k : ℕ} {negative : Bool} :
    powerExponent place (.finite y) = .ok (k, negative)
      ↔ |y.toRat| = k ∧ k ≤ maxPower ∧ negative = y.negative := by
  have hlarge : y.compareMagnitude (.ofNat maxPower) = .gt ↔ (maxPower : ℚ) < |y.toRat| := by
    rw [y.compareMagnitude_eq, cmp_eq_gt_iff, Scaled.toRat_ofNat, Nat.abs_cast]
  rw [powerExponent]
  split
  · next hgt =>
    refine iff_of_false (by rintro ⟨⟩) ?_
    rintro ⟨hk, hle, -⟩
    rw [hlarge, hk] at hgt
    exact absurd hgt (not_lt.mpr (by exact_mod_cast hle))
  · next hgt =>
    rw [hlarge, not_lt] at hgt
    cases hn : y.toNat? with
    | none =>
      refine iff_of_false (by rintro ⟨⟩) ?_
      rintro ⟨hk, -, -⟩
      cases hn.symm.trans (y.toNat?_eq_some_iff.mpr hk)
    | some n =>
      have habs := y.toNat?_eq_some_iff.mp hn
      rw [habs] at hgt ⊢
      constructor
      · intro h
        obtain ⟨rfl, rfl⟩ := Prod.mk.inj (Except.ok.inj h)
        exact ⟨rfl, by exact_mod_cast hgt, rfl⟩
      · rintro ⟨hk, -, rfl⟩
        rw [Nat.cast_inj.mp hk]

theorem not_isRejectedAt_powerExponent {y : Scaled} :
    ¬ IsRejectedAt position (powerExponent place (.finite y)) := by
  rw [powerExponent]
  split
  · exact fun h => Cause.noConfusion (isRejectedAt_at_iff.mp h).1
  · split
    · exact fun h => Cause.noConfusion (isRejectedAt_at_iff.mp h).1
    · exact not_isRejectedAt_ok _

/-- **A power that is too large**: the arithmetic gives it up, or it has too many digits before
the point. -/
inductive Context.PowerExceeds (ctx : Context) (x : Scaled) (n : ℤ) : Prop
  | overflow (power_eq : ctx.power (.finite x) n.natAbs (decide (n < 0)) = .error .overflow)
  | digits {z : Scaled}
      (power_eq : ctx.power (.finite x) n.natAbs (decide (n < 0)) = .ok (.finite z))
      (long : 10 ^ maxResultDigits ≤ |z.toRat|)

/-- A power of zero is not large. -/
theorem Context.PowerExceeds.isZero_eq {x : Scaled} {n : ℤ} (h : ctx.PowerExceeds x n) :
    x.isZero = false := by
  refine Bool.eq_false_of_not_eq_true fun hx => ?_
  have hpower : ctx.power (.finite x) n.natAbs (decide (n < 0))
      = .ok (.finite ⟨x.negative && n.natAbs % 2 == 1, 0, 0⟩) := if_pos hx
  cases h with
  | overflow power_eq => cases hpower.symm.trans power_eq
  | digits power_eq long =>
    obtain rfl := Decimal.finite.inj (Except.ok.inj (hpower.symm.trans power_eq))
    rw [(Scaled.toRat_eq_zero_iff _).mpr rfl, abs_zero] at long
    exact absurd long (not_le.mpr (by positivity))

/-- An exponent other than zero is an integer, and known from its absolute value and its sign. -/
theorem powerExponent_eq_ok_iff_exists {y : Scaled} {k : ℕ} {negative : Bool} (hk : k ≠ 0) :
    powerExponent place (.finite y) = .ok (k, negative)
      ↔ k ≤ maxPower ∧ ∃ n : ℤ, y.toRat = n ∧ n.natAbs = k ∧ decide (n < 0) = negative := by
  rw [powerExponent_eq_ok_iff]
  constructor
  · rintro ⟨habs, hle, rfl⟩
    refine ⟨hle, if y.negative then -k else k, ?_⟩
    rw [y.toRat_eq_sign_mul_abs, habs, Scaled.sign]
    cases y.negative with
    | true => exact ⟨by simp, by simp, by simpa using Nat.pos_of_ne_zero hk⟩
    | false => exact ⟨by simp, by simp, by simp⟩
  · rintro ⟨hle, n, hy, rfl, rfl⟩
    have hzero : y.isZero = false := by
      refine Bool.eq_false_of_not_eq_true (mt y.toRat_eq_zero_iff.mpr ?_)
      rw [hy]
      exact_mod_cast Int.natAbs_ne_zero.mp hk
    refine ⟨?_, hle, ?_⟩
    · rw [hy, ← Int.cast_abs, Int.abs_eq_natAbs, Int.cast_natCast]
    · have hsign := y.toRat_lt_zero_iff
      rw [hy, hzero] at hsign
      rw [Bool.eq_iff_iff, decide_eq_true_eq]
      simpa using hsign

/-- **Which powers are rejected.** -/
theorem isRejectedAt_powerValue_iff {x y : Scaled} :
    IsRejectedAt position (powerValue ctx place (.finite x) (.finite y))
      ↔ position = place
        ∧ ∃ n : ℤ, y.toRat = n ∧ n ≠ 0 ∧ n.natAbs ≤ maxPower ∧ ctx.PowerExceeds x n := by
  rw [powerValue, isRejectedAt_bind_iff, or_iff_right not_isRejectedAt_powerExponent]
  constructor
  · rintro ⟨⟨k, negative⟩, hexponent, h⟩
    dsimp only at h
    split at h
    · exact absurd h (not_isRejectedAt_ok _)
    next hk =>
    obtain ⟨hle, n, hy, rfl, rfl⟩ := (powerExponent_eq_ok_iff_exists hk).mp hexponent
    have hn : n ≠ 0 := Int.natAbs_ne_zero.mp hk
    split at h
    · exact Cause.noConfusion (isRejectedAt_at_iff.mp h).1
    split at h
    · next result hpower =>
      obtain ⟨z⟩ := Context.isFinite_power (.finite x) hpower
      obtain ⟨hlong, rfl⟩ := isRejectedAt_bounded_iff.mp h
      exact ⟨rfl, n, hy, hn, hle, .digits hpower hlong⟩
    · next hpower => exact ⟨(isRejectedAt_at_iff.mp h).2, n, hy, hn, hle, .overflow hpower⟩
    · next signal hother hpower =>
      have hsignal := isRejectedAt_signalled_iff.mp (show IsRejectedAt _ (signalled (.error signal))
        from h)
      exact absurd (Except.error.inj hsignal.1) hother
  · rintro ⟨rfl, n, hy, hn, hle, hexceeds⟩
    have hk : n.natAbs ≠ 0 := Int.natAbs_ne_zero.mpr hn
    refine ⟨_, (powerExponent_eq_ok_iff_exists hk).mpr ⟨hle, n, hy, rfl, rfl⟩, ?_⟩
    dsimp only
    rw [if_neg hk, Decimal.isZero, hexceeds.isZero_eq, Bool.false_and, if_neg Bool.false_ne_true]
    cases hexceeds with
    | overflow power_eq =>
      rw [power_eq]
      exact isRejectedAt_at_iff.mpr ⟨rfl, rfl⟩
    | digits power_eq long =>
      rw [power_eq]
      exact isRejectedAt_bounded_iff.mpr ⟨long, rfl⟩

/-! ## Applications -/

/-- **An operator or a unit that is applied** to numbers. -/
inductive Application where
  | operator (op : Operator) (x y : Scaled)
  | unit (u : UnitSuffix) (x : Scaled)

namespace Application

/-- What stands in the line for an application. -/
def lexeme : Application → Lexeme
  | operator op _ _ => .operator op
  | unit u _ => .unit u

/-- What comes of an application. -/
def perform (ctx : Context) (place : ℕ) : Application → Except Failure Decimal
  | operator op x y => op.apply ctx place (.finite x) (.finite y)
  | unit u x => u.apply place (.finite x)

/-- The number that an application comes to, powers apart. -/
def rounded? (ctx : Context) : Application → Option ℚ
  | operator op x y => op.rounded? ctx x.toRat y.toRat
  | unit u x => some (Context.exact.nearest (x.toRat * u.size))

/-- **An application whose result is too large**, with the position that is reported if its
operator or unit stands at `place`. -/
inductive IsOversized (ctx : Context) (place : ℕ) : Application → ℕ → Prop
  | rounded {a : Application} {q : ℚ} {position : ℕ} (rounded_eq : a.rounded? ctx = some q)
      (tooLarge : TooLarge place q position) : IsOversized ctx place a position
  | power {x y : Scaled} {n : ℤ} (exponent_eq : y.toRat = n) (ne_zero : n ≠ 0)
      (le_maxPower : n.natAbs ≤ maxPower) (exceeds : ctx.PowerExceeds x n) :
      IsOversized ctx place (operator .power x y) place

/-- **An application is rejected exactly if its result is too large**, at the position that
belongs to that. -/
theorem isRejectedAt_perform_iff (hp : 1 ≤ ctx.precision) {a : Application} :
    IsRejectedAt position (a.perform ctx place) ↔ a.IsOversized ctx place position := by
  cases a with
  | unit u x =>
    refine u.isRejectedAt_apply_iff.trans ⟨.rounded rfl, ?_⟩
    rintro ⟨heq, h⟩
    obtain rfl := Option.some.inj heq
    exact h
  | operator op x y =>
    by_cases hop : op = .power
    · subst hop
      refine isRejectedAt_powerValue_iff.trans ⟨?_, ?_⟩
      · rintro ⟨rfl, n, hy, hn, hle, hexceeds⟩
        exact .power hy hn hle hexceeds
      · rintro (⟨heq, -⟩ | ⟨hy, hn, hle, hexceeds⟩)
        · cases heq
        · exact ⟨rfl, _, hy, hn, hle, hexceeds⟩
    · refine (op.isRejectedAt_apply_iff hp hop).trans ⟨?_, ?_⟩
      · rintro ⟨q, heq, h⟩
        exact .rounded heq h
      · rintro (⟨heq, h⟩ | -)
        · exact ⟨_, heq, h⟩
        · exact absurd rfl hop

end Application

/-! ## Functions -/

/-- Rounding gives at most the power of ten above the number, or above the smallest exponent. -/
theorem Context.abs_nearest_le_zpow (ctx : Context) (q : ℚ) :
    |ctx.nearest q| ≤ 10 ^ (max (Int.log 10 |q|) minExponent + 1) := by
  obtain ⟨n, hn, heq⟩ := ctx.exists_nearest_eq q
  have hn : |(n : ℚ)| ≤ 10 ^ ctx.precision := by exact_mod_cast hn
  rw [heq, abs_mul, abs_of_pos (by positivity : (0 : ℚ) < 10 ^ ctx.lastPlace q)]
  calc |(n : ℚ)| * 10 ^ ctx.lastPlace q ≤ 10 ^ ctx.precision * 10 ^ ctx.lastPlace q := by gcongr
    _ = 10 ^ (max (Int.log 10 |q|) minExponent + 1) := by
      rw [← zpow_natCast, ← zpow_add₀ (by norm_num), lastPlace, lastExponent, tiny]
      congr 1
      omega

/-- The first digit of a number that is not above a power of ten does not stand above its one. -/
theorem log_le_of_le_zpow {q : ℚ} {e : ℕ} (h : |q| ≤ 10 ^ (e : ℤ)) : Int.log 10 |q| ≤ e := by
  rcases (abs_nonneg q).eq_or_lt with hzero | hpos
  · rw [← hzero, Int.log_zero_right]
    positivity
  · have hmono := Int.log_mono_right (b := 10) hpos h
    have hpow : Int.log 10 ((10 : ℚ) ^ (e : ℤ)) = e := by
      exact_mod_cast Int.log_zpow (R := ℚ) (b := 10) (by norm_num) e
    exact hmono.trans_eq hpow

/-- **No root is too large** for the arithmetic. -/
theorem not_isRejectedAt_squareRoot (hp : 1 ≤ ctx.precision) {x : Scaled} :
    ¬ IsRejectedAt position (ctx.squareRoot place (.finite x)) := by
  rw [Context.squareRoot]
  split
  · exact fun h => Cause.noConfusion (isRejectedAt_at_iff.mp h).1
  · split
    · exact fun h => Cause.noConfusion (isRejectedAt_at_iff.mp h).1
    · next b hb =>
      intro h
      have hheld : |ctx.nearest (b.sqrt.toScaled.withSign x.negative).toRat|
          < 10 ^ (Context.maxExponent + 1) := by
        have hlog := log_le_of_le_zpow (Binary.abs_toRat_root_le hb x.negative)
        refine (ctx.abs_nearest_le_zpow _).trans_lt (zpow_lt_zpow_right₀ (by norm_num) ?_)
        exact add_lt_add_left (max_lt (hlog.trans_lt (by decide)) (by decide)) 1
      have hround := Context.map_toRat_round hp (b.sqrt.toScaled.withSign x.negative)
      rw [of_map_eq_error (isRejectedAt_signalled_iff.mp h).1, Context.deliver,
        if_neg (not_le.mpr hheld)] at hround
      cases hround

/-- **No function is rejected** because of the size of its value. -/
theorem Builtin.not_isRejectedAt_apply (hp : 1 ≤ ctx.precision) {f : Builtin} {x : Scaled} :
    ¬ IsRejectedAt position (f.apply ctx place (.finite x)) := by
  have hinteger (mode : RoundingMode) :
      ¬ IsRejectedAt position (signalled (Context.exact.toInteger mode (.finite x))) := by
    intro h
    have hquantize := of_map_eq_error (isRejectedAt_signalled_iff.mp h).1
    rw [Context.quantize] at hquantize
    split at hquantize
    · cases hquantize
    · cases hquantize
  cases f with
  | sqrt => exact not_isRejectedAt_squareRoot hp
  | abs => exact not_isRejectedAt_ok _
  | floor | ceil | round => exact hinteger _

/-! ## Expressions -/

/-- **What the places are blamed for where a tree is missing something**, or has too much. -/
def Expr.strayCauses : Expr → List Cause
  | .number _ | .answer | .variable _ _ => []
  | .negate operand | .inUnit _ _ operand | .call _ _ operand => operand.strayCauses
  | .binary _ _ left right => left.strayCauses ++ right.strayCauses
  | .missing cause _ => [cause]
  | .thenStray operand cause _ => cause :: operand.strayCauses

/-- **What the evaluation of an expression applies**: each operator and each unit that it comes to
with numbers for all of its operands. `place` is where it stands. -/
inductive Expr.Performs (ctx : Context) (env : Environment) : Expr → ℕ → Application → Prop
  | operator {op : Operator} {place : ℕ} {left right : Expr} {x y : Scaled}
      (left_eval : left.eval ctx env = .ok (.finite x))
      (right_eval : right.eval ctx env = .ok (.finite y)) :
      Performs ctx env (.binary op place left right) place (.operator op x y)
  | unit {u : UnitSuffix} {place : ℕ} {operand : Expr} {x : Scaled}
      (operand_eval : operand.eval ctx env = .ok (.finite x)) :
      Performs ctx env (.inUnit u place operand) place (.unit u x)
  | negate {operand : Expr} {place : ℕ} {a : Application}
      (performs : Performs ctx env operand place a) : Performs ctx env (.negate operand) place a
  | left {op : Operator} {outer place : ℕ} {left right : Expr} {a : Application}
      (performs : Performs ctx env left place a) :
      Performs ctx env (.binary op outer left right) place a
  /-- The right operand is not looked at before the left one has a value. -/
  | right {op : Operator} {outer place : ℕ} {left right : Expr} {x : Decimal} {a : Application}
      (left_eval : left.eval ctx env = .ok x) (performs : Performs ctx env right place a) :
      Performs ctx env (.binary op outer left right) place a
  | inUnit {u : UnitSuffix} {outer place : ℕ} {operand : Expr} {a : Application}
      (performs : Performs ctx env operand place a) :
      Performs ctx env (.inUnit u outer operand) place a
  | argument {f : Builtin} {outer place : ℕ} {argument : Expr} {a : Application}
      (performs : Performs ctx env argument place a) :
      Performs ctx env (.call f outer argument) place a
  | beforeStray {operand : Expr} {cause : Cause} {outer place : ℕ} {a : Application}
      (performs : Performs ctx env operand place a) :
      Performs ctx env (.thenStray operand cause outer) place a

namespace Expr

/-- A rejected application ends the evaluation that comes to it. -/
theorem Performs.isRejectedAt_eval {e : Expr} {a : Application} (h : e.Performs ctx env place a)
    (hrejected : IsRejectedAt position (a.perform ctx place)) :
    IsRejectedAt position (e.eval ctx env) := by
  induction h with
  | operator left_eval right_eval => rwa [eval, left_eval, right_eval]
  | unit operand_eval => rwa [eval, operand_eval]
  | negate _ ih => exact isRejectedAt_map_iff.mpr (ih hrejected)
  | left _ ih => exact isRejectedAt_bind_iff.mpr (.inl (ih hrejected))
  | right left_eval _ ih =>
    refine isRejectedAt_bind_iff.mpr (.inr ⟨_, left_eval, ?_⟩)
    exact isRejectedAt_bind_iff.mpr (.inl (ih hrejected))
  | inUnit _ ih => exact isRejectedAt_bind_iff.mpr (.inl (ih hrejected))
  | argument _ ih => exact isRejectedAt_bind_iff.mpr (.inl (ih hrejected))
  | beforeStray _ ih => exact isRejectedAt_bind_iff.mpr (.inl (ih hrejected))

/-- **An evaluation that is rejected has come to an application that is.** -/
theorem exists_performs_of_isRejectedAt (hp : 1 ≤ ctx.precision) (henv : env.IsFinite) {e : Expr}
    (hstray : .resultTooLarge ∉ e.strayCauses) (h : IsRejectedAt position (e.eval ctx env)) :
    ∃ place a, e.Performs ctx env place a ∧ IsRejectedAt position (a.perform ctx place) := by
  induction e with
  | number numeral => exact absurd h (not_isRejectedAt_ok _)
  | answer => exact absurd h (not_isRejectedAt_ok _)
  | «variable» name outer =>
    rw [eval] at h
    split at h
    · exact absurd h (not_isRejectedAt_ok _)
    · exact Cause.noConfusion (isRejectedAt_at_iff.mp h).1
  | negate operand ih =>
    obtain ⟨place, a, hperforms, hrejected⟩ := ih hstray (isRejectedAt_map_iff.mp h)
    exact ⟨place, a, .negate hperforms, hrejected⟩
  | binary op outer left right ihLeft ihRight =>
    rw [strayCauses, List.mem_append, not_or] at hstray
    obtain hleft | ⟨x, hx, h⟩ := isRejectedAt_bind_iff.mp h
    · obtain ⟨place, a, hperforms, hrejected⟩ := ihLeft hstray.1 hleft
      exact ⟨place, a, .left hperforms, hrejected⟩
    obtain hright | ⟨y, hy, h⟩ := isRejectedAt_bind_iff.mp h
    · obtain ⟨place, a, hperforms, hrejected⟩ := ihRight hstray.2 hright
      exact ⟨place, a, .right hx hperforms, hrejected⟩
    obtain ⟨x⟩ := isFinite_eval henv hx
    obtain ⟨y⟩ := isFinite_eval henv hy
    exact ⟨outer, .operator op x y, .operator hx hy, h⟩
  | inUnit u outer operand ih =>
    obtain hoperand | ⟨x, hx, h⟩ := isRejectedAt_bind_iff.mp h
    · obtain ⟨place, a, hperforms, hrejected⟩ := ih hstray hoperand
      exact ⟨place, a, .inUnit hperforms, hrejected⟩
    obtain ⟨x⟩ := isFinite_eval henv hx
    exact ⟨outer, .unit u x, .unit hx, h⟩
  | call f outer argument ih =>
    obtain hargument | ⟨x, hx, h⟩ := isRejectedAt_bind_iff.mp h
    · obtain ⟨place, a, hperforms, hrejected⟩ := ih hstray hargument
      exact ⟨place, a, .argument hperforms, hrejected⟩
    obtain ⟨x⟩ := isFinite_eval henv hx
    exact absurd h (f.not_isRejectedAt_apply hp)
  | missing cause outer =>
    obtain ⟨rfl, -⟩ := isRejectedAt_at_iff.mp h
    exact absurd (List.mem_singleton_self _) hstray
  | thenStray operand cause outer ih =>
    rw [strayCauses, List.mem_cons, not_or] at hstray
    obtain hoperand | ⟨x, -, h⟩ := isRejectedAt_bind_iff.mp h
    · obtain ⟨place, a, hperforms, hrejected⟩ := ih hstray.2 hoperand
      exact ⟨place, a, .beforeStray hperforms, hrejected⟩
    · exact absurd (isRejectedAt_at_iff.mp h).1.symm hstray.1

/-- **Where an evaluation is rejected**, and that it is rejected for nothing else: it comes to
an operator or a unit whose result is too large. -/
theorem isRejectedAt_eval_iff (hp : 1 ≤ ctx.precision) (henv : env.IsFinite) {e : Expr}
    (hstray : .resultTooLarge ∉ e.strayCauses) :
    IsRejectedAt position (e.eval ctx env)
      ↔ ∃ place a, e.Performs ctx env place a ∧ a.IsOversized ctx place position := by
  constructor
  · intro h
    obtain ⟨place, a, hperforms, hrejected⟩ := exists_performs_of_isRejectedAt hp henv hstray h
    exact ⟨place, a, hperforms, (Application.isRejectedAt_perform_iff hp).mp hrejected⟩
  · rintro ⟨place, a, hperforms, hoversized⟩
    exact hperforms.isRejectedAt_eval ((Application.isRejectedAt_perform_iff hp).mpr hoversized)

end Expr

end Reckoner
