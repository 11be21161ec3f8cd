import Reckoner.Proofs.Decimal.SquareRoot
import Reckoner.Proofs.Expr.Exact

/-!
# The limit on digits

No result of an operator or a unit has more than ten thousand digits before the
point. What that comes to for whole expressions is said in two ways.

*Nothing else changes.* `Expr.unlimited` evaluates an expression without the
limit. With it, the expression either ends in the same way or is rejected as too
large (`Expr.limits_eval`).

*Nothing larger comes out*, provided that nothing larger is let in
(`Expr.isWithinLimit_eval`). The limit does not look at every number: a number
that is written down passes unseen, and so does an integer that a function rounds
to, which may be one digit longer than its argument. `Expr.Escapes` is a part of an
expression where a number beyond the limit comes in like this. Signs and absolute
values keep the size, roots are small by themselves, and everything else is
checked.
-/

namespace Reckoner

/-- **A decimal within the limit**: a number of no more than ten thousand digits
before the point. -/
def Decimal.IsWithinLimit (x : Decimal) : Prop :=
  ∃ y : Scaled, x = .finite y ∧ |y.toRat| < 10 ^ maxResultDigits

/-- **An environment within the limit**: the last answer and every variable. -/
structure Environment.IsWithinLimit (env : Environment) : Prop where
  answer : env.answer.IsWithinLimit
  lookup : ∀ name x, env.lookup name = some x → x.IsWithinLimit

variable {ctx : Context} {env : Environment} {position : ℕ} {x y z : Decimal}

namespace Decimal

theorem IsWithinLimit.isFinite (h : x.IsWithinLimit) : x.IsFinite := by
  obtain ⟨a, rfl, -⟩ := h
  exact .finite a

theorem IsWithinLimit.negate (h : x.IsWithinLimit) : x.negate.IsWithinLimit := by
  obtain ⟨a, rfl, ha⟩ := h
  exact ⟨a.negate, rfl, by rwa [a.toRat_negate, abs_neg]⟩

/-- A natural number below the limit. -/
theorem isWithinLimit_ofNat {n : ℕ} (h : n < 10 ^ maxResultDigits) :
    (ofNat n).IsWithinLimit := by
  refine ⟨.ofNat n, rfl, ?_⟩
  rw [Scaled.abs_toRat, Scaled.ofNat, zpow_zero, mul_one]
  exact_mod_cast h

/-- What is within the limit passes the check. -/
theorem IsWithinLimit.bounded_eq_ok (h : x.IsWithinLimit) (position : ℕ) :
    bounded position x = .ok x := by
  obtain ⟨a, rfl, ha⟩ := h
  exact Reckoner.bounded_eq_ok ha

/-- What has passed the check is within the limit. -/
theorem isWithinLimit_of_bounded (hx : x.IsFinite) (h : bounded position x = .ok z) :
    z.IsWithinLimit := by
  obtain ⟨a⟩ := hx
  rw [bounded] at h
  split at h
  · cases h
  · next hsmall =>
    obtain rfl := Except.ok.inj h
    refine ⟨a, rfl, ?_⟩
    cases hzero : a.isZero with
    | true =>
      rw [a.toRat_eq_zero_iff.mpr hzero, abs_zero]
      positivity
    | false =>
      rw [hzero, Bool.not_false, Bool.true_and, decide_eq_true_eq, not_le] at hsmall
      rw [← zpow_natCast]
      exact a.abs_toRat_lt.trans_le (zpow_le_zpow_right₀ (by norm_num) hsmall)

end Decimal

/-! ## Evaluation without the limit -/

/-- A power of any size. -/
def unlimitedPower (ctx : Context) (position : Nat) (base exponent : Decimal) :
    Except Failure Decimal := do
  let (n, negative) ← powerExponent position exponent
  if n = 0 then .ok (.ofNat 1)
  else if base.isZero && negative then .error (.at .divisionByZero position)
  else
    match ctx.power base n negative with
    | .ok result => .ok result
    | .error .overflow => .error (.at .resultTooLarge position)
    | .error signal => .error (.signal signal)

/-- The value of an operator, of any size. -/
def Operator.unlimited (ctx : Context) (op : Operator) (position : Nat) (x y : Decimal) :
    Except Failure Decimal :=
  match op with
  | .add => signalled (Context.exact.add x y)
  | .subtract => signalled (Context.exact.sub x y)
  | .multiply => signalled (Context.exact.mul x y)
  | .divide =>
    if y.isZero then .error (.at .divisionByZero position) else signalled (ctx.quotient x y)
  | .remainder =>
    if y.isZero then .error (.at .moduloByZero position)
    else signalled (Context.exact.rem x y)
  | .power => unlimitedPower ctx position x y

/-- **The value of an expression without the limit on digits.** -/
def Expr.unlimited (ctx : Context) (env : Environment) : Expr → Except Failure Decimal
  | .negate operand => (operand.unlimited ctx env).map Decimal.negate
  | .binary op position left right => do
    let x ← left.unlimited ctx env
    let y ← right.unlimited ctx env
    op.unlimited ctx position x y
  | .inUnit u _ operand => do
    let x ← operand.unlimited ctx env
    signalled (Context.exact.mul x (.ofNat u.size))
  | .call f position argument => do
    let x ← argument.unlimited ctx env
    f.apply ctx position x
  | .thenStray operand cause position => do
    let _ ← operand.unlimited ctx env
    .error (.at cause position)
  | e => e.eval ctx env

/-- **An operator checks its result, and does nothing else about the limit.** -/
theorem Operator.apply_eq_bind (op : Operator) :
    op.apply ctx position x y = op.unlimited ctx position x y >>= bounded position := by
  cases op with
  | add => rfl
  | subtract => rfl
  | multiply => rfl
  | divide =>
    rw [apply, unlimited]
    split <;> rfl
  | remainder =>
    rw [apply, unlimited]
    split <;> rfl
  | power =>
    rw [apply, unlimited, powerValue, unlimitedPower, bind_assoc]
    congr 1
    funext power
    obtain ⟨n, negative⟩ := power
    dsimp only
    split
    · have hone : (Decimal.ofNat 1).IsWithinLimit :=
        Decimal.isWithinLimit_ofNat (Nat.one_lt_pow (by decide) (by norm_num))
      exact (hone.bounded_eq_ok position).symm
    · split
      · rfl
      · cases ctx.power x n negative with
        | ok result => rfl
        | error signal => cases signal <;> rfl

/-! ## What the limit changes -/

/-- **A computation is rejected as too large.** -/
def IsRejected {α : Type} (outcome : Except Failure α) : Prop :=
  ∃ failure position,
    outcome = .error failure ∧ failure.toFault = .evaluation .resultTooLarge position

/-- **One computation is the other under the limit**: it is rejected as too large,
or ends as the other one does. -/
def Limits {α : Type} (limited full : Except Failure α) : Prop :=
  IsRejected limited ∨ limited = full

namespace Limits

variable {α β : Type} {limited full : Except Failure α}

theorem refl (full : Except Failure α) : Limits full full := .inr rfl

/-- **Under the limit step by step.** -/
theorem bind {next next' : α → Except Failure β} (h : Limits limited full)
    (hnext : ∀ a, Limits (next a) (next' a)) : Limits (limited >>= next) (full >>= next') := by
  rcases h with ⟨failure, position, rfl, hfailure⟩ | rfl
  · exact .inl ⟨failure, position, rfl, hfailure⟩
  · cases limited with
    | error failure => exact .inr rfl
    | ok a => exact hnext a

theorem map (f : α → β) (h : Limits limited full) : Limits (limited.map f) (full.map f) := by
  rcases h with ⟨failure, position, rfl, hfailure⟩ | rfl
  · exact .inl ⟨failure, position, rfl, hfailure⟩
  · exact .inr rfl

/-- The check lets a result through or rejects it. -/
theorem bounded (position : ℕ) (x : Decimal) : Limits (bounded position x) (.ok x) := by
  unfold Reckoner.bounded
  split
  · split
    · exact .inl ⟨_, position, rfl, rfl⟩
    · exact .inr rfl
  · exact .inr rfl

/-- A checked computation is the computation under the limit. -/
theorem bind_bounded (position : ℕ) (full : Except Failure Decimal) :
    Limits (full >>= Reckoner.bounded position) full := by
  cases full with
  | error failure => exact .inr rfl
  | ok x => exact bounded position x

end Limits

/-- **The limit rejects expressions and changes nothing else.** -/
theorem Expr.limits_eval (ctx : Context) (env : Environment) (e : Expr) :
    Limits (e.eval ctx env) (e.unlimited ctx env) := by
  induction e with
  | number numeral => exact .refl _
  | answer => exact .refl _
  | «variable» name position => exact .refl _
  | negate operand ih => exact ih.map Decimal.negate
  | binary op position left right ihLeft ihRight =>
    refine ihLeft.bind fun x => ihRight.bind fun y => ?_
    rw [Operator.apply_eq_bind]
    exact .bind_bounded position _
  | inUnit u position operand ih => exact ih.bind fun x => .bind_bounded position _
  | call f position argument ih => exact ih.bind fun x => .refl _
  | missing cause position => exact .refl _
  | thenStray operand cause position ih => exact ih.bind fun _ => .refl _

/-! ## What the limit ensures -/

/-- **A number beyond the limit comes in** at this part of an expression: it is
written down, or a function rounds to it. -/
def Expr.Escapes (ctx : Context) (env : Environment) : Expr → Prop
  | .number numeral => 10 ^ maxResultDigits ≤ |numeral.value.toRat|
  | .call f _ argument => ∃ a q, argument.eval ctx env = .ok (.finite a)
      ∧ f.exact a.toRat = some q ∧ 10 ^ maxResultDigits ≤ |q|
  | _ => False

/-- The result of an operator is within the limit. -/
theorem Operator.isWithinLimit_apply {op : Operator} (hx : x.IsFinite) (hy : y.IsFinite)
    (h : op.apply ctx position x y = .ok z) : z.IsWithinLimit := by
  have hz := Operator.isFinite_apply hx hy h
  rw [apply_eq_bind] at h
  obtain ⟨result, -, hbounded⟩ := exists_of_bind_eq_ok h
  obtain rfl := eq_of_bounded_eq_ok hbounded
  exact Decimal.isWithinLimit_of_bounded hz hbounded

/-- A unit gives a result within the limit. -/
theorem UnitSuffix.isWithinLimit_apply {u : UnitSuffix} (hx : x.IsFinite)
    (h : u.apply position x = .ok z) : z.IsWithinLimit := by
  have hz := Context.isFinite_mul hx (.finite (.ofNat u.size)) (eq_ok_of_bounded h)
  obtain ⟨result, -, hbounded⟩ := exists_of_bind_eq_ok h
  obtain rfl := eq_of_bounded_eq_ok hbounded
  exact Decimal.isWithinLimit_of_bounded hz hbounded

/-- A root is within the limit. -/
theorem isWithinLimit_squareRoot (hx : x.IsFinite)
    (h : ctx.squareRoot position x = .ok z) : z.IsWithinLimit := by
  obtain ⟨y⟩ := Context.isFinite_squareRoot hx h
  obtain ⟨a⟩ := hx
  refine ⟨y, rfl, (Context.abs_toRat_lt_of_squareRoot h).trans_le ?_⟩
  rw [← zpow_natCast]
  exact zpow_le_zpow_right₀ (by norm_num) (by decide)

/-- A function gives a result within the limit, unless it rounds to a number
beyond it. -/
theorem Builtin.isWithinLimit_apply {f : Builtin} {a : Scaled}
    (hexact : ∀ q, f.exact a.toRat = some q → |q| < 10 ^ maxResultDigits)
    (h : f.apply ctx position (.finite a) = .ok z) : z.IsWithinLimit := by
  by_cases hsqrt : f = .sqrt
  · subst hsqrt
    exact isWithinLimit_squareRoot (.finite a) h
  · obtain ⟨y, rfl, hy⟩ := Builtin.equals_exact hsqrt h
    exact ⟨y, rfl, hexact _ hy⟩

namespace Expr

/-- **The value of an expression is within the limit**, if the environment is and
no number beyond the limit comes in at a part of the expression. -/
theorem isWithinLimit_eval (henv : env.IsWithinLimit) {e : Expr}
    (hparts : ∀ part ∈ e.parts, ¬ part.Escapes ctx env) (h : e.eval ctx env = .ok x) :
    x.IsWithinLimit := by
  induction e generalizing x with
  | number numeral =>
    obtain rfl := Except.ok.inj h
    exact ⟨numeral.value, rfl, not_le.mp (hparts _ (mem_parts _))⟩
  | answer =>
    obtain rfl := Except.ok.inj h
    exact henv.answer
  | «variable» name position =>
    rw [eval] at h
    split at h
    · next value hvalue =>
      obtain rfl := Except.ok.inj h
      exact henv.lookup name value hvalue
    · cases h
  | negate operand ih =>
    rw [parts, List.forall_mem_cons] at hparts
    obtain ⟨y, hy, rfl⟩ := exists_of_map_eq_ok h
    exact (ih hparts.2 hy).negate
  | binary op position left right ihLeft ihRight =>
    rw [parts, List.forall_mem_cons, List.forall_mem_append] at hparts
    obtain ⟨y, hy, h⟩ := exists_of_bind_eq_ok h
    obtain ⟨z, hz, h⟩ := exists_of_bind_eq_ok h
    exact Operator.isWithinLimit_apply (ihLeft hparts.2.1 hy).isFinite
      (ihRight hparts.2.2 hz).isFinite h
  | inUnit u position operand ih =>
    rw [parts, List.forall_mem_cons] at hparts
    obtain ⟨y, hy, h⟩ := exists_of_bind_eq_ok h
    exact UnitSuffix.isWithinLimit_apply (ih hparts.2 hy).isFinite h
  | call f position argument ih =>
    rw [parts, List.forall_mem_cons] at hparts
    obtain ⟨y, hy, h⟩ := exists_of_bind_eq_ok h
    obtain ⟨a⟩ := (ih hparts.2 hy).isFinite
    refine Builtin.isWithinLimit_apply (fun q hq => ?_) h
    exact not_le.mp fun hle => hparts.1 ⟨a, q, hy, hq, hle⟩
  | missing cause position => cases h
  | thenStray operand cause position ih =>
    obtain ⟨y, -, h⟩ := exists_of_bind_eq_ok h
    cases h

end Expr

end Reckoner
