import Reckoner.Proofs.Decimal.Rounding
import Reckoner.Proofs.Expr.Finite

/-!
# Expressions that are computed exactly

Sums, products, remainders, units and the functions to integers need no
rounding: the context they are computed in has more digits than any number in
reach. `Expr.exact` is the value of an expression in the rational numbers, where
there are no digits to run out of, and `Expr.isComputed_parts` says that an
expression without division, power or root, if it has a value at all, has that
one – and so has each of its parts.

What can keep it from being exact is an intermediate result that the context of
exact arithmetic does not hold (`Context.Holds`); that this does not happen is
the hypothesis `Expr.IsHeld`. Nothing is assumed of the quotient that a
remainder cuts to an integer: it is never formed, and where it would be too long
the expression has no value.

The induction is on the expression. Each operation has one lemma that takes its
operands, as numbers, to the exact result (`Operator.equals_exact` and its
companions). The converse, `Expr.exists_eval`, lists in `Expr.Fits` the limits
that may keep an expression from having a value.
-/

namespace Reckoner

/-! ## Exact values -/

/-- **The value of an operator in the rational numbers.** A quotient need not
have digits that end, and is left out with the powers; nothing is left when zero
is the divisor of a remainder. -/
def Operator.exact (op : Operator) (a b : ℚ) : Option ℚ :=
  match op with
  | .add => some (a + b)
  | .subtract => some (a - b)
  | .multiply => some (a * b)
  | .remainder => if b = 0 then none else some (a - b * truncated (a / b))
  | .divide | .power => none

/-- **The value of a function in the rational numbers.** Roots are left out. -/
def Builtin.exact (f : Builtin) (a : ℚ) : Option ℚ :=
  match f with
  | .sqrt => none
  | .abs => some |a|
  | .floor => some ⌊a⌋
  | .ceil => some ⌈a⌉
  | .round => some (RoundingMode.halfUp.toInt a)

/-- The rational number that a decimal stands for, if it is finite. -/
def Decimal.toRat? : Decimal → Option ℚ
  | .finite a => some a.toRat
  | _ => none

namespace Expr

/-- **The exact value of an expression**, if it is made of exact operations. -/
def exact (env : Environment) : Expr → Option ℚ
  | .number numeral => some numeral.value.toRat
  | .answer => env.answer.toRat?
  | .variable name _ => env.lookup name >>= Decimal.toRat?
  | .negate operand => do
    let a ← operand.exact env
    some (-a)
  | .binary op _ left right => do
    let a ← left.exact env
    let b ← right.exact env
    op.exact a b
  | .inUnit u _ operand => do
    let a ← operand.exact env
    some (a * u.size)
  | .call f _ argument => do
    let a ← argument.exact env
    f.exact a
  | .missing _ _ | .thenStray _ _ _ => none

/-- **The parts of an expression**, itself included. -/
def parts : Expr → List Expr
  | .number numeral => [.number numeral]
  | .answer => [.answer]
  | .variable name position => [.variable name position]
  | .negate operand => .negate operand :: operand.parts
  | .binary op position left right =>
    .binary op position left right :: (left.parts ++ right.parts)
  | .inUnit u position operand => .inUnit u position operand :: operand.parts
  | .call f position argument => .call f position argument :: argument.parts
  | .missing cause position => [.missing cause position]
  | .thenStray operand cause position => .thenStray operand cause position :: operand.parts

/-- **Every intermediate result is held** by the context of exact arithmetic. -/
def IsHeld (env : Environment) (e : Expr) : Prop :=
  ∀ part ∈ e.parts, ∀ q, part.exact env = some q → Context.exact.Holds q

/-- An expression without division, power, root or fault. -/
def IsExact : Expr → Prop
  | .number _ | .answer | .variable _ _ => True
  | .negate operand => operand.IsExact
  | .binary op _ left right =>
    (op ≠ .divide ∧ op ≠ .power) ∧ left.IsExact ∧ right.IsExact
  | .inUnit _ _ operand => operand.IsExact
  | .call f _ argument => f ≠ .sqrt ∧ argument.IsExact
  | .missing _ _ | .thenStray _ _ _ => False

theorem mem_parts (e : Expr) : e ∈ e.parts := by
  cases e <;> simp [parts]

end Expr

/-! ## Operations -/

section Operations

variable {ctx : Context} {position : Nat} {a b : Scaled} {z : Decimal}

/-- The decimal `z` is a number of the value `q`. -/
def Decimal.Equals (z : Decimal) (q : Option ℚ) : Prop :=
  ∃ y : Scaled, z = .finite y ∧ q = some y.toRat

/-- The result of an operation that is exact up to the limits of its context. -/
theorem equals_of_round {x : Scaled} (h : (ctx.round x).map .finite = .ok z)
    (hheld : ctx.Holds x.toRat) : z.Equals (some x.toRat) := by
  obtain ⟨y, hy, rfl⟩ := exists_of_map_eq_ok h
  exact ⟨y, rfl, congrArg some (Context.toRat_round hy hheld).symm⟩

theorem equals_of_add (h : ctx.add (.finite a) (.finite b) = .ok z)
    (hheld : ctx.Holds (a.toRat + b.toRat)) : z.Equals (some (a.toRat + b.toRat)) := by
  rw [← a.toRat_add b] at hheld ⊢
  exact equals_of_round h hheld

theorem equals_of_mul (h : ctx.mul (.finite a) (.finite b) = .ok z)
    (hheld : ctx.Holds (a.toRat * b.toRat)) : z.Equals (some (a.toRat * b.toRat)) := by
  rw [← a.toRat_mul b] at hheld ⊢
  exact equals_of_round h hheld

/-- **An operator other than division and power gives the exact value**, if its
context holds that. -/
theorem Operator.equals_exact {op : Operator} (hop : op ≠ .divide ∧ op ≠ .power)
    (h : op.apply ctx position (.finite a) (.finite b) = .ok z)
    (hheld : ∀ q, op.exact a.toRat b.toRat = some q → Context.exact.Holds q) :
    z.Equals (op.exact a.toRat b.toRat) := by
  cases op with
  | add => exact equals_of_add (eq_ok_of_bounded h) (hheld _ rfl)
  | subtract =>
    have hsub : a.toRat - b.toRat = a.toRat + b.negate.toRat := by
      rw [b.toRat_negate, sub_eq_add_neg]
    rw [exact, hsub]
    exact equals_of_add (eq_ok_of_bounded h) (hsub ▸ hheld _ rfl)
  | multiply => exact equals_of_mul (eq_ok_of_bounded h) (hheld _ rfl)
  | divide => exact absurd rfl hop.1
  | remainder =>
    rw [apply] at h
    split at h
    · cases h
    · next hb =>
      have hb' : b.isZero = false := Bool.eq_false_of_not_eq_true hb
      have hne : b.toRat ≠ 0 := by
        rw [Ne, b.toRat_eq_zero_iff, hb']
        exact Bool.false_ne_true
      have h := eq_ok_of_bounded h
      rw [Context.rem] at h
      split at h
      · cases h
      · rw [exact, if_neg hne] at hheld ⊢
        rw [← a.toRat_rem b hb'] at hheld ⊢
        exact equals_of_round h (hheld _ rfl)
  | power => exact absurd rfl hop.2

theorem UnitSuffix.toRat_size (u : UnitSuffix) : (Scaled.ofNat u.size).toRat = u.size := by
  simp [Scaled.ofNat, Scaled.toRat, Scaled.sign]

/-- A unit multiplies by its size. -/
theorem UnitSuffix.equals_mul_size {u : UnitSuffix}
    (h : u.apply position (.finite a) = .ok z)
    (hheld : Context.exact.Holds (a.toRat * u.size)) :
    z.Equals (some (a.toRat * u.size)) := by
  rw [← u.toRat_size] at hheld ⊢
  exact equals_of_mul (eq_ok_of_bounded h) hheld

/-- Rounding to an integer needs no room: either the context has it or the
operation fails. -/
theorem equals_of_toInteger {mode : RoundingMode}
    (h : signalled (ctx.toInteger mode (.finite a)) = .ok z) :
    z.Equals (some (mode.toInt a.toRat)) := by
  obtain ⟨y, hy, rfl⟩ := exists_of_map_eq_ok (of_mapError_eq_ok h)
  refine ⟨y, rfl, ?_⟩
  rw [Context.quantize] at hy
  split at hy
  · cases hy
  · obtain rfl := Except.ok.inj hy
    rw [a.toRat_withExponent, zpow_zero, div_one, mul_one]

/-- **A function other than the root gives the exact value.** -/
theorem Builtin.equals_exact {f : Builtin} (hf : f ≠ .sqrt)
    (h : f.apply ctx position (.finite a) = .ok z) : z.Equals (f.exact a.toRat) := by
  cases f with
  | sqrt => exact absurd rfl hf
  | abs => exact ⟨a.abs, (Except.ok.inj h).symm, congrArg some a.toRat_abs.symm⟩
  | floor => exact equals_of_toInteger h
  | ceil => exact equals_of_toInteger h
  | round => exact equals_of_toInteger h

end Operations

/-! ## Expressions -/

namespace Expr

variable {ctx : Context} {env : Environment}

/-- **An expression is computed exactly**: it has a value, and that is the
exact one. -/
def IsComputed (ctx : Context) (env : Environment) (e : Expr) : Prop :=
  ∃ z, e.eval ctx env = .ok z ∧ z.Equals (e.exact env)

theorem IsComputed.exists_number {e : Expr} (h : e.IsComputed ctx env) :
    ∃ y, e.eval ctx env = .ok (.finite y) ∧ e.exact env = some y.toRat := by
  obtain ⟨z, hz, y, rfl, hy⟩ := h
  exact ⟨y, hz, hy⟩

theorem isComputed_variable (henv : env.IsFinite) {name : String} {position : Nat} {x : Decimal}
    (h : (Expr.variable name position).eval ctx env = .ok x) :
    (Expr.variable name position).IsComputed ctx env := by
  refine ⟨x, h, ?_⟩
  rw [eval] at h
  split at h
  · next value hvalue =>
    obtain rfl := Except.ok.inj h
    obtain ⟨y⟩ := henv.lookup name value hvalue
    rw [exact, hvalue]
    exact ⟨y, rfl, rfl⟩
  · cases h

/-- **No operation of an expression rounds**: if it has a value, every part of
it has one, and each is exact. -/
theorem isComputed_parts (henv : env.IsFinite) {e : Expr} (he : e.IsExact)
    (hheld : e.IsHeld env) {x : Decimal} (h : e.eval ctx env = .ok x) :
    ∀ part ∈ e.parts, part.IsComputed ctx env := by
  induction e generalizing x with
  | number numeral =>
    rw [parts, List.forall_mem_singleton]
    exact ⟨_, rfl, _, rfl, rfl⟩
  | answer =>
    rw [parts, List.forall_mem_singleton]
    obtain ⟨y, hanswer⟩ := henv.answer.exists_number
    rw [IsComputed, eval, exact, hanswer]
    exact ⟨_, rfl, _, rfl, rfl⟩
  | «variable» name position =>
    rw [parts, List.forall_mem_singleton]
    exact isComputed_variable henv h
  | negate operand ih =>
    rw [IsHeld, parts, List.forall_mem_cons] at hheld
    obtain ⟨y, hy, -⟩ := exists_of_map_eq_ok h
    have hparts := ih he hheld.2 hy
    obtain ⟨a, ha, hexact⟩ := (hparts operand operand.mem_parts).exists_number
    rw [parts, List.forall_mem_cons]
    refine ⟨⟨.finite a.negate, ?_, a.negate, rfl, ?_⟩, hparts⟩
    · rw [eval, ha]
      rfl
    · rw [exact, hexact, a.toRat_negate]
      rfl
  | binary op position left right ihLeft ihRight =>
    rw [IsHeld, parts, List.forall_mem_cons, List.forall_mem_append] at hheld
    obtain ⟨y, hy, hrest⟩ := exists_of_bind_eq_ok h
    obtain ⟨z, hz, happly⟩ := exists_of_bind_eq_ok hrest
    have hleft := ihLeft he.2.1 hheld.2.1 hy
    have hright := ihRight he.2.2 hheld.2.2 hz
    -- the operands are parts of themselves, so they are computed exactly
    obtain ⟨a, ha, ha'⟩ := (hleft left left.mem_parts).exists_number
    obtain ⟨b, hb, hb'⟩ := (hright right right.mem_parts).exists_number
    obtain rfl := Except.ok.inj (hy.symm.trans ha)
    obtain rfl := Except.ok.inj (hz.symm.trans hb)
    have hexact : (Expr.binary op position left right).exact env = op.exact a.toRat b.toRat := by
      rw [exact, ha', hb']
      rfl
    rw [parts, List.forall_mem_cons, List.forall_mem_append]
    refine ⟨⟨x, h, ?_⟩, hleft, hright⟩
    rw [hexact] at hheld ⊢
    exact Operator.equals_exact he.1 happly hheld.1
  | inUnit u position operand ih =>
    rw [IsHeld, parts, List.forall_mem_cons] at hheld
    obtain ⟨y, hy, happly⟩ := exists_of_bind_eq_ok h
    have hparts := ih he hheld.2 hy
    obtain ⟨a, ha, ha'⟩ := (hparts operand operand.mem_parts).exists_number
    obtain rfl := Except.ok.inj (hy.symm.trans ha)
    have hexact : (Expr.inUnit u position operand).exact env = some (a.toRat * u.size) := by
      rw [exact, ha']
      rfl
    rw [parts, List.forall_mem_cons]
    refine ⟨⟨x, h, ?_⟩, hparts⟩
    rw [hexact] at hheld ⊢
    exact UnitSuffix.equals_mul_size happly (hheld.1 _ rfl)
  | call f position argument ih =>
    rw [IsHeld, parts, List.forall_mem_cons] at hheld
    obtain ⟨y, hy, happly⟩ := exists_of_bind_eq_ok h
    have hparts := ih he.2 hheld.2 hy
    obtain ⟨a, ha, ha'⟩ := (hparts argument argument.mem_parts).exists_number
    obtain rfl := Except.ok.inj (hy.symm.trans ha)
    have hexact : (Expr.call f position argument).exact env = f.exact a.toRat := by
      rw [exact, ha']
      rfl
    rw [parts, List.forall_mem_cons]
    refine ⟨⟨x, h, ?_⟩, hparts⟩
    rw [hexact]
    exact Builtin.equals_exact he.1 happly
  | missing cause position => cases he
  | thenStray operand cause position => cases he

end Expr

/-! ## When there is a value

An exact expression has no value where it has no exact one – a variable is not
defined, zero divides a remainder – and where a result is beyond a limit of the
calculator. There is no other reason. -/

/-- **The limits on an operator**: ten thousand digits before the point, and, for a
remainder, a quotient that the context of exact arithmetic has room for. -/
def Operator.Fits (op : Operator) (a b : ℚ) : Prop :=
  (∀ q, op.exact a b = some q → |q| < 10 ^ maxResultDigits)
    ∧ (op = .remainder → |truncated (a / b)| < 10 ^ Context.exact.precision)

/-- **The limits on a function**: an integer near a number must have room in the
context of exact arithmetic. -/
def Builtin.Fits (f : Builtin) (a : ℚ) : Prop :=
  f = .abs ∨ |a| < 10 ^ Context.exact.precision

/-- **The limits on an expression**, those of its outermost operation. -/
def Expr.Fits (env : Environment) : Expr → Prop
  | .binary op _ left right =>
    ∀ a b, left.exact env = some a → right.exact env = some b → op.Fits a b
  | .inUnit u _ operand =>
    ∀ a, operand.exact env = some a → |a * u.size| < 10 ^ maxResultDigits
  | .call f _ argument => ∀ a, argument.exact env = some a → f.Fits a
  | _ => True

section Limits

variable {ctx : Context} {position : Nat} {a b : Scaled} {q : ℚ}

/-- A number of no more digits than a result may have passes the check. -/
theorem bounded_eq_ok (h : |a.toRat| < 10 ^ maxResultDigits) :
    bounded position (.finite a) = .ok (.finite a) := by
  refine if_neg ?_
  rw [Bool.and_eq_true, Bool.not_eq_true', decide_eq_true_eq, not_and, not_le]
  intro hzero
  rw [← zpow_natCast] at h
  exact Scaled.adjusted_lt hzero h

/-- A number that the context holds and that is not too large for a result is the
outcome of a rounded operation. -/
theorem exists_bounded_round {x : Scaled} (hx : x.toRat = q) (hheld : ctx.Holds q)
    (hlt : |q| < 10 ^ maxResultDigits) :
    ∃ z, (signalled ((ctx.round x).map .finite) >>= bounded position) = .ok z := by
  subst hx
  have hdigits : (maxResultDigits : ℤ) ≤ Context.maxExponent + 1 := by decide
  have htop : |x.toRat| < 10 ^ (Context.maxExponent + 1) := by
    rw [← zpow_natCast] at hlt
    exact hlt.trans_le (zpow_le_zpow_right₀ (by norm_num) hdigits)
  obtain ⟨y, hy⟩ := Context.exists_round hheld htop
  rw [← Context.toRat_round hy hheld] at hlt
  rw [hy]
  exact ⟨_, bounded_eq_ok hlt⟩

/-- The remainder is formed if the context has room for the quotient. -/
theorem Context.rem_eq_round (hb : b.isZero = false)
    (h : |truncated (a.toRat / b.toRat)| < 10 ^ ctx.precision) :
    ctx.rem (.finite a) (.finite b) = (ctx.round (a.rem b)).map .finite := by
  refine if_neg ?_
  rw [Bool.and_eq_true, Bool.not_eq_true', decide_eq_true_eq, not_and, not_lt]
  intro ha
  -- digits this far apart belong to a quotient of more digits than there is room for
  by_contra! hlt
  refine absurd h (not_lt.mpr ?_)
  have hpos : 0 < |b.toRat| := by
    rw [abs_pos, Ne, b.toRat_eq_zero_iff, hb]
    exact Bool.false_ne_true
  rw [abs_truncated, Int.le_floor, abs_div, le_div_iff₀ hpos]
  calc ((10 ^ ctx.precision : ℤ) : ℚ) * |b.toRat|
      ≤ 10 ^ ctx.precision * 10 ^ (b.adjusted + 1) := by
        rw [Int.cast_pow, Int.cast_ofNat]
        exact mul_le_mul_of_nonneg_left b.abs_toRat_lt.le (by positivity)
    _ = 10 ^ (ctx.precision + (b.adjusted + 1)) := by
        rw [zpow_add₀ (by norm_num) (ctx.precision : ℤ), zpow_natCast]
    _ ≤ 10 ^ a.adjusted := zpow_le_zpow_right₀ (by norm_num) (by omega)
    _ ≤ |a.toRat| := a.pow_adjusted_le ha

/-- A number is rounded to an integer if the context has room for it. -/
theorem Context.exists_toInteger (mode : RoundingMode) (h : |a.toRat| < 10 ^ ctx.precision) :
    ∃ z, signalled (ctx.toInteger mode (.finite a)) = .ok z := by
  have hquantize : ctx.quantize mode 0 a = .ok (a.withExponent mode 0) := by
    refine if_neg ?_
    rw [Bool.and_eq_true, Bool.not_eq_true', decide_eq_true_eq, not_and, not_lt]
    intro hzero
    have := Scaled.adjusted_lt hzero (by rwa [zpow_natCast])
    omega
  rw [toInteger, hquantize]
  exact ⟨_, rfl⟩

/-- **An operator has a value** where there is an exact one within the limits. -/
theorem Operator.exists_apply {op : Operator} (hq : op.exact a.toRat b.toRat = some q)
    (hheld : Context.exact.Holds q) (hfits : op.Fits a.toRat b.toRat) :
    ∃ z, op.apply ctx position (.finite a) (.finite b) = .ok z := by
  have hlt := hfits.1 q hq
  cases op with
  | add => exact exists_bounded_round ((a.toRat_add b).trans (Option.some.inj hq)) hheld hlt
  | subtract =>
    refine exists_bounded_round (x := a.add b.negate) ?_ hheld hlt
    rw [a.toRat_add, b.toRat_negate, ← sub_eq_add_neg]
    exact Option.some.inj hq
  | multiply => exact exists_bounded_round ((a.toRat_mul b).trans (Option.some.inj hq)) hheld hlt
  | remainder =>
    rw [exact] at hq
    split at hq
    · cases hq
    · next hb =>
      rw [b.toRat_eq_zero_iff] at hb
      have hb' := Bool.eq_false_of_not_eq_true hb
      rw [apply, Decimal.isZero, if_neg hb, Context.rem_eq_round hb' (hfits.2 rfl)]
      exact exists_bounded_round ((a.toRat_rem b hb').trans (Option.some.inj hq)) hheld hlt
  | divide => cases hq
  | power => cases hq

/-- **A function has a value** where there is an exact one within the limits. -/
theorem Builtin.exists_apply {f : Builtin} (hq : f.exact a.toRat = some q)
    (hfits : f.Fits a.toRat) : ∃ z, f.apply ctx position (.finite a) = .ok z := by
  cases f with
  | sqrt => cases hq
  | abs => exact ⟨_, rfl⟩
  | floor => exact Context.exists_toInteger .floor (hfits.resolve_left nofun)
  | ceil => exact Context.exists_toInteger .ceiling (hfits.resolve_left nofun)
  | round => exact Context.exists_toInteger .halfUp (hfits.resolve_left nofun)

end Limits

namespace Expr

variable {ctx : Context} {env : Environment} {q : ℚ}

/-- Only exact expressions have exact values. -/
theorem isExact_of_exact {e : Expr} (h : e.exact env = some q) : e.IsExact := by
  induction e generalizing q with
  | number numeral => trivial
  | answer => trivial
  | «variable» name position => trivial
  | negate operand ih =>
    obtain ⟨a, ha, -⟩ := Option.bind_eq_some_iff.mp h
    exact ih ha
  | binary op position left right ihLeft ihRight =>
    obtain ⟨a, ha, h⟩ := Option.bind_eq_some_iff.mp h
    obtain ⟨b, hb, h⟩ := Option.bind_eq_some_iff.mp h
    refine ⟨⟨?_, ?_⟩, ihLeft ha, ihRight hb⟩ <;> rintro rfl <;> cases h
  | inUnit u position operand ih =>
    obtain ⟨a, ha, -⟩ := Option.bind_eq_some_iff.mp h
    exact ih ha
  | call f position argument ih =>
    obtain ⟨a, ha, h⟩ := Option.bind_eq_some_iff.mp h
    refine ⟨?_, ih ha⟩
    rintro rfl
    cases h
  | missing cause position => cases h
  | thenStray operand cause position => cases h

/-- The value of an expression is its exact value, if it has both. -/
theorem exists_number_of_eval (henv : env.IsFinite) {e : Expr} (hheld : e.IsHeld env)
    (hq : e.exact env = some q) {x : Decimal} (h : e.eval ctx env = .ok x) :
    ∃ y, e.eval ctx env = .ok (.finite y) ∧ y.toRat = q := by
  have hparts := isComputed_parts henv (isExact_of_exact hq) hheld h
  obtain ⟨y, hy, hexact⟩ := (hparts e e.mem_parts).exists_number
  exact ⟨y, hy, Option.some.inj (hexact.symm.trans hq)⟩

/-- **An expression has a value** where it has an exact one and all its parts are
within the limits. -/
theorem exists_eval (henv : env.IsFinite) {e : Expr} (hheld : e.IsHeld env)
    (hfits : ∀ part ∈ e.parts, part.Fits env) (hq : e.exact env = some q) :
    ∃ y, e.eval ctx env = .ok (.finite y) ∧ y.toRat = q := by
  suffices h : ∃ x, e.eval ctx env = .ok x by
    obtain ⟨x, hx⟩ := h
    exact exists_number_of_eval henv hheld hq hx
  induction e generalizing q with
  | number numeral => exact ⟨_, rfl⟩
  | answer => exact ⟨_, rfl⟩
  | «variable» name position =>
    obtain ⟨x, hx, -⟩ := Option.bind_eq_some_iff.mp hq
    rw [eval, hx]
    exact ⟨_, rfl⟩
  | negate operand ih =>
    rw [IsHeld, parts, List.forall_mem_cons] at hheld
    rw [parts, List.forall_mem_cons] at hfits
    obtain ⟨a, ha, -⟩ := Option.bind_eq_some_iff.mp hq
    obtain ⟨x, hx⟩ := ih hheld.2 hfits.2 ha
    rw [eval, hx]
    exact ⟨_, rfl⟩
  | binary op position left right ihLeft ihRight =>
    rw [IsHeld, parts, List.forall_mem_cons, List.forall_mem_append] at hheld
    rw [parts, List.forall_mem_cons, List.forall_mem_append] at hfits
    have hheldHere := hheld.1 q hq
    obtain ⟨a, ha, hq⟩ := Option.bind_eq_some_iff.mp hq
    obtain ⟨b, hb, hq⟩ := Option.bind_eq_some_iff.mp hq
    obtain ⟨x, hx⟩ := ihLeft hheld.2.1 hfits.2.1 ha
    obtain ⟨y, hy⟩ := ihRight hheld.2.2 hfits.2.2 hb
    -- the values are those whose operation was found to fit
    obtain ⟨x, hx, rfl⟩ := exists_number_of_eval henv hheld.2.1 ha hx
    obtain ⟨y, hy, rfl⟩ := exists_number_of_eval henv hheld.2.2 hb hy
    rw [eval, hx, hy]
    exact Operator.exists_apply hq hheldHere (hfits.1 _ _ ha hb)
  | inUnit u position operand ih =>
    rw [IsHeld, parts, List.forall_mem_cons] at hheld
    rw [parts, List.forall_mem_cons] at hfits
    have hheldHere := hheld.1 q hq
    obtain ⟨a, ha, hq⟩ := Option.bind_eq_some_iff.mp hq
    obtain ⟨x, hx⟩ := ih hheld.2 hfits.2 ha
    obtain ⟨x, hx, rfl⟩ := exists_number_of_eval henv hheld.2 ha hx
    obtain rfl := Option.some.inj hq
    rw [eval, hx]
    exact exists_bounded_round (by rw [x.toRat_mul, u.toRat_size]) hheldHere (hfits.1 _ ha)
  | call f position argument ih =>
    rw [IsHeld, parts, List.forall_mem_cons] at hheld
    rw [parts, List.forall_mem_cons] at hfits
    obtain ⟨a, ha, hq⟩ := Option.bind_eq_some_iff.mp hq
    obtain ⟨x, hx⟩ := ih hheld.2 hfits.2 ha
    obtain ⟨x, hx, rfl⟩ := exists_number_of_eval henv hheld.2 ha hx
    rw [eval, hx]
    exact Builtin.exists_apply hq (hfits.1 _ ha)
  | missing cause position => cases hq
  | thenStray operand cause position => cases hq

end Expr

end Reckoner
