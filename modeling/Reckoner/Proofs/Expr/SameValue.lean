import Reckoner.Proofs.Decimal.Nearest
import Reckoner.Proofs.Decimal.SquareRoot
import Reckoner.Session.Basic

/-!
# Evaluation sees only the values of its numbers

A number can be written with different exponents, and zero with either sign. The
arithmetic keeps such differences – a sum shows the places of its operands, a
quotient drops its zeros – but nothing of what an expression is worth depends on
them. If the last answer and the variables of two environments have the same
values, an expression has the same value in both, or fails in both in the same
way, at the same place (`Expr.agree_eval`).

The two runs are followed side by side. Each operation has a lemma that takes
operands of one value to outcomes that agree (`Agree`): for the rounded ones it
is `Context.map_toRat_round` and its companions, which read the outcome off the
rational numbers, for powers an induction on the bits of the exponent.
-/

namespace Reckoner

variable {ctx : Context} {position : ℕ}

/-! ## Numbers of one value -/

/-- **Numbers of one value**, however they are written. -/
def Scaled.SameValue (a b : Scaled) : Prop := a.toRat = b.toRat

/-- **Decimals that are numbers of one value.** -/
inductive Decimal.SameValue : Decimal → Decimal → Prop
  | finite {a b : Scaled} (h : a.SameValue b) : SameValue (.finite a) (.finite b)

/-- **Environments of numbers with the same values**: the last answers, and the
variables, of which both have the same. -/
structure Environment.SameValues (env env' : Environment) : Prop where
  answer : env.answer.SameValue env'.answer
  lookup : ∀ name, Option.Rel Decimal.SameValue (env.lookup name) (env'.lookup name)

namespace Scaled

variable {a b c d : Scaled}

theorem SameValue.refl (a : Scaled) : a.SameValue a := rfl

/-- Numbers of one value are zero together. -/
theorem SameValue.isZero_eq (h : a.SameValue b) : a.isZero = b.isZero := by
  rw [Bool.eq_iff_iff, ← toRat_eq_zero_iff, ← toRat_eq_zero_iff, h]

/-- Zero is the only number whose sign is free. -/
theorem SameValue.negative_eq (h : a.SameValue b) (ha : a.isZero = false) :
    a.negative = b.negative := by
  have hneg : a.toRat < 0 ↔ b.toRat < 0 := by rw [h]
  rw [toRat_lt_zero_iff, toRat_lt_zero_iff, ← h.isZero_eq, ha] at hneg
  rw [Bool.eq_iff_iff]
  simpa using hneg

theorem SameValue.isBelowZero_eq (h : a.SameValue b) : a.isBelowZero = b.isBelowZero := by
  have hneg : a.toRat < 0 ↔ b.toRat < 0 := by rw [h]
  rw [toRat_lt_zero_iff, toRat_lt_zero_iff] at hneg
  rw [Bool.eq_iff_iff]
  simpa [isBelowZero] using hneg

theorem SameValue.adjusted_eq (h : a.SameValue b) (ha : a.isZero = false) :
    a.adjusted = b.adjusted := by
  rw [a.adjusted_eq_log ha, b.adjusted_eq_log (h.isZero_eq ▸ ha), h]

theorem SameValue.add (hab : a.SameValue b) (hcd : c.SameValue d) :
    (a.add c).SameValue (b.add d) := by
  rw [SameValue, toRat_add, toRat_add, hab, hcd]

theorem SameValue.mul (hab : a.SameValue b) (hcd : c.SameValue d) :
    (a.mul c).SameValue (b.mul d) := by
  rw [SameValue, toRat_mul, toRat_mul, hab, hcd]

theorem SameValue.negate (h : a.SameValue b) : a.negate.SameValue b.negate := by
  rw [SameValue, toRat_negate, toRat_negate, h]

theorem SameValue.abs (h : a.SameValue b) : a.abs.SameValue b.abs := by
  rw [SameValue, toRat_abs, toRat_abs, h]

theorem SameValue.reduce (h : a.SameValue b) : a.reduce.SameValue b.reduce := by
  rw [SameValue, toRat_reduce, toRat_reduce, h]

theorem SameValue.withSign (h : a.SameValue b) (negative : Bool) :
    (a.withSign negative).SameValue (b.withSign negative) := by
  rw [SameValue, toRat_withSign, toRat_withSign, h]

theorem SameValue.rem (hab : a.SameValue b) (hcd : c.SameValue d) (hc : c.isZero = false) :
    (a.rem c).SameValue (b.rem d) := by
  rw [SameValue, toRat_rem a c hc, toRat_rem b d (hcd.isZero_eq ▸ hc), hab, hcd]

end Scaled

theorem Decimal.SameValue.isZero_eq {x y : Decimal} (h : x.SameValue y) : x.isZero = y.isZero := by
  obtain ⟨h⟩ := h
  exact h.isZero_eq

/-! ## Operations of a context -/

namespace Context

variable {a b c d : Scaled}

theorem agree_round (hp : 1 ≤ ctx.precision) (h : a.SameValue b) :
    Agree Scaled.SameValue (ctx.round a) (ctx.round b) :=
  .of_map_eq (by rw [map_toRat_round hp, map_toRat_round hp, h])

theorem agree_divide (hp : 1 ≤ ctx.precision) (hab : a.SameValue b) (hcd : c.SameValue d)
    (hc : c.isZero = false) : Agree Scaled.SameValue (ctx.divide a c) (ctx.divide b d) :=
  .of_map_eq (by
    rw [map_toRat_divide hp a hc, map_toRat_divide hp b (hcd.isZero_eq ▸ hc), hab, hcd])

theorem agree_quantize (mode : RoundingMode) (e : ℤ) (h : a.SameValue b) :
    Agree Scaled.SameValue (ctx.quantize mode e a) (ctx.quantize mode e b) :=
  .of_map_eq (by rw [map_toRat_quantize, map_toRat_quantize, h])

theorem agree_rem (hp : 1 ≤ ctx.precision) (hab : a.SameValue b) (hcd : c.SameValue d)
    (hc : c.isZero = false) :
    Agree Decimal.SameValue (ctx.rem (.finite a) (.finite c))
      (ctx.rem (.finite b) (.finite d)) := by
  have hlong : (!a.isZero && decide ((ctx.precision : ℤ) < a.adjusted - c.adjusted))
      = (!b.isZero && decide ((ctx.precision : ℤ) < b.adjusted - d.adjusted)) := by
    cases ha : a.isZero with
    | true => rw [← hab.isZero_eq, ha, Bool.not_true, Bool.false_and, Bool.false_and]
    | false => rw [← hab.isZero_eq, ha, hab.adjusted_eq ha, hcd.adjusted_eq hc]
  rw [rem, rem, hlong]
  split
  · exact .error _
  · exact (agree_round hp (hab.rem hcd hc)).map fun _ _ h => .finite h

/-! ### Powers -/

/-- **A run of squarings** depends on the values of the number reached and of the
base. -/
theorem agree_squareAndMultiply (hp : 1 ≤ ctx.precision) (hbase : a.SameValue b) (bits : List Bool)
    (hacc : c.SameValue d) :
    Agree Scaled.SameValue (ctx.squareAndMultiply a c bits) (ctx.squareAndMultiply b d bits) := by
  induction bits generalizing c d with
  | nil => exact .ok hacc
  | cons bit bits ih =>
    refine (agree_round hp (hacc.mul hacc)).bind fun square square' hsquare => ?_
    cases bit with
    | true => exact (agree_round hp (hsquare.mul hbase)).bind fun _ _ hnext => ih hnext
    | false => exact ih hsquare

/-- A power of one is one, with any number of places. -/
theorem toRat_powerOfOne (ctx : Context) (x : Scaled) (n : ℕ) (inverted : Bool) :
    (ctx.powerOfOne x n inverted).toRat = 1 := by
  unfold powerOfOne
  cases inverted with
  | true => exact (Scaled.toRat_ofNat 1).trans Nat.cast_one
  | false =>
    generalize min (ctx.precision - 1) (n * (-x.exponent).toNat) = places
    show (1 : ℚ) * ((10 ^ places : ℕ) : ℚ) * 10 ^ (-(places : ℤ)) = 1
    rw [one_mul, Nat.cast_pow, Nat.cast_ofNat, zpow_neg, zpow_natCast,
      mul_inv_cancel₀ (by positivity)]

theorem agree_powerScaled (hp : 1 ≤ ctx.precision) (h : a.SameValue b) (ha : a.isZero = false)
    (n : ℕ) (inverted : Bool) :
    Agree Scaled.SameValue (ctx.powerScaled a n inverted) (ctx.powerScaled b n inverted) := by
  have hsign := h.negative_eq ha
  have hone : a.hasMagnitude 1 = b.hasMagnitude 1 := by
    rw [Bool.eq_iff_iff, a.hasMagnitude_iff, b.hasMagnitude_iff, h]
  have hinner : 1 ≤ (ctx.forPower n inverted).precision := by
    show 1 ≤ ctx.precision + digitCount n + 2 + _
    omega
  rw [powerScaled, powerScaled, ← hsign, ← hone]
  split
  · refine .ok ?_
    rw [Scaled.SameValue, toRat_powerOfOne, toRat_powerOfOne]
  · have hpower (base base' : Scaled) (hbase : base.SameValue base') :
        Agree Scaled.SameValue
          ((ctx.forPower n inverted).squareAndMultiply base base (binaryDigits n).tail >>=
            fun power => ctx.round (power.withSign (a.negative && n % 2 == 1)))
          ((ctx.forPower n inverted).squareAndMultiply base' base' (binaryDigits n).tail >>=
            fun power => ctx.round (power.withSign (a.negative && n % 2 == 1))) :=
      (agree_squareAndMultiply hinner hbase _ hbase).bind fun _ _ h =>
        agree_round hp (h.withSign _)
    cases inverted with
    | true => exact (agree_divide hinner (.refl _) h ha).bind hpower
    | false => exact hpower a b h

theorem agree_power (hp : 1 ≤ ctx.precision) {x y : Decimal} (h : x.SameValue y) (n : ℕ)
    (inverted : Bool) :
    Agree Decimal.SameValue (ctx.power x n inverted) (ctx.power y n inverted) := by
  obtain ⟨h⟩ := h
  rw [power, power, ← h.isZero_eq]
  split
  · -- a power of zero is a zero, of one sign or the other
    refine .ok (.finite ?_)
    rw [Scaled.SameValue, (Scaled.toRat_eq_zero_iff _).mpr rfl,
      (Scaled.toRat_eq_zero_iff _).mpr rfl]
  · next ha =>
    exact (agree_powerScaled hp h (Bool.eq_false_of_not_eq_true ha) n inverted).map
      fun _ _ h => .finite h

end Context

/-! ## Operators, units and functions -/

variable {x x' y y' : Decimal}

/-- The limit on digits is one on the value. -/
theorem agree_bounded (h : x.SameValue y) :
    Agree Decimal.SameValue (bounded position x) (bounded position y) := by
  obtain ⟨h⟩ := h
  next a b =>
  have hlarge : (!a.isZero && decide ((maxResultDigits : ℤ) ≤ a.adjusted))
      = (!b.isZero && decide ((maxResultDigits : ℤ) ≤ b.adjusted)) := by
    cases ha : a.isZero with
    | true => rw [← h.isZero_eq, ha, Bool.not_true, Bool.false_and, Bool.false_and]
    | false => rw [← h.isZero_eq, ha, h.adjusted_eq ha]
  rw [bounded, bounded, hlarge]
  split
  · exact .error _
  · exact .ok (.finite h)

/-- An operation that is followed by the limit on digits. -/
theorem agree_signalled_bounded {outcome outcome' : Except Signal Decimal}
    (h : Agree Decimal.SameValue outcome outcome') :
    Agree Decimal.SameValue (signalled outcome >>= bounded position)
      (signalled outcome' >>= bounded position) :=
  h.mapError.bind fun _ _ h => agree_bounded h

/-- An exponent is the same integer in both runs; only that of zero may have
either sign. -/
theorem agree_powerExponent (h : x.SameValue y) :
    Agree (fun p q : ℕ × Bool => p.1 = q.1 ∧ (p.1 ≠ 0 → p.2 = q.2))
      (powerExponent position x) (powerExponent position y) := by
  obtain ⟨h⟩ := h
  next a b =>
  have horder : a.compareMagnitude (.ofNat maxPower) = b.compareMagnitude (.ofNat maxPower) := by
    rw [a.compareMagnitude_eq, b.compareMagnitude_eq, h]
  rw [powerExponent, powerExponent, horder, Scaled.toNat?_eq_of_abs_eq (congrArg _ h)]
  split
  · exact .error _
  · split
    · exact .error _
    · next n hn =>
      refine .ok ⟨rfl, fun hzero => h.negative_eq (Bool.eq_false_of_not_eq_true fun ha => hzero ?_)⟩
      rw [Scaled.toNat?_eq_some_iff, ← h, a.toRat_eq_zero_iff.mpr ha, abs_zero] at hn
      exact_mod_cast hn.symm

theorem agree_powerValue (hp : 1 ≤ ctx.precision) (hx : x.SameValue x') (hy : y.SameValue y') :
    Agree Decimal.SameValue (powerValue ctx position x y) (powerValue ctx position x' y') := by
  refine (agree_powerExponent hy).bind ?_
  rintro ⟨n, negative⟩ ⟨n', negative'⟩ ⟨hn, hsign⟩
  obtain rfl : n = n' := hn
  dsimp only at hsign ⊢
  split
  · exact .ok (.finite (.refl _))
  · next hzero =>
    obtain rfl := hsign hzero
    rw [← hx.isZero_eq]
    split
    · exact .error _
    · have hpower := Context.agree_power hp hx n negative
      generalize ctx.power x n negative = outcome, ctx.power x' n negative = outcome' at hpower ⊢
      cases hpower with
      | ok hpower => exact agree_bounded hpower
      | error signal => cases signal <;> exact .error _

/-- **An operator** depends on the values of its operands. -/
theorem Operator.agree_apply (hp : 1 ≤ ctx.precision) (op : Operator) (hx : x.SameValue x')
    (hy : y.SameValue y') :
    Agree Decimal.SameValue (op.apply ctx position x y) (op.apply ctx position x' y') := by
  have hexact : 1 ≤ Context.exact.precision := by decide
  obtain ⟨hx'⟩ := hx
  obtain ⟨hy'⟩ := hy
  have round {a b : Scaled} (h : a.SameValue b) :
      Agree Decimal.SameValue ((Context.exact.round a).map .finite)
        ((Context.exact.round b).map .finite) :=
    (Context.agree_round hexact h).map fun _ _ h => .finite h
  cases op with
  | add => exact agree_signalled_bounded (round (hx'.add hy'))
  | subtract => exact agree_signalled_bounded (round (hx'.add hy'.negate))
  | multiply => exact agree_signalled_bounded (round (hx'.mul hy'))
  | divide =>
    rw [apply, apply, Decimal.isZero, Decimal.isZero, ← hy'.isZero_eq]
    split
    · exact .error _
    · next hzero =>
      have hzero := Bool.eq_false_of_not_eq_true hzero
      exact agree_signalled_bounded
        ((Context.agree_divide hp hx' hy' hzero).map fun _ _ h => .finite h.reduce)
  | remainder =>
    rw [apply, apply, Decimal.isZero, Decimal.isZero, ← hy'.isZero_eq]
    split
    · exact .error _
    · next hzero =>
      exact agree_signalled_bounded
        (Context.agree_rem hexact hx' hy' (Bool.eq_false_of_not_eq_true hzero))
  | power => exact agree_powerValue hp (.finite hx') (.finite hy')

/-- **A root** is that of the nearest binary fraction, which is that of the
value. -/
theorem Context.agree_squareRoot (hp : 1 ≤ ctx.precision) (h : x.SameValue y) :
    Agree Decimal.SameValue (ctx.squareRoot position x) (ctx.squareRoot position y) := by
  obtain ⟨h⟩ := h
  next a b =>
  have hfraction : Binary.ofScaled? a = Binary.ofScaled? b := by
    rw [Binary.ofScaled?_eq, Binary.ofScaled?_eq, h]
  rw [squareRoot, squareRoot, ← h.isBelowZero_eq, ← hfraction]
  split
  · exact .error _
  · split
    · exact .error _
    · next f hf =>
      have hroot : (f.sqrt.toScaled.withSign a.negative).SameValue
          (f.sqrt.toScaled.withSign b.negative) := by
        cases ha : a.isZero with
        | false =>
          rw [h.negative_eq ha]
          exact .refl _
        | true =>
          -- the root of a zero is a zero with its sign
          rw [Binary.ofScaled?, ha, Bool.true_or, if_pos rfl] at hf
          obtain rfl := Option.some.inj hf
          have hzero (negative : Bool) :
              ((Binary.mk 0 0).sqrt.toScaled.withSign negative).toRat = 0 := by
            rw [← abs_eq_zero, Scaled.abs_toRat_withSign, Binary.toRat_toScaled, abs_eq_zero]
            simp [Binary.toRat, Binary.sqrt]
          rw [Scaled.SameValue, hzero, hzero]
      exact ((agree_round hp hroot).map fun _ _ h => .finite h).mapError

/-- **A function** depends on the value of its argument. -/
theorem Builtin.agree_apply (hp : 1 ≤ ctx.precision) (f : Builtin) (h : x.SameValue y) :
    Agree Decimal.SameValue (f.apply ctx position x) (f.apply ctx position y) := by
  have toInteger (mode : RoundingMode) :
      Agree Decimal.SameValue (signalled (Context.exact.toInteger mode x))
        (signalled (Context.exact.toInteger mode y)) := by
    obtain ⟨h⟩ := h
    exact ((Context.agree_quantize mode 0 h).map fun _ _ h => .finite h).mapError
  cases f with
  | sqrt => exact Context.agree_squareRoot hp h
  | abs =>
    obtain ⟨h⟩ := h
    exact .ok (.finite h.abs)
  | floor => exact toInteger .floor
  | ceil => exact toInteger .ceiling
  | round => exact toInteger .halfUp

/-! ## Expressions -/

namespace Expr

variable {env env' : Environment}

/-- **An expression has one value** in environments of the same values, or fails
in one way. -/
theorem agree_eval (hp : 1 ≤ ctx.precision) (henv : env.SameValues env') (e : Expr) :
    Agree Decimal.SameValue (e.eval ctx env) (e.eval ctx env') := by
  induction e with
  | number numeral => exact .ok (.finite (.refl _))
  | answer => exact .ok henv.answer
  | «variable» name position =>
    have h := henv.lookup name
    rw [eval, eval]
    generalize env.lookup name = value, env'.lookup name = value' at h ⊢
    cases h with
    | some h => exact .ok h
    | none => exact .error _
  | negate operand ih =>
    refine ih.map ?_
    rintro _ _ ⟨h⟩
    exact .finite h.negate
  | binary op position left right ihLeft ihRight =>
    exact ihLeft.bind fun _ _ hx => ihRight.bind fun _ _ hy => op.agree_apply hp hx hy
  | inUnit u position operand ih =>
    exact ih.bind fun _ _ hx =>
      Operator.agree_apply hp .multiply hx (.finite (.refl (.ofNat u.size)))
  | call f position argument ih => exact ih.bind fun _ _ hx => f.agree_apply hp hx
  | missing cause position => exact .error _
  | thenStray operand cause position ih => exact ih.bind fun _ _ _ => .error _

end Expr

/-- **A precision that is accepted** gives a working context, of fifty digits at least. -/
theorem Context.eq_working_of_ofPrecision {precision : ℕ}
    (h : Context.ofPrecision precision = .ok ctx) :
    ctx = .working (max precision minPrecision) := by
  unfold ofPrecision at h
  dsimp only at h
  split at h
  · exact (Except.ok.inj h).symm
  · split at h <;> cases h

/-- Every working context has digits. -/
theorem Context.one_le_precision_of_ofPrecision {precision : ℕ}
    (h : Context.ofPrecision precision = .ok ctx) : 1 ≤ ctx.precision := by
  rw [eq_working_of_ofPrecision h]
  exact (by decide : 1 ≤ minPrecision).trans (le_max_right _ _)

namespace Expr

variable {env env' : Environment}

/-- **A row of tokens has one outcome** in environments of the same values,
whatever the precision: a number of one value, or one and the same failure – its
cause, and with it the message, and its position. -/
theorem agree_eval_ofTokens {precision : ℕ} (hctx : Context.ofPrecision precision = .ok ctx)
    (henv : env.SameValues env') (tokens : List Token) (stop : ℕ) :
    Agree Decimal.SameValue ((ofTokens tokens stop).eval ctx env)
      ((ofTokens tokens stop).eval ctx env') :=
  agree_eval (Context.one_le_precision_of_ofPrecision hctx) henv _

/-- The last answer `2`, also written `2.00`, divided by a variable that is a zero
of one sign or the other. -/
theorem agree_eval_answer_div_zero :
    Context.ofPrecision 0 = .ok (.working 50) ∧
    (Environment.mk (fun _ => some (.finite ⟨true, 0, 0⟩)) (.finite ⟨false, 2, 0⟩)).SameValues
      (Environment.mk (fun _ => some (.finite ⟨false, 0, 3⟩)) (.finite ⟨false, 200, -2⟩)) ∧
    Agree Decimal.SameValue
      ((ofTokens [⟨.answer, "ans".toList, 0⟩, ⟨.operator .divide, ['/'], 3⟩,
        ⟨.variable "x", "$x".toList, 4⟩] 6).eval (.working 50)
        ⟨fun _ => some (.finite ⟨true, 0, 0⟩), .finite ⟨false, 2, 0⟩⟩)
      ((ofTokens [⟨.answer, "ans".toList, 0⟩, ⟨.operator .divide, ['/'], 3⟩,
        ⟨.variable "x", "$x".toList, 4⟩] 6).eval (.working 50)
        ⟨fun _ => some (.finite ⟨false, 0, 3⟩), .finite ⟨false, 200, -2⟩⟩) := by
  have hctx : Context.ofPrecision 0 = .ok (.working 50) := rfl
  have henv : (Environment.mk (fun _ => some (.finite ⟨true, 0, 0⟩))
      (.finite ⟨false, 2, 0⟩)).SameValues
      (Environment.mk (fun _ => some (.finite ⟨false, 0, 3⟩)) (.finite ⟨false, 200, -2⟩)) := by
    refine ⟨.finite ?_, fun _ => .some (.finite ?_)⟩
    · norm_num [Scaled.SameValue, Scaled.toRat, Scaled.sign]
    · norm_num [Scaled.SameValue, Scaled.toRat, Scaled.sign]
  exact ⟨hctx, henv, agree_eval_ofTokens hctx henv _ _⟩

end Expr

end Reckoner
