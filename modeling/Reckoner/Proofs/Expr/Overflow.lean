import Reckoner.Proofs.Expr.Oversized

/-!
# What is too large when it is computed is large

An application is rejected because of the number that is computed, or because of an overflow on
the way to it. Neither is the exact result. For sums, products and quotients, which are rounded
once, the two are close. A power is rounded again and again, and an overflow may come from any of
the squarings, so that more has to be said: no number on the way is larger than the power itself,
or than one, but for the roundings.

`Context.IsWithin` bounds an outcome from above, the overflow included. The bound on a run of
squarings is a power (`Context.isWithin_squareAndMultiply`) whose factor holds the base and one
rounding. So what is rejected has ten thousand digits before the point, also when nothing is
rounded (`Application.IsOversized.le_abs_exactly`).
-/

namespace Reckoner

variable {ctx : Context}

namespace Context

/-! ## Bounds from above -/

/-- **An outcome within a bound.** A value has room for one more rounding, and an overflow is
possible only if the bound lies beyond the largest exponent. -/
structure IsWithin (ctx : Context) (bound : ℚ) (outcome : Except Signal Scaled) : Prop where
  value : ∀ z, outcome = .ok z → |z.toRat| * (1 + ctx.roundoff) ≤ bound
  overflow : outcome = .error .overflow → 10 ^ (maxExponent + 1) ≤ bound

variable {bound bound' q : ℚ} {outcome : Except Signal Scaled} {base acc x y z : Scaled} {n m : ℕ}

/-- Room for one more rounding makes a bound larger, not smaller. -/
theorem le_of_mul_roundoff_le (h : |q| * (1 + ctx.roundoff) ≤ bound) : |q| ≤ bound :=
  (le_mul_of_one_le_right (abs_nonneg q) (by linarith [ctx.roundoff_pos])).trans h

theorem IsWithin.mono (h : ctx.IsWithin bound outcome) (hle : bound ≤ bound') :
    ctx.IsWithin bound' outcome :=
  ⟨fun z hz => (h.value z hz).trans hle, fun hoverflow => (h.overflow hoverflow).trans hle⟩

/-- **Chains of steps stay within the bound of the last one**, if that is the largest. -/
theorem IsWithin.bind {ctx' : Context} {f : Scaled → Except Signal Scaled}
    (h : ctx.IsWithin bound outcome) (hle : bound ≤ bound')
    (hstep : ∀ z, |z.toRat| * (1 + ctx.roundoff) ≤ bound → ctx'.IsWithin bound' (f z)) :
    ctx'.IsWithin bound' (outcome >>= f) := by
  cases houtcome : outcome with
  | error signal =>
    refine ⟨nofun, fun hoverflow => (h.overflow ?_).trans hle⟩
    rw [houtcome, Except.error.inj hoverflow]
  | ok z => exact hstep z (h.value z houtcome)

/-- A number that is delivered. -/
theorem isWithin_of_deliver (h : outcome.map Scaled.toRat = deliver q)
    (hq : |q| * (1 + ctx.roundoff) ≤ bound) : ctx.IsWithin bound outcome := by
  unfold deliver at h
  split at h
  · next hbeyond =>
    rw [of_map_eq_error h]
    exact ⟨nofun, fun _ => hbeyond.trans (le_of_mul_roundoff_le hq)⟩
  · obtain ⟨z, rfl, rfl⟩ := exists_of_map_eq_ok h
    refine ⟨fun z' hz => ?_, nofun⟩
    obtain rfl := Except.ok.inj hz
    exact hq

/-- **One rounding uses up the room for it**, unless the number is so small that it does not
matter. -/
theorem abs_nearest_mul_le (hp : 1 ≤ ctx.precision) (hmode : ctx.mode.ToNearest)
    (hq : |q| * (1 + ctx.roundoff) ^ 2 ≤ bound) (hbound : 1 ≤ bound) :
    |ctx.nearest q| * (1 + ctx.roundoff) ≤ bound := by
  have hpos := ctx.roundoff_pos
  have hhalf := ctx.roundoff_le hp
  have hnearest : |ctx.nearest q| ≤ |q| + ctx.roundoff * max |q| (10 ^ minExponent) := by
    linarith [abs_sub_abs_le_abs_sub (ctx.nearest q) q, abs_nearest_sub_le hmode q]
  have hsmall : (10 : ℚ) ^ minExponent ≤ 1 / 10 := by
    rw [one_div, ← zpow_neg_one]
    exact zpow_le_zpow_right₀ (by norm_num) (by decide)
  rcases le_total |q| (10 ^ minExponent) with hle | hle
  · rw [max_eq_right hle] at hnearest
    have : |ctx.nearest q| ≤ 3 / 2 * (1 / 10) := by nlinarith
    nlinarith
  · rw [max_eq_left hle] at hnearest
    refine le_trans ?_ hq
    nlinarith

theorem isWithin_round (hp : 1 ≤ ctx.precision) (hmode : ctx.mode.ToNearest)
    (hx : |x.toRat| * (1 + ctx.roundoff) ^ 2 ≤ bound) (hbound : 1 ≤ bound) :
    ctx.IsWithin bound (ctx.round x) :=
  isWithin_of_deliver (map_toRat_round hp x) (abs_nearest_mul_le hp hmode hx hbound)

theorem isWithin_divide (hp : 1 ≤ ctx.precision) (hmode : ctx.mode.ToNearest)
    (hy : y.isZero = false) (hx : |x.toRat / y.toRat| * (1 + ctx.roundoff) ^ 2 ≤ bound)
    (hbound : 1 ≤ bound) : ctx.IsWithin bound (ctx.divide x y) :=
  isWithin_of_deliver (map_toRat_divide hp x hy) (abs_nearest_mul_le hp hmode hx hbound)

/-! ## Powers -/

/-- **A run of squarings stays within the power of a bound on its base.** -/
theorem isWithin_squareAndMultiply (hp : 1 ≤ ctx.precision) (hmode : ctx.mode.ToNearest)
    (hone : 1 ≤ bound) (hbase : |base.toRat| * (1 + ctx.roundoff) ≤ bound) (bits : List Bool)
    (hacc : |acc.toRat| * (1 + ctx.roundoff) ≤ bound ^ m) :
    ctx.IsWithin (bound ^ withBits m bits) (ctx.squareAndMultiply base acc bits) := by
  have hpow {i j : ℕ} (hle : i ≤ j) : bound ^ i ≤ bound ^ j := pow_le_pow_right₀ hone hle
  have hfactor : 0 ≤ 1 + ctx.roundoff := by linarith [ctx.roundoff_pos]
  induction bits generalizing acc m with
  | nil =>
    refine ⟨fun z hz => ?_, nofun⟩
    obtain rfl := Except.ok.inj hz
    exact hacc
  | cons bit bits ih =>
    rw [withBits_cons]
    have hle := le_withBits (2 * m + bit.toNat) bits
    have hsquare : |(acc.mul acc).toRat| * (1 + ctx.roundoff) ^ 2 ≤ bound ^ (2 * m) :=
      calc |(acc.mul acc).toRat| * (1 + ctx.roundoff) ^ 2
          = (|acc.toRat| * (1 + ctx.roundoff)) ^ 2 := by rw [acc.toRat_mul, abs_mul]; ring
        _ ≤ (bound ^ m) ^ 2 := by gcongr
        _ = bound ^ (2 * m) := by rw [← pow_mul, mul_comm]
    refine (isWithin_round hp hmode hsquare (one_le_pow₀ hone)).bind (hpow (by omega))
      fun square hsquared => ?_
    cases bit with
    | false => exact ih hsquared
    | true =>
      have hmul : |(square.mul base).toRat| * (1 + ctx.roundoff) ^ 2 ≤ bound ^ (2 * m + 1) :=
        calc |(square.mul base).toRat| * (1 + ctx.roundoff) ^ 2
            = |square.toRat| * (1 + ctx.roundoff) * (|base.toRat| * (1 + ctx.roundoff)) := by
              rw [square.toRat_mul, abs_mul]
              ring
          _ ≤ bound ^ (2 * m) * bound := by gcongr
          _ = bound ^ (2 * m + 1) := (pow_succ _ _).symm
      exact (isWithin_round hp hmode hmul (one_le_pow₀ hone)).bind (hpow hle)
        fun next hnext => ih hnext

/-- **A power stays within three times the exact one**, or the power of one if that is larger. -/
theorem isWithin_powerScaled (hp : 1 ≤ ctx.precision) (hmode : ctx.mode.ToNearest)
    (hx : x.isZero = false) (hn : n ≠ 0) {inverted : Bool} {c : ℚ}
    (hc : c = if inverted then x.toRat⁻¹ else x.toRat) :
    ctx.IsWithin (3 * max 1 |c| ^ n) (ctx.powerScaled x n inverted) := by
  have hsize : 1 ≤ max 1 |c| := le_max_left _ _
  have hpos := ctx.roundoff_pos
  have hhalf := ctx.roundoff_le hp
  rw [powerScaled]
  split
  · refine ⟨fun z hz => ?_, fun h => by cases h⟩
    obtain rfl := Except.ok.inj hz
    rw [toRat_powerOfOne, abs_one, one_mul]
    linarith [one_le_pow₀ hsize (n := n)]
  · set inner := ctx.forPower n inverted with hinner
    have hle : 1 ≤ inner.precision := by
      show 1 ≤ ctx.precision + digitCount n + 2 + _
      omega
    have hpos' := inner.roundoff_pos
    -- the size of the base, and what is rounded of it
    set bound := (1 + inner.roundoff) ^ inverted.toNat * (1 + inner.roundoff) * max 1 |c|
      with hbound
    have hone : 1 ≤ bound := by
      refine one_le_mul_of_one_le_of_one_le (one_le_mul_of_one_le_of_one_le ?_ ?_) hsize
      · exact one_le_pow₀ (by linarith)
      · linarith
    have hfinal : bound ^ n * (1 + ctx.roundoff) ^ 2 ≤ 3 * max 1 |c| ^ n := by
      have hfactor := factor_forPower_le hp n inverted
      calc bound ^ n * (1 + ctx.roundoff) ^ 2
          = ((1 + inner.roundoff) ^ inverted.toNat * (1 + inner.roundoff)) ^ n
            * (1 + ctx.roundoff) ^ 2 * max 1 |c| ^ n := by rw [hbound, mul_pow]; ring
        _ ≤ (1 + ctx.roundoff / 50) * (1 + ctx.roundoff) ^ 2 * max 1 |c| ^ n := by gcongr
        _ ≤ (1 + 1 / 2 / 50) * (1 + 1 / 2) ^ 2 * max 1 |c| ^ n := by gcongr
        _ ≤ 3 * max 1 |c| ^ n := by gcongr; norm_num
    have hgrows : bound ^ n ≤ bound ^ n * (1 + ctx.roundoff) ^ 2 :=
      le_mul_of_one_le_right (by positivity) (one_le_pow₀ (by linarith))
    have hfinish (base : Scaled) (hbase : |base.toRat| * (1 + inner.roundoff) ≤ bound) :
        ctx.IsWithin (3 * max 1 |c| ^ n)
          (inner.squareAndMultiply base base (binaryDigits n).tail >>=
            fun power => ctx.round (power.withSign (x.negative && n % 2 == 1))) := by
      have hrun := isWithin_squareAndMultiply hle .halfEven hone hbase (binaryDigits n).tail
        (m := 1) (by rwa [pow_one])
      rw [withBits_one_tail hn] at hrun
      refine hrun.bind (hgrows.trans hfinal) fun power hpower => isWithin_round hp hmode ?_ ?_
      · rw [power.abs_toRat_withSign]
        refine le_trans ?_ hfinal
        gcongr
        exact le_of_mul_roundoff_le hpower
      · linarith [one_le_pow₀ hsize (n := n)]
    cases inverted with
    | false =>
      obtain rfl : c = x.toRat := hc
      refine hfinish x ?_
      rw [hbound, Bool.toNat_false, pow_zero, one_mul, mul_comm]
      gcongr
      exact le_max_right _ _
    | true =>
      obtain rfl : c = x.toRat⁻¹ := hc
      refine (isWithin_divide hle .halfEven hx ?_ hone).bind ?_ hfinish
      · rw [Scaled.toRat_ofNat, Nat.cast_one, one_div, hbound, Bool.toNat_true, pow_one, ← pow_two,
          mul_comm]
        gcongr
        exact le_max_right _ _
      · exact (le_self_pow₀ hone hn).trans (hgrows.trans hfinal)

/-- A number of which the threefold reaches the limit has ten thousand digits itself. -/
theorem le_of_limit_le {t : ℚ} (h : 10 ^ maxResultDigits ≤ 3 * max 1 t) :
    10 ^ (maxResultDigits - 1) ≤ t := by
  have hten : (10 : ℚ) ^ maxResultDigits = 10 * 10 ^ (maxResultDigits - 1) := by
    rw [← pow_succ', Nat.sub_add_cancel (by decide)]
  have hone : (1 : ℚ) ≤ 10 ^ (maxResultDigits - 1) := one_le_pow₀ (by norm_num)
  rw [hten] at h
  rcases le_total t 1 with hle | hle
  · rw [max_eq_left hle] at h
    linarith
  · rw [max_eq_right hle] at h
    linarith

/-- **A power that is too large when it is computed** has ten thousand digits before the point. -/
theorem PowerExceeds.le_abs_zpow (hp : 1 ≤ ctx.precision) (hmode : ctx.mode.ToNearest) {k : ℤ}
    (hk : k ≠ 0) (h : ctx.PowerExceeds x k) : 10 ^ (maxResultDigits - 1) ≤ |x.toRat ^ k| := by
  have hx := h.isZero_eq
  set c := if decide (k < 0) then x.toRat⁻¹ else x.toRat with hc
  have hwithin := isWithin_powerScaled hp hmode hx (Int.natAbs_ne_zero.mpr hk) hc
  have hpower : ctx.power (.finite x) k.natAbs (decide (k < 0))
      = (ctx.powerScaled x k.natAbs (decide (k < 0))).map .finite := by
    rw [power, hx]
    rfl
  have hlarge : 10 ^ maxResultDigits ≤ 3 * max 1 |c| ^ k.natAbs := by
    cases h with
    | overflow power_eq =>
      refine le_trans ?_ (hwithin.overflow (of_map_eq_error (hpower.symm.trans power_eq)))
      rw [← zpow_natCast]
      exact zpow_le_zpow_right₀ (by norm_num) (by decide)
    | digits power_eq long =>
      obtain ⟨z, hz, heq⟩ := exists_of_map_eq_ok (hpower.symm.trans power_eq)
      obtain rfl := Decimal.finite.inj heq
      exact long.trans (le_of_mul_roundoff_le (hwithin.value z hz))
  refine le_of_limit_le (hlarge.trans ?_)
  rw [zpow_eq_pow_natAbs, abs_pow]
  gcongr
  rcases le_total |c| 1 with hle | hle
  · rw [max_eq_left hle, one_pow]
    exact le_max_left _ _
  · rw [max_eq_right hle]
    exact le_max_right _ _

end Context

/-! ## Exact results -/

/-- **The exact result of an operator**, where there is one. -/
def Operator.exactly (op : Operator) (a b : ℚ) : ℚ :=
  match op with
  | .add => a + b
  | .subtract => a - b
  | .multiply => a * b
  | .divide => a / b
  | .remainder => a - b * truncated (a / b)
  | .power => a ^ ⌊b⌋

/-- **The exact result of an application.** -/
def Application.exactly : Application → ℚ
  | operator op x y => op.exactly x.toRat y.toRat
  | unit u x => x.toRat * u.size

/-- What an application comes to is its exact result, rounded once. -/
theorem Application.exists_eq_nearest (hp : 1 ≤ ctx.precision) (hmode : ctx.mode.ToNearest)
    {a : Application} {q : ℚ} (h : a.rounded? ctx = some q) :
    ∃ ctx' : Context, (1 ≤ ctx'.precision ∧ ctx'.mode.ToNearest) ∧ q = ctx'.nearest a.exactly := by
  have hexact : 1 ≤ Context.exact.precision ∧ Context.exact.mode.ToNearest :=
    ⟨Context.one_le_precision_exact, .halfUp⟩
  cases a with
  | unit u x => exact ⟨_, hexact, (Option.some.inj h).symm⟩
  | operator op x y =>
    rw [rounded?] at h
    cases op with
    | add => exact ⟨_, hexact, (Option.some.inj h).symm⟩
    | subtract => exact ⟨_, hexact, (Option.some.inj h).symm⟩
    | multiply => exact ⟨_, hexact, (Option.some.inj h).symm⟩
    | divide =>
      rw [Operator.rounded?] at h
      split at h
      · cases h
      · exact ⟨_, ⟨hp, hmode⟩, (Option.some.inj h).symm⟩
    | remainder =>
      rw [Operator.rounded?] at h
      split at h
      · cases h
      · exact ⟨_, hexact, (Option.some.inj h).symm⟩
    | power => cases h

/-- A number that is too large has ten thousand digits before the point. -/
theorem TooLarge.le_abs {place position : ℕ} {q : ℚ} (h : TooLarge place q position) :
    10 ^ maxResultDigits ≤ |q| := by
  cases h with
  | digits long => exact long
  | exponent beyond =>
    refine le_trans ?_ beyond
    rw [← zpow_natCast]
    exact zpow_le_zpow_right₀ (by norm_num) (by decide)

/-- **What is rejected is large**: the exact result has ten thousand digits before the point. -/
theorem Application.IsOversized.le_abs_exactly (hp : 1 ≤ ctx.precision)
    (hmode : ctx.mode.ToNearest) {place position : ℕ} {a : Application}
    (h : a.IsOversized ctx place position) :
    10 ^ (maxResultDigits - 1) ≤ |a.exactly| := by
  cases h with
  | @power x y n exponent_eq ne_zero le_maxPower exceeds =>
    have hlarge := exceeds.le_abs_zpow hp hmode ne_zero
    rwa [exactly, Operator.exactly, exponent_eq, Int.floor_intCast]
  | rounded rounded_eq tooLarge =>
    obtain ⟨ctx', ⟨hp', hmode'⟩, rfl⟩ := exists_eq_nearest hp hmode rounded_eq
    refine Context.le_of_limit_le (tooLarge.le_abs.trans ?_)
    refine Context.le_of_mul_roundoff_le (Context.abs_nearest_mul_le hp' hmode' ?_ ?_)
    · have hpos := ctx'.roundoff_pos
      have hhalf := ctx'.roundoff_le hp'
      calc |a.exactly| * (1 + ctx'.roundoff) ^ 2 ≤ max 1 |a.exactly| * (1 + 1 / 2) ^ 2 := by
            gcongr
            exact le_max_right _ _
        _ ≤ 3 * max 1 |a.exactly| := by
            rw [mul_comm]
            gcongr
            norm_num
    · linarith [le_max_left 1 |a.exactly|]

end Reckoner
