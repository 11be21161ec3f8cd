import Reckoner.Proofs.Decimal.Nearest
import Reckoner.Proofs.Expr.Limit
import Reckoner.Session.Basic

/-!
# Quotients are rounded correctly

`Context.map_toRat_divide` says that a quotient is the exact one, rounded once to
the last place that the context has for it. Here this is compared with what one
understands by rounding, without a word about digits and how they are produced:
`IsRoundedTo` is the number of `p` significant digits that is nearest to a given
one, and of two that are equally near the one further from zero. There is only
one such number (`IsRoundedTo.eq`).

The two agree as long as no digit of the quotient falls below the smallest
exponent (`Context.isRoundedTo_nearest`). What the operator then does to the
quotient, to drop its zeros and to check its size, leaves the number alone.
-/

namespace Reckoner

/-! ## Rounding to significant digits -/

/-- The place of the last of `p` significant digits of a number. -/
def lastOf (p : ℕ) (q : ℚ) : ℤ := Int.log 10 |q| - p + 1

/-- **The number `r` is `q` rounded to `p` significant digits**, ties away from
zero. -/
structure IsRoundedTo (p : ℕ) (q r : ℚ) : Prop where
  multiple : ∃ n : ℤ, r = n * 10 ^ lastOf p q
  near : |r - q| ≤ 10 ^ lastOf p q / 2
  away : |r - q| = 10 ^ lastOf p q / 2 → |q| < |r|

variable {p : ℕ} {q r s : ℚ}

/-- Of two numbers with as many digits, the one below `q` is not nearer than the
other. -/
theorem IsRoundedTo.not_lt (hr : IsRoundedTo p q r) (hs : IsRoundedTo p q s) : ¬ r < s := by
  intro hlt
  obtain ⟨n, hn⟩ := hr.multiple
  obtain ⟨m, hm⟩ := hs.multiple
  have hunit : (0 : ℚ) < 10 ^ lastOf p q := by positivity
  -- they differ by a unit, so that `q` is in the middle between them
  have hstep : (n : ℚ) + 1 ≤ m := by
    rw [hn, hm] at hlt
    exact_mod_cast lt_of_mul_lt_mul_right hlt hunit.le
  have hgap : r + 10 ^ lastOf p q ≤ s := by
    rw [hn, hm]
    linarith [mul_le_mul_of_nonneg_right hstep hunit.le]
  obtain ⟨hrlow, -⟩ := abs_le.mp hr.near
  obtain ⟨-, hshigh⟩ := abs_le.mp hs.near
  have hrtie : r - q = -(10 ^ lastOf p q / 2) := by linarith
  have hstie : s - q = 10 ^ lastOf p q / 2 := by linarith
  have hraway := hr.away (by rw [hrtie, abs_neg, abs_of_pos (by positivity)])
  have hsaway := hs.away (by rw [hstie, abs_of_pos (by positivity)])
  -- the lower one can be further from zero only below it, and then the upper one is not
  have hrneg : r < 0 := by
    by_contra! hnonneg
    rw [abs_of_nonneg hnonneg, abs_of_nonneg (by linarith)] at hraway
    linarith
  have hmneg : m ≤ 0 := by
    have hnneg : n < 0 := by
      rw [hn] at hrneg
      exact_mod_cast neg_of_mul_neg_left hrneg hunit.le
    have hsame : s = r + 10 ^ lastOf p q := by linarith
    rw [hn, hm, ← add_one_mul] at hsame
    have : (m : ℚ) = n + 1 := mul_right_cancel₀ hunit.ne' hsame
    have : m = n + 1 := by exact_mod_cast this
    omega
  have hsneg : s ≤ 0 := by
    rw [hm]
    exact mul_nonpos_of_nonpos_of_nonneg (by exact_mod_cast hmneg) hunit.le
  rw [abs_of_nonpos hsneg, abs_of_nonpos (by linarith)] at hsaway
  linarith

/-- **There is only one number** that a number is rounded to. -/
theorem IsRoundedTo.eq (hr : IsRoundedTo p q r) (hs : IsRoundedTo p q s) : r = s :=
  le_antisymm (le_of_not_gt (hs.not_lt hr)) (le_of_not_gt (hr.not_lt hs))

/-- No number but zero is rounded to zero. -/
theorem IsRoundedTo.ne_zero (h : IsRoundedTo p q r) (hp : 1 ≤ p) (hq : q ≠ 0) : r ≠ 0 := by
  rintro rfl
  have hnear := h.near
  rw [zero_sub, abs_neg] at hnear
  have hlog : (10 : ℚ) ^ Int.log 10 |q| ≤ |q| := by
    exact_mod_cast Int.zpow_log_le_self (b := 10) (by norm_num) (abs_pos.mpr hq)
  have hunit : (10 : ℚ) ^ lastOf p q ≤ 10 ^ Int.log 10 |q| :=
    zpow_le_zpow_right₀ (by norm_num) (by unfold lastOf; omega)
  linarith [abs_pos.mpr hq]

/-- **A tie goes away from zero.** -/
theorem RoundingMode.abs_lt_of_tie (h : |(halfUp.toInt q : ℚ) - q| = 1 / 2) :
    |q| < |(halfUp.toInt q : ℚ)| := by
  have hround {x : ℚ} (hx : 0 ≤ x) (htie : |(round x : ℚ) - x| = 1 / 2) :
      |x| < |(round x : ℚ)| := by
    have hbelow : x + 1 / 2 < round x + 1 := by
      rw [round_eq]
      exact Int.lt_floor_add_one _
    rcases abs_cases ((round x : ℚ) - x) with ⟨heq, -⟩ | ⟨heq, -⟩
    · rw [abs_of_nonneg hx, abs_of_nonneg (by linarith)]
      linarith
    · linarith
  unfold toInt at h ⊢
  dsimp only at h ⊢
  by_cases hq : 0 ≤ q
  · rw [if_pos hq] at h ⊢
    exact hround hq h
  · rw [if_neg hq, Int.cast_neg] at h ⊢
    rw [abs_neg, ← abs_neg q]
    refine hround (by linarith) ?_
    rw [← h, ← abs_neg]
    congr 1
    ring

namespace Context

variable {ctx : Context}

/-- **What a context rounds to** has as many digits as the context, as long as its
last place does not lie below the smallest exponent. -/
theorem isRoundedTo_nearest (hmode : ctx.mode = .halfUp)
    (hplace : ctx.lastPlace q = lastOf ctx.precision q) :
    IsRoundedTo ctx.precision q (ctx.nearest q) := by
  have hunit : (0 : ℚ) < 10 ^ lastOf ctx.precision q := by positivity
  -- everything is counted in units of the last place
  have hscale : |ctx.nearest q - q|
      = |(RoundingMode.halfUp.toInt (q / 10 ^ lastOf ctx.precision q) : ℚ)
          - q / 10 ^ lastOf ctx.precision q| * 10 ^ lastOf ctx.precision q := by
    rw [nearest, hmode, hplace, ← abs_of_pos hunit, ← abs_mul, abs_of_pos hunit, sub_mul,
      div_mul_cancel₀ _ hunit.ne']
  have hhalf : (10 : ℚ) ^ lastOf ctx.precision q / 2 = 1 / 2 * 10 ^ lastOf ctx.precision q := by
    ring
  refine ⟨⟨_, by rw [nearest, hplace]⟩, ?_, fun htie => ?_⟩
  · rw [hscale, hhalf, abs_sub_comm]
    gcongr
    exact RoundingMode.abs_sub_toInt_halfUp_le _
  · rw [hscale, hhalf] at htie
    have haway := RoundingMode.abs_lt_of_tie (mul_right_cancel₀ hunit.ne' htie)
    rw [abs_div, abs_of_pos hunit, div_lt_iff₀ hunit] at haway
    rwa [nearest, hmode, hplace, abs_mul, abs_of_pos hunit]

/-- What a context rounds to has no more digits than the context, unless it is the
power of ten above them. -/
theorem exists_nearest_eq (ctx : Context) (q : ℚ) :
    ∃ n : ℤ, |n| ≤ 10 ^ ctx.precision ∧ ctx.nearest q = n * 10 ^ ctx.lastPlace q := by
  refine ⟨_, ?_, rfl⟩
  exact_mod_cast ctx.mode.abs_toInt_le (ctx.abs_div_lastPlace_le q)

/-- Rounding gives at most the power of ten above the number. -/
theorem abs_nearest_le (hplace : ctx.lastPlace q = lastOf ctx.precision q) :
    |ctx.nearest q| ≤ 10 ^ (Int.log 10 |q| + 1) := by
  obtain ⟨n, hn, heq⟩ := ctx.exists_nearest_eq q
  have hn : |(n : ℚ)| ≤ 10 ^ ctx.precision := by exact_mod_cast hn
  rw [heq, abs_mul, abs_of_pos (by positivity : (0 : ℚ) < 10 ^ ctx.lastPlace q)]
  calc |(n : ℚ)| * 10 ^ ctx.lastPlace q ≤ 10 ^ ctx.precision * 10 ^ ctx.lastPlace q := by gcongr
    _ = 10 ^ (Int.log 10 |q| + 1) := by
      rw [← zpow_natCast, ← zpow_add₀ (by norm_num), hplace, lastOf]
      congr 1
      ring

/-- The last place is that of the last digit, unless digits fall below the smallest
exponent. -/
theorem lastPlace_eq (h : minExponent ≤ Int.log 10 |q|) :
    ctx.lastPlace q = lastOf ctx.precision q := by
  unfold lastPlace lastExponent tiny lastOf
  omega

end Context

/-! ## Digits of the shortest form -/

/-- **A number of at most `p` significant digits.** -/
def HasDigits (p : ℕ) (q : ℚ) : Prop := ∃ n e : ℤ, |n| < 10 ^ p ∧ q = n * 10 ^ e

/-- **A number that has no more digits is rounded to itself.** -/
theorem HasDigits.isRoundedTo (h : HasDigits p q) : IsRoundedTo p q q := by
  have hmultiple : ∃ m : ℤ, q = m * 10 ^ lastOf p q := by
    by_cases hq : q = 0
    · exact ⟨0, by rw [hq, Int.cast_zero, zero_mul]⟩
    obtain ⟨n, e, hn, heq⟩ := h
    have hn : |(n : ℚ)| < 10 ^ p := by exact_mod_cast hn
    have hlt : |q| < (10 : ℕ) ^ (p + e) := by
      rw [heq, abs_mul, abs_of_pos (by positivity : (0 : ℚ) < 10 ^ e), Nat.cast_ofNat,
        zpow_add₀ (by norm_num), zpow_natCast]
      gcongr
    have hlog := (Int.lt_zpow_iff_log_lt (by norm_num) (abs_pos.mpr hq)).mp hlt
    obtain ⟨m, hm⟩ := Context.exists_eq_mul_of_le n (by unfold lastOf; omega : lastOf p q ≤ e)
    exact ⟨m, heq.trans hm⟩
  refine ⟨hmultiple, ?_, fun htie => ?_⟩
  · rw [sub_self, abs_zero]
    positivity
  · rw [sub_self, abs_zero] at htie
    exact absurd htie.symm (by positivity)

namespace Scaled

variable {x : Scaled}

/-- **The shortest form** has no zero at the end of its coefficient. -/
theorem not_dvd_coefficient_reduce (hx : x.isZero = false) : ¬ 10 ∣ x.reduce.coefficient := by
  have hne := x.coefficient_ne_zero hx
  rw [reduce, hx, if_neg Bool.false_ne_true]
  dsimp only
  rintro ⟨m, hm⟩
  -- one more zero than there are would be dropped
  have hdvd : 10 ^ (trailingZeros x.coefficient + 1) ∣ x.coefficient := by
    refine ⟨m, ?_⟩
    rw [pow_succ, mul_assoc, ← hm]
    exact (Nat.mul_div_cancel' ((pow_dvd_iff_le_trailingZeros hne).mpr le_rfl)).symm
  exact absurd ((pow_dvd_iff_le_trailingZeros hne).mp hdvd) (Nat.not_succ_le_self _)

/-- Of two coefficients of one number, the one with the smaller exponent has more
zeros at the end. -/
theorem eq_mul_pow_of_le {a b : ℕ} {e f : ℤ} (hle : e ≤ f) (h : (a : ℚ) * 10 ^ f = b * 10 ^ e) :
    b = a * 10 ^ (f - e).toNat := by
  have hsplit : (10 : ℚ) ^ f = 10 ^ (f - e).toNat * 10 ^ e := by
    rw [← zpow_natCast, ← zpow_add₀ (by norm_num), Int.toNat_of_nonneg (by omega), sub_add_cancel]
  rw [hsplit, ← mul_assoc] at h
  exact_mod_cast (mul_right_cancel₀ (by positivity : (10 : ℚ) ^ e ≠ 0) h).symm

/-- A coefficient without zeros at the end is as small as the digits of the number
allow. -/
theorem coefficient_lt_of_not_dvd (hp : 1 ≤ p) (hx : ¬ 10 ∣ x.coefficient) {n e : ℤ}
    (hn : |n| ≤ 10 ^ p) (h : x.toRat = n * 10 ^ e) : x.coefficient < 10 ^ p := by
  have habs : (x.coefficient : ℚ) * 10 ^ x.exponent = (n.natAbs : ℕ) * 10 ^ e := by
    rw [← x.abs_toRat, h, abs_mul, abs_of_pos (by positivity : (0 : ℚ) < 10 ^ e), Nat.cast_natAbs,
      Int.cast_abs]
  rcases le_or_gt e x.exponent with he | he
  · -- the coefficient is a part of the other one, and not the power of ten itself
    have hle : n.natAbs ≤ 10 ^ p := by
      rw [Int.abs_eq_natAbs] at hn
      exact_mod_cast hn
    have hcoefficient : x.coefficient ≤ n.natAbs :=
      eq_mul_pow_of_le he habs ▸ Nat.le_mul_of_pos_right _ (by positivity)
    refine lt_of_le_of_ne (hcoefficient.trans hle) fun heq => hx ?_
    exact heq ▸ dvd_pow_self 10 (Nat.one_le_iff_ne_zero.mp hp)
  · -- otherwise it would have zeros at its end
    refine absurd ?_ hx
    rw [eq_mul_pow_of_le he.le habs.symm]
    exact dvd_mul_of_dvd_right (dvd_pow_self 10 (by omega)) _

end Scaled

/-! ## The operator -/

section Quotient

variable {x y : Scaled}

/-- **A quotient of moderate size is delivered** as the number it is rounded to, in
its shortest form. -/
theorem Context.exists_quotient (ctx : Context) (hp : 1 ≤ ctx.precision) (hy : y.isZero = false)
    (hplace : ctx.lastPlace (x.toRat / y.toRat) = lastOf ctx.precision (x.toRat / y.toRat))
    (hsize : Int.log 10 |x.toRat / y.toRat| < maxExponent) :
    ∃ z : Scaled, ctx.quotient (.finite x) (.finite y) = .ok (.finite z.reduce)
      ∧ z.toRat = ctx.nearest (x.toRat / y.toRat) := by
  have hdeliver : Context.deliver (ctx.nearest (x.toRat / y.toRat))
      = .ok (ctx.nearest (x.toRat / y.toRat)) := by
    refine if_neg (not_le.mpr ((abs_nearest_le hplace).trans_lt ?_))
    exact zpow_lt_zpow_right₀ (by norm_num) (by omega)
  obtain ⟨z, hz, hvalue⟩ := exists_of_map_eq_ok ((map_toRat_divide hp x hy).trans hdeliver)
  refine ⟨z, ?_, hvalue⟩
  rw [quotient, hz]
  rfl

end Quotient

/-- **A quotient is rounded to the digits of the working precision**, which is the
one that was chosen, or fifty digits if that is less. Let the divisor be a number
other than zero, and let the quotient be zero or of moderate size: its first digit
does not lie below the smallest exponent, and lies more than one place below the
limit on results. Then division gives the one number of that many digits that the
exact quotient is rounded to. It is at most half a unit of the last digit away, and
is the quotient itself if that has no more digits. No zero stands at the end of its
coefficient, and a zero is written with exponent zero. -/
theorem Operator.apply_divide_spec {configured : ℕ} (position : ℕ) {x y : Scaled}
    (hconfigured : max configured minPrecision ≤ Context.maxPrecision) (hy : y.isZero = false)
    (hsize : x.toRat / y.toRat = 0 ∨ Context.minExponent ≤ Int.log 10 |x.toRat / y.toRat|
      ∧ Int.log 10 |x.toRat / y.toRat| < 9999) :
    ∃ ctx z, Context.ofPrecision configured = .ok ctx
      ∧ Operator.divide.apply ctx position (.finite x) (.finite y) = .ok (.finite z)
      ∧ (∀ r, IsRoundedTo (max configured minPrecision) (x.toRat / y.toRat) r ↔ r = z.toRat)
      ∧ |z.toRat - x.toRat / y.toRat|
        ≤ 10 ^ lastOf (max configured minPrecision) (x.toRat / y.toRat) / 2
      ∧ (HasDigits (max configured minPrecision) (x.toRat / y.toRat) →
        z.toRat = x.toRat / y.toRat)
      ∧ (x.toRat / y.toRat ≠ 0 →
        z.coefficient < 10 ^ max configured minPrecision ∧ ¬ 10 ∣ z.coefficient)
      ∧ (x.toRat / y.toRat = 0 → z.coefficient = 0 ∧ z.exponent = 0) := by
  set p := max configured minPrecision with hp
  set q := x.toRat / y.toRat with hq
  have hone : 1 ≤ p := (by decide : 1 ≤ minPrecision).trans (le_max_right _ _)
  -- zero counts as a number whose first digit is a one
  have hzero : q = 0 → Int.log 10 |q| = 0 := fun h => by rw [h, abs_zero, Int.log_zero_right]
  have hlow : Context.minExponent ≤ Int.log 10 |q| :=
    hsize.elim (fun h => hzero h ▸ by decide) And.left
  have hhigh : Int.log 10 |q| < 9999 := hsize.elim (fun h => hzero h ▸ by decide) And.right
  have hplace : (Context.working p).lastPlace q = lastOf p q := Context.lastPlace_eq hlow
  obtain ⟨z, hz, hvalue⟩ := (Context.working p).exists_quotient hone hy hplace
    (hhigh.trans (by decide))
  have hreduced : z.reduce.toRat = (Context.working p).nearest q := z.toRat_reduce.trans hvalue
  have hrounded : IsRoundedTo p q z.reduce.toRat :=
    hreduced ▸ Context.isRoundedTo_nearest rfl hplace
  have hlimit : |z.reduce.toRat| < 10 ^ maxResultDigits := by
    rw [hreduced, ← zpow_natCast]
    exact (Context.abs_nearest_le hplace).trans_lt
      (zpow_lt_zpow_right₀ (by norm_num) (by unfold maxResultDigits; omega))
  refine ⟨.working p, z.reduce, if_pos hconfigured, ?_, fun r => ⟨fun hr => hr.eq hrounded, ?_⟩,
    hrounded.near, fun hdigits => hrounded.eq hdigits.isRoundedTo, fun hne => ?_, fun heq => ?_⟩
  · rw [Operator.apply, if_neg (by rw [Decimal.isZero, hy]; exact Bool.false_ne_true), hz]
    exact bounded_eq_ok hlimit
  · rintro rfl
    exact hrounded
  · have hz : z.isZero = false := by
      refine Bool.eq_false_of_not_eq_true fun hz => hrounded.ne_zero hone hne ?_
      rw [z.toRat_reduce, z.toRat_eq_zero_iff.mpr hz]
    have hdvd := Scaled.not_dvd_coefficient_reduce hz
    obtain ⟨n, hn, hmultiple⟩ := (Context.working p).exists_nearest_eq q
    exact ⟨Scaled.coefficient_lt_of_not_dvd hone hdvd hn (hreduced.trans hmultiple), hdvd⟩
  · rw [← hq, heq, Context.nearest_zero, z.toRat_eq_zero_iff] at hvalue
    rw [Scaled.reduce, if_pos hvalue]
    exact ⟨rfl, rfl⟩

/-- Two thirds, at a precision that is raised to fifty digits: all of them are sixes
but the last, which is a seven. -/
theorem Operator.isRoundedTo_two_thirds :
    max 10 minPrecision ≤ Context.maxPrecision ∧ (Scaled.ofNat 3).isZero = false
      ∧ (Context.minExponent ≤ Int.log 10 |(Scaled.ofNat 2).toRat / (Scaled.ofNat 3).toRat|
        ∧ Int.log 10 |(Scaled.ofNat 2).toRat / (Scaled.ofNat 3).toRat| < 9999)
      ∧ Operator.divide.apply (.working 50) 1 (.ofNat 2) (.ofNat 3)
        = .ok (.finite ⟨false, 66666666666666666666666666666666666666666666666667, -50⟩)
      ∧ IsRoundedTo (max 10 minPrecision) (2 / 3)
        (⟨false, 66666666666666666666666666666666666666666666666667, -50⟩ : Scaled).toRat := by
  have hconfigured : max 10 minPrecision ≤ Context.maxPrecision := by decide
  have hquotient : (Scaled.ofNat 2).toRat / (Scaled.ofNat 3).toRat = 2 / 3 := by
    rw [Scaled.toRat_ofNat, Scaled.toRat_ofNat, Nat.cast_ofNat, Nat.cast_ofNat]
  have hlog : Int.log 10 |(Scaled.ofNat 2).toRat / (Scaled.ofNat 3).toRat| = -1 := by
    rw [hquotient, abs_of_pos (by norm_num)]
    exact log_eq_of_zpow_le_of_lt_zpow (by norm_num) (by norm_num) (by norm_num)
  have hsize : Context.minExponent ≤ Int.log 10 |(Scaled.ofNat 2).toRat / (Scaled.ofNat 3).toRat|
      ∧ Int.log 10 |(Scaled.ofNat 2).toRat / (Scaled.ofNat 3).toRat| < 9999 := by
    rw [hlog]
    decide
  have hvalue : Operator.divide.apply (.working 50) 1 (.ofNat 2) (.ofNat 3)
      = .ok (.finite ⟨false, 66666666666666666666666666666666666666666666666667, -50⟩) := by
    decide +kernel
  obtain ⟨ctx, z, hctx, hz, hrounded, -⟩ :=
    Operator.apply_divide_spec 1 hconfigured (rfl : (Scaled.ofNat 3).isZero = false) (.inr hsize)
  obtain rfl : Context.working 50 = ctx := Except.ok.inj hctx
  obtain rfl : _ = z := Decimal.finite.inj (Except.ok.inj (hvalue.symm.trans hz))
  exact ⟨hconfigured, rfl, hsize, hvalue, hquotient ▸ (hrounded _).mpr rfl⟩

end Reckoner
