import Mathlib.Data.Sign.Basic
import Reckoner.Proofs.Decimal.Nearest

/-!
# How far a computed number is from the exact one

A computation that rounds each of its results drifts away from the exact numbers.
How far is told by one factor: `r` is within the factor `g` of `q` (`IsNear`) if
the two differ by at most `g - 1` times `q`. The factors of a computation are
those of its steps, multiplied:

* `IsNear.mul` – the factors of two numbers are multiplied where the numbers are,
* `IsNear.nearest` – rounding to the nearest number of a context puts in the
  factor `1 + ctx.roundoff`, as long as the exact number does not lie below the
  smallest exponent. Whether the computed one does is of no matter.

How many steps a computation may have before the factor is felt is said by
`one_add_pow_le`.
-/

namespace Reckoner

/-! ## Modes that round to the nearest integer -/

/-- **The modes that round to the nearest integer.** They differ in what becomes of
a tie. -/
inductive RoundingMode.ToNearest : RoundingMode → Prop
  | halfUp : ToNearest .halfUp
  | halfEven : ToNearest .halfEven

namespace RoundingMode

/-- The nearest integer is at most one half away, also where a tie goes to the even
one. -/
theorem abs_sub_toInt_halfEven_le (q : ℚ) : |q - halfEven.toInt q| ≤ 1 / 2 := by
  have hfract : q - ⌊q⌋ = Int.fract q := rfl
  dsimp only [toInt]
  split
  · next htie =>
    have hceil : ⌈q⌉ = ⌊q⌋ + 1 := ceil_eq_of_fract_ne_zero (by rw [htie]; norm_num)
    rw [htie] at hfract
    split
    · rw [hfract, abs_of_pos (by norm_num)]
    · rw [hceil, Int.cast_add, Int.cast_one, ← sub_sub, hfract]
      norm_num
  · exact abs_sub_round q

theorem ToNearest.abs_sub_toInt_le {mode : RoundingMode} (h : mode.ToNearest) (q : ℚ) :
    |q - mode.toInt q| ≤ 1 / 2 := by
  cases h with
  | halfUp => exact abs_sub_toInt_halfUp_le q
  | halfEven => exact abs_sub_toInt_halfEven_le q

end RoundingMode

/-! ## One rounding -/

namespace Context

variable {ctx : Context} {q : ℚ}

/-- **The relative error of one rounding**: half a unit of the last place, for a
number that is a power of ten. -/
def roundoff (ctx : Context) : ℚ := 10 ^ (1 - ctx.precision : ℤ) / 2

theorem roundoff_pos (ctx : Context) : 0 < ctx.roundoff := by
  unfold roundoff
  positivity

theorem roundoff_le (hp : 1 ≤ ctx.precision) : ctx.roundoff ≤ 1 / 2 := by
  unfold roundoff
  gcongr
  exact zpow_le_one_of_nonpos₀ (by norm_num) (by omega)

/-- A number that does not lie below the smallest exponent is not zero. -/
theorem ne_zero_of_minExponent_le (h : 10 ^ minExponent ≤ |q|) : q ≠ 0 :=
  abs_pos.mp (lt_of_lt_of_le (by positivity) h)

/-- A number is rounded by half a unit of its last place at most, which is a part of
the number itself, or of the smallest number of full precision. -/
theorem abs_nearest_sub_le (hmode : ctx.mode.ToNearest) (q : ℚ) :
    |ctx.nearest q - q| ≤ ctx.roundoff * max |q| (10 ^ minExponent) := by
  by_cases hq : q = 0
  · rw [hq, nearest_zero, sub_zero, abs_zero]
    exact mul_nonneg ctx.roundoff_pos.le (le_max_left _ _)
  have hunit : (0 : ℚ) < 10 ^ ctx.lastPlace q := by positivity
  have hhalf : |ctx.nearest q - q| ≤ 1 / 2 * 10 ^ ctx.lastPlace q := by
    have hscale : ctx.nearest q - q = (ctx.mode.toInt (q / 10 ^ ctx.lastPlace q)
        - q / 10 ^ ctx.lastPlace q) * 10 ^ ctx.lastPlace q := by
      rw [sub_mul, div_mul_cancel₀ _ hunit.ne', nearest]
    rw [hscale, abs_mul, abs_of_pos hunit, abs_sub_comm]
    gcongr
    exact hmode.abs_sub_toInt_le _
  have hplace : ctx.lastPlace q
      = 1 - (ctx.precision : ℤ) + max (Int.log 10 |q|) minExponent := by
    unfold lastPlace lastExponent tiny
    omega
  have hfirst : (10 : ℚ) ^ max (Int.log 10 |q|) minExponent ≤ max |q| (10 ^ minExponent) := by
    rcases max_choice (Int.log 10 |q|) minExponent with h | h
    · rw [h]
      refine le_trans ?_ (le_max_left _ _)
      exact_mod_cast Int.zpow_log_le_self (b := 10) (by norm_num) (abs_pos.mpr hq)
    · rw [h]
      exact le_max_right _ _
  calc |ctx.nearest q - q| ≤ 1 / 2 * 10 ^ ctx.lastPlace q := hhalf
    _ = ctx.roundoff * 10 ^ max (Int.log 10 |q|) minExponent := by
      rw [hplace, zpow_add₀ (by norm_num), roundoff]
      ring
    _ ≤ ctx.roundoff * max |q| (10 ^ minExponent) := by
      gcongr
      exact ctx.roundoff_pos.le

end Context

/-! ## Accumulated error -/

/-- **A number within a factor of another**: the error of `r` is at most `g - 1`
times the exact number `q`. -/
def IsNear (g q r : ℚ) : Prop := |r - q| ≤ (g - 1) * |q|

namespace IsNear

variable {g h q r s t : ℚ}

theorem refl (q : ℚ) : IsNear 1 q q := by
  rw [IsNear, sub_self, sub_self, abs_zero, zero_mul]

theorem mono (hr : IsNear g q r) (hle : g ≤ h) : IsNear h q r :=
  le_trans hr (by gcongr)

theorem one_le (hr : IsNear g q r) (hq : q ≠ 0) : 1 ≤ g := by
  have hnonneg : 0 ≤ (g - 1) * |q| := (abs_nonneg _).trans hr
  exact sub_nonneg.mp (nonneg_of_mul_nonneg_left hnonneg (abs_pos.mpr hq))

/-- A number within a factor is at most that many times as large. -/
theorem abs_le (hr : IsNear g q r) : |r| ≤ g * |q| :=
  calc |r| = |q + (r - q)| := by rw [add_sub_cancel]
    _ ≤ |q| + |r - q| := abs_add_le _ _
    _ ≤ |q| + (g - 1) * |q| := by gcongr; exact hr
    _ = g * |q| := by ring

/-- **Where numbers are multiplied, so are their factors.** -/
theorem mul (hr : IsNear g q r) (ht : IsNear h s t) : IsNear (g * h) (q * s) (r * t) :=
  calc |r * t - q * s| = |(r - q) * t + q * (t - s)| := by ring_nf
    _ ≤ |r - q| * |t| + |q| * |t - s| := by
      rw [← abs_mul, ← abs_mul]
      exact abs_add_le _ _
    _ ≤ (g - 1) * |q| * (h * |s|) + |q| * ((h - 1) * |s|) := by
      refine add_le_add ?_ (mul_le_mul_of_nonneg_left ht (abs_nonneg _))
      exact mul_le_mul hr ht.abs_le (abs_nonneg _) ((abs_nonneg _).trans hr)
    _ = (g * h - 1) * |q * s| := by
      rw [abs_mul]
      ring

/-- **Rounding adds its own factor**, where the exact number does not lie below the
smallest exponent. -/
theorem nearest {ctx : Context} (hmode : ctx.mode.ToNearest) (hr : IsNear g q r)
    (hlow : 10 ^ Context.minExponent ≤ |q|) :
    IsNear (g * (1 + ctx.roundoff)) q (ctx.nearest r) := by
  have hone : 1 ≤ g := hr.one_le (Context.ne_zero_of_minExponent_le hlow)
  have hlarge : max |r| (10 ^ Context.minExponent) ≤ g * |q| :=
    max_le hr.abs_le (hlow.trans (le_mul_of_one_le_left (abs_nonneg q) hone))
  calc |ctx.nearest r - q| ≤ |ctx.nearest r - r| + |r - q| := abs_sub_le _ _ _
    _ ≤ ctx.roundoff * (g * |q|) + (g - 1) * |q| := by
      refine add_le_add ((Context.abs_nearest_sub_le hmode r).trans ?_) hr
      exact mul_le_mul_of_nonneg_left hlarge ctx.roundoff_pos.le
    _ = (g * (1 + ctx.roundoff) - 1) * |q| := by ring

/-- A computed number may be given the sign of the exact one. -/
theorem mul_abs (hr : IsNear g q r) {sign : ℚ} (hsign : |sign| = 1) (hq : q = sign * |q|) :
    IsNear g q (sign * |r|) := by
  have hdiff : sign * |r| - q = sign * (|r| - |q|) := by
    rw [mul_sub, ← hq]
  rw [IsNear, hdiff, abs_mul, hsign, one_mul]
  exact (abs_abs_sub_abs_le _ _).trans hr

/-- Numbers that differ by less than either of them have the same sign. -/
theorem sign_eq (hr : IsNear g q r) (hg : g < 2) (hq : q ≠ 0) :
    SignType.sign r = SignType.sign q := by
  have hlt : |r - q| < |q| :=
    lt_of_le_of_lt hr (mul_lt_of_lt_one_left (abs_pos.mpr hq) (by linarith))
  obtain ⟨hlow, hhigh⟩ := abs_lt.mp hlt
  rcases lt_or_gt_of_ne hq with hneg | hpos
  · rw [abs_of_neg hneg] at hhigh
    rw [sign_neg hneg, sign_neg (by linarith)]
  · rw [abs_of_pos hpos] at hlow
    rw [sign_pos hpos, sign_pos (by linarith)]

end IsNear

/-- **Many small factors** together are not much larger than the sum of what each of
them adds. -/
theorem one_add_pow_le {u : ℚ} (hu : 0 ≤ u) {k : ℕ} (hk : k * u ≤ 1 / 2) :
    (1 + u) ^ k ≤ 1 + 2 * (k * u) := by
  induction k with
  | zero => simp
  | succ k ih =>
    rw [Nat.cast_succ] at hk ⊢
    have hprev : k * u ≤ 1 / 2 := by linarith
    calc (1 + u) ^ (k + 1) = (1 + u) ^ k * (1 + u) := pow_succ _ _
      _ ≤ (1 + 2 * (k * u)) * (1 + u) := by gcongr; exact ih hprev
      _ = 1 + 2 * (k * u) + u + 2 * (k * u) * u := by ring
      _ ≤ 1 + 2 * (k * u) + u + 1 * u := by gcongr; linarith
      _ = 1 + 2 * ((k + 1) * u) := by ring

end Reckoner
