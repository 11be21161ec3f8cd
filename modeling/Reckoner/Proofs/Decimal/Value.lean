import Mathlib.Algebra.Order.Field.Rat
import Mathlib.Algebra.Order.Field.Power
import Mathlib.Data.Rat.Floor
import Mathlib.Tactic.FieldSimp
import Mathlib.Tactic.Linarith
import Mathlib.Tactic.Positivity
import Reckoner.Decimal.Basic
import Reckoner.Proofs.Decimal.Digits

/-!
# The number a scaled integer stands for

`Scaled.toRat` is the rational number that a sign, a coefficient and an exponent
stand for. Each operation of `Reckoner.Decimal.Scaled` is an operation on these
numbers, whatever exponents the operands are written with:

* `toRat_add`, `toRat_mul`, `toRat_negate`, `toRat_abs` – the operation of the
  same name on rationals,
* `toRat_rem` – what is left when the divisor is taken away as often as it goes
  into the dividend, the count being cut to an integer (`truncated`).

All of them rest on `toRat_eq_integerAt`: brought to an exponent that is not
above its own, a number keeps its value.
-/

namespace Reckoner

/-- **A rational number cut to an integer**, towards zero. -/
def truncated (q : ℚ) : ℤ := if 0 ≤ q then ⌊q⌋ else ⌈q⌉

theorem truncated_of_nonneg {q : ℚ} (h : 0 ≤ q) : truncated q = ⌊q⌋ := if_pos h

theorem truncated_neg (q : ℚ) : truncated (-q) = -truncated q := by
  unfold truncated
  rcases lt_trichotomy q 0 with h | rfl | h
  · rw [if_pos (by linarith), if_neg (by linarith), Int.floor_neg]
  · simp
  · rw [if_neg (by linarith), if_pos h.le, Int.ceil_neg]

/-- Cutting goes along with the absolute value. -/
theorem abs_truncated (q : ℚ) : |truncated q| = ⌊|q|⌋ := by
  unfold truncated
  split
  · next h => rw [abs_of_nonneg h, abs_of_nonneg (Int.floor_nonneg.mpr h)]
  · next h =>
    have h := not_le.mp h
    rw [abs_of_neg h, Int.floor_neg, abs_of_nonpos (Int.ceil_nonpos.mpr h.le)]

namespace Scaled

/-- One with the sign of the number. -/
def sign (x : Scaled) : ℚ := if x.negative then -1 else 1

/-- **The rational number** that a scaled integer stands for. -/
def toRat (x : Scaled) : ℚ := x.sign * x.coefficient * 10 ^ x.exponent

variable (x y : Scaled)

theorem abs_sign : |x.sign| = 1 := by
  unfold sign
  split <;> simp

theorem sign_mul_self : x.sign * x.sign = 1 := by
  unfold sign
  split <;> norm_num

/-- **Only zeros stand for zero.** -/
theorem toRat_eq_zero_iff : x.toRat = 0 ↔ x.isZero = true := by
  have hs : x.sign ≠ 0 := by
    intro h
    have := x.abs_sign
    rw [h, abs_zero] at this
    exact zero_ne_one this
  simp [toRat, isZero, hs, zpow_ne_zero]

theorem abs_toRat : |x.toRat| = x.coefficient * 10 ^ x.exponent := by
  rw [toRat, abs_mul, abs_mul, abs_sign, one_mul, Nat.abs_cast, abs_of_pos (by positivity)]

/-- **A number lies below zero** if it carries a minus sign and is not zero. -/
theorem toRat_lt_zero_iff : x.toRat < 0 ↔ x.negative = true ∧ x.isZero = false := by
  have hpow : (0 : ℚ) < 10 ^ x.exponent := by positivity
  have hcoefficient : (0 : ℚ) ≤ x.coefficient := Nat.cast_nonneg _
  rw [← Bool.not_eq_true, ← x.toRat_eq_zero_iff]
  unfold toRat sign
  cases x.negative with
  | false =>
    simp only [Bool.false_eq_true, if_false, false_and, iff_false, not_lt, one_mul]
    positivity
  | true =>
    simp only [if_true, true_and, neg_mul, one_mul, neg_lt_zero, neg_eq_zero]
    exact (mul_nonneg hcoefficient hpow.le).lt_iff_ne.trans ne_comm

theorem toRat_eq_sign_mul_abs : x.toRat = x.sign * |x.toRat| := by
  rw [abs_toRat, toRat, mul_assoc]

/-- Brought to an exponent that is not above its own, a number keeps its
absolute value. -/
theorem coefficientAt_mul {e : ℤ} (h : e ≤ x.exponent) :
    (x.coefficientAt e : ℚ) * 10 ^ e = x.coefficient * 10 ^ x.exponent := by
  rw [coefficientAt, appendZeros_eq, Nat.cast_mul, Nat.cast_pow, Nat.cast_ofNat, mul_assoc,
    ← zpow_natCast, Int.toNat_of_nonneg (by omega), ← zpow_add₀ (by norm_num)]
  congr 2
  omega

theorem toRat_eq_coefficientAt {e : ℤ} (h : e ≤ x.exponent) :
    x.toRat = x.sign * (x.coefficientAt e * 10 ^ e) := by
  rw [x.coefficientAt_mul h, toRat, mul_assoc]

theorem integerAt_eq (e : ℤ) : (x.integerAt e : ℚ) = x.sign * x.coefficientAt e := by
  unfold integerAt sign
  split
  · rw [Int.cast_neg, Int.cast_natCast, neg_one_mul]
  · rw [Int.cast_natCast, one_mul]

/-- **Brought to an exponent that is not above its own, a number keeps its
value.** -/
theorem toRat_eq_integerAt {e : ℤ} (h : e ≤ x.exponent) :
    x.toRat = (x.integerAt e : ℚ) * 10 ^ e := by
  rw [x.toRat_eq_coefficientAt h, integerAt_eq, mul_assoc]

/-! ## Sign, sum and product -/

theorem toRat_negate : x.negate.toRat = -x.toRat := by
  unfold negate toRat sign
  cases x.negative <;> simp

theorem toRat_abs : x.abs.toRat = |x.toRat| := by
  rw [abs_toRat]
  simp [abs, toRat, sign]

/-- An integer and an exponent written as a scaled integer. The sign of zero
is free. -/
theorem toRat_natAbs (n e : ℤ) (negative : Bool) (h : n ≠ 0 → negative = decide (n < 0)) :
    (⟨negative, n.natAbs, e⟩ : Scaled).toRat = n * 10 ^ e := by
  have hcast : ((n.natAbs : ℕ) : ℚ) = |(n : ℚ)| := by
    rw [Nat.cast_natAbs, Int.cast_abs]
  unfold toRat sign
  rw [hcast]
  rcases lt_trichotomy n 0 with hn | rfl | hn
  · rw [h hn.ne, abs_of_neg (by exact_mod_cast hn)]
    simp [hn]
  · simp
  · rw [h hn.ne', abs_of_pos (by exact_mod_cast hn)]
    simp [hn.le]

theorem toRat_add : (x.add y).toRat = x.toRat + y.toRat := by
  rw [add, toRat_natAbs _ _ _ (by intro h; simp [h]),
    x.toRat_eq_integerAt (min_le_left x.exponent y.exponent),
    y.toRat_eq_integerAt (min_le_right x.exponent y.exponent), Int.cast_add, add_mul]

theorem toRat_mul : (x.mul y).toRat = x.toRat * y.toRat := by
  unfold mul toRat sign
  rw [zpow_add₀ (by norm_num)]
  cases x.negative <;> cases y.negative <;> simp <;> ring

/-! ## The first digit -/

theorem coefficient_ne_zero (h : x.isZero = false) : x.coefficient ≠ 0 := by
  simpa [isZero] using h

/-- **A number is not below the power of ten its first digit stands at.** -/
theorem pow_adjusted_le (h : x.isZero = false) : (10 : ℚ) ^ x.adjusted ≤ |x.toRat| := by
  have hn := x.coefficient_ne_zero h
  have hd := one_le_digitCount x.coefficient
  have hle : (10 : ℚ) ^ (digitCount x.coefficient - 1) ≤ x.coefficient := by
    exact_mod_cast pow_le_of_lt_digitCount hn (Nat.sub_lt hd one_pos)
  rw [abs_toRat]
  calc (10 : ℚ) ^ x.adjusted
      = (10 : ℚ) ^ (digitCount x.coefficient - 1) * 10 ^ x.exponent := by
        rw [← zpow_natCast, ← zpow_add₀ (by norm_num), adjusted]
        congr 1
        omega
    _ ≤ x.coefficient * 10 ^ x.exponent := by gcongr

/-- **A number is below the next power of ten.** -/
theorem abs_toRat_lt : |x.toRat| < (10 : ℚ) ^ (x.adjusted + 1) := by
  have hlt : (x.coefficient : ℚ) < 10 ^ digitCount x.coefficient := by
    exact_mod_cast lt_pow_digitCount x.coefficient
  rw [abs_toRat]
  calc (x.coefficient : ℚ) * 10 ^ x.exponent
      < (10 : ℚ) ^ digitCount x.coefficient * 10 ^ x.exponent := by gcongr
    _ = (10 : ℚ) ^ (x.adjusted + 1) := by
        rw [← zpow_natCast, ← zpow_add₀ (by norm_num), adjusted]
        congr 1
        omega

/-- A number below a power of ten has its first digit below it. -/
theorem adjusted_lt {x : Scaled} (hx : x.isZero = false) {e : ℤ} (h : |x.toRat| < 10 ^ e) :
    x.adjusted < e :=
  (zpow_lt_zpow_iff_right₀ (by norm_num)).mp ((x.pow_adjusted_le hx).trans_lt h)

/-- Where the first digits stand at different powers of ten, they decide which
number is larger. -/
theorem abs_toRat_lt_of_adjusted_lt (hy : y.isZero = false) (h : x.adjusted < y.adjusted) :
    |x.toRat| < |y.toRat| :=
  calc |x.toRat| < (10 : ℚ) ^ (x.adjusted + 1) := x.abs_toRat_lt
    _ ≤ (10 : ℚ) ^ y.adjusted := zpow_le_zpow_right₀ (by norm_num) (by omega)
    _ ≤ |y.toRat| := y.pow_adjusted_le hy

/-! ## Remainder -/

theorem truncated_sign_mul (q : ℚ) :
    (truncated (x.sign * q) : ℚ) = x.sign * truncated q := by
  unfold sign
  split
  · rw [neg_one_mul, neg_one_mul, truncated_neg, Int.cast_neg]
  · rw [one_mul, one_mul]

/-- What the remainder computes, without the shortcut for a small dividend. -/
theorem rem_eq (hy : y.isZero = false) :
    x.rem y = ⟨x.negative,
      x.coefficientAt (min x.exponent y.exponent) % y.coefficientAt (min x.exponent y.exponent),
      min x.exponent y.exponent⟩ := by
  set e := min x.exponent y.exponent with he
  -- where the shortcut is taken, the remainder would not change the coefficient
  have hlt (h : x.isZero = true ∨ x.adjusted < y.adjusted) :
      x.coefficientAt e < y.coefficientAt e := by
    have habs : |x.toRat| < |y.toRat| := by
      rcases h with hx | hx
      · rw [x.toRat_eq_zero_iff.mpr hx, abs_zero, abs_pos, Ne, toRat_eq_zero_iff, hy]
        exact Bool.false_ne_true
      · exact x.abs_toRat_lt_of_adjusted_lt y hy hx
    rw [abs_toRat, abs_toRat, ← x.coefficientAt_mul (min_le_left _ _),
      ← y.coefficientAt_mul (min_le_right _ _), mul_lt_mul_iff_left₀ (by positivity)] at habs
    exact_mod_cast habs
  unfold rem
  rw [← he]
  split
  · next h =>
    rw [Nat.mod_eq_of_lt (hlt (by simpa using h))]
  · rfl

/-- **The remainder is what is left of the dividend** when the divisor is taken
away as often as the quotient, cut to an integer, says. -/
theorem toRat_rem (hy : y.isZero = false) :
    (x.rem y).toRat = x.toRat - y.toRat * truncated (x.toRat / y.toRat) := by
  rw [x.rem_eq y hy]
  have hx' := x.toRat_eq_coefficientAt (min_le_left x.exponent y.exponent)
  have hy' := y.toRat_eq_coefficientAt (min_le_right x.exponent y.exponent)
  set e := min x.exponent y.exponent
  set a := x.coefficientAt e
  set b := y.coefficientAt e
  have hb : (b : ℚ) ≠ 0 := by
    intro h
    rw [h, zero_mul, mul_zero, toRat_eq_zero_iff, hy] at hy'
    exact Bool.false_ne_true hy'
  have hquotient : x.toRat / y.toRat = x.sign * y.sign * (a / b) := by
    have hs := y.sign_mul_self
    have hpow : (10 : ℚ) ^ e ≠ 0 := by positivity
    have hsy : y.sign ≠ 0 := left_ne_zero_of_mul (hs ▸ one_ne_zero)
    rw [hx', hy']
    field_simp
    rw [pow_two, hs]
    ring
  have htruncated : (truncated (x.toRat / y.toRat) : ℚ) = x.sign * y.sign * (a / b : ℕ) := by
    rw [hquotient, mul_assoc, truncated_sign_mul, truncated_sign_mul,
      truncated_of_nonneg (by positivity), Rat.floor_natCast_div_natCast, mul_assoc]
    rfl
  have hmod : ((a % b : ℕ) : ℚ) = a - b * (a / b : ℕ) := by
    rw [eq_sub_iff_add_eq]
    exact_mod_cast Nat.mod_add_div a b
  -- the sign of the divisor occurs twice, in the divisor and in the quotient
  calc x.sign * ((a % b : ℕ) : ℚ) * 10 ^ e
      = x.sign * (a * 10 ^ e)
          - y.sign * y.sign * x.sign * (b * 10 ^ e) * (a / b : ℕ) := by
        rw [hmod, y.sign_mul_self]
        ring
    _ = x.toRat - y.toRat * truncated (x.toRat / y.toRat) := by
        rw [htruncated, hx', hy']
        ring

end Scaled

end Reckoner
