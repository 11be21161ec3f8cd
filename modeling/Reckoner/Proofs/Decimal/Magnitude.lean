import Mathlib.Data.Int.Log
import Mathlib.Data.Nat.Cast.Field
import Reckoner.Proofs.Decimal.Value

/-!
# Questions about a number that its digits decide

Some questions are put to the digits and the exponent of a scaled integer
rather than to the number: which of two is larger, whether it is an integer,
where its first digit stands. Their answers depend on the number alone, and this
module says on what of it:

* `Scaled.adjusted_eq_log` – the first digit stands at the logarithm,
* `Scaled.compareMagnitude_eq` – the order is that of the absolute values,
* `Scaled.toNat?_eq_some_iff` – a natural number is recognised as one,
* `Scaled.toRat_reduce` and `Scaled.toRat_stripZerosTo` – zeros that are dropped
  from the coefficient go into the exponent.

The number of zeros a coefficient ends in is the largest power of ten that
divides it (`pow_dvd_iff_le_trailingZeros`).
-/

namespace Reckoner

/-- **A power of ten divides a number** if the number ends in that many zeros. -/
theorem pow_dvd_iff_le_trailingZeros {n k : ℕ} (hn : n ≠ 0) :
    10 ^ k ∣ n ↔ k ≤ trailingZeros n := by
  fun_induction trailingZeros n generalizing k with
  | case1 => exact absurd rfl hn
  | case2 n _ hmod ih =>
    cases k with
    | zero => simp
    | succ k =>
      have hten : n = 10 * (n / 10) := by omega
      rw [Nat.succ_le_succ_iff, ← ih (by omega), pow_succ']
      conv_lhs => rw [hten]
      exact Nat.mul_dvd_mul_iff_left (by norm_num)
  | case3 n _ hmod =>
    cases k with
    | zero => simp
    | succ k =>
      refine iff_of_false (fun h => hmod ?_) (by omega)
      exact Nat.mod_eq_zero_of_dvd ((dvd_pow_self 10 (Nat.succ_ne_zero k)).trans h)

/-- The logarithm of a number between two powers that follow each other. -/
theorem log_eq_of_zpow_le_of_lt_zpow {b : ℕ} (hb : 1 < b) {q : ℚ} {e : ℤ} (hlow : (b : ℚ) ^ e ≤ q)
    (hhigh : q < (b : ℚ) ^ (e + 1)) : Int.log b q = e := by
  have hpos : 0 < q := (zpow_pos (by positivity) e).trans_le hlow
  have := (Int.zpow_le_iff_le_log hb hpos).mp hlow
  have := (Int.lt_zpow_iff_log_lt hb hpos).mp hhigh
  omega

/-- **The logarithm of a quotient** is the difference of the logarithms, or one
less. -/
theorem log_div {b : ℕ} (hb : 1 < b) {u v : ℚ} (hu : 0 < u) (hv : 0 < v) :
    Int.log b (u / v) = Int.log b u - Int.log b v
      - if u / v < b ^ (Int.log b u - Int.log b v) then 1 else 0 := by
  have hbase : (b : ℚ) ≠ 0 := by positivity
  have hlow : (b : ℚ) ^ (Int.log b u - Int.log b v - 1) ≤ u / v := by
    rw [le_div_iff₀ hv]
    calc (b : ℚ) ^ (Int.log b u - Int.log b v - 1) * v
        ≤ b ^ (Int.log b u - Int.log b v - 1) * b ^ (Int.log b v + 1) := by
          gcongr
          exact (Int.lt_zpow_succ_log_self hb v).le
      _ = b ^ Int.log b u := by
          rw [← zpow_add₀ hbase]
          congr 1
          omega
      _ ≤ u := Int.zpow_log_le_self hb hu
  have hhigh : u / v < (b : ℚ) ^ (Int.log b u - Int.log b v + 1) := by
    rw [div_lt_iff₀ hv]
    calc u < b ^ (Int.log b u + 1) := Int.lt_zpow_succ_log_self hb u
      _ = b ^ (Int.log b u - Int.log b v + 1) * b ^ Int.log b v := by
          rw [← zpow_add₀ hbase]
          congr 1
          omega
      _ ≤ b ^ (Int.log b u - Int.log b v + 1) * v := by
          gcongr
          exact Int.zpow_log_le_self hb hv
  split
  · next h =>
    exact log_eq_of_zpow_le_of_lt_zpow hb hlow (by rwa [sub_add_cancel])
  · next h =>
    rw [sub_zero]
    exact log_eq_of_zpow_le_of_lt_zpow hb (not_lt.mp h) hhigh

namespace Scaled

variable (x y : Scaled)

theorem toRat_ne_zero (h : x.isZero = false) : x.toRat ≠ 0 := by
  rw [Ne, toRat_eq_zero_iff, h]
  exact Bool.false_ne_true

/-- **A natural number** written as a scaled integer. -/
theorem toRat_ofNat (n : ℕ) : (ofNat n).toRat = n := by
  simp [ofNat, toRat, sign]

/-! ## The first digit -/

/-- **The first digit stands at the logarithm** of the absolute value. -/
theorem adjusted_eq_log (h : x.isZero = false) : x.adjusted = Int.log 10 |x.toRat| :=
  (log_eq_of_zpow_le_of_lt_zpow (by norm_num) (by exact_mod_cast x.pow_adjusted_le h)
    (by exact_mod_cast x.abs_toRat_lt)).symm

/-! ## Order -/

/-- **The order of magnitudes** is the order of the absolute values. -/
theorem compareMagnitude_eq : x.compareMagnitude y = cmp |x.toRat| |y.toRat| := by
  have hzero {z : Scaled} (hz : z.isZero = true) : |z.toRat| = 0 := by
    rw [abs_eq_zero, z.toRat_eq_zero_iff, hz]
  have hpos {z : Scaled} (hz : ¬z.isZero = true) : 0 < |z.toRat| :=
    abs_pos.mpr (z.toRat_ne_zero (Bool.eq_false_of_not_eq_true hz))
  by_cases hx : x.isZero = true
  · by_cases hy : y.isZero = true
    · rw [compareMagnitude, if_pos hx, if_pos hy, hzero hx, hzero hy, cmp_self_eq_eq]
    · rw [compareMagnitude, if_pos hx, if_neg hy, hzero hx, (cmp_eq_lt_iff _ _).mpr (hpos hy)]
  · by_cases hy : y.isZero = true
    · rw [compareMagnitude, if_neg hx, if_pos hy, hzero hy, (cmp_eq_gt_iff _ _).mpr (hpos hx)]
    · rw [compareMagnitude, if_neg hx, if_neg hy]
      obtain h | h | h := lt_trichotomy x.adjusted y.adjusted
      · rw [if_pos h, (cmp_eq_lt_iff _ _).mpr
          (x.abs_toRat_lt_of_adjusted_lt y (Bool.eq_false_of_not_eq_true hy) h)]
      · -- brought to one exponent, the coefficients decide
        have hscale : StrictMono fun n : ℕ => (n : ℚ) * 10 ^ min x.exponent y.exponent :=
          fun m n h => by
            have : (m : ℚ) < n := by exact_mod_cast h
            dsimp only
            gcongr
        rw [if_neg h.not_lt, if_neg h.not_gt, x.abs_toRat, y.abs_toRat,
          ← x.coefficientAt_mul (min_le_left x.exponent y.exponent),
          ← y.coefficientAt_mul (min_le_right x.exponent y.exponent)]
        exact (cmp_eq_compare _ _).symm.trans (hscale.cmp_map_eq _ _).symm
      · rw [if_neg h.not_gt, if_pos h, (cmp_eq_gt_iff _ _).mpr
          (y.abs_toRat_lt_of_adjusted_lt x (Bool.eq_false_of_not_eq_true hx) h)]

theorem hasMagnitude_iff {n : ℕ} : x.hasMagnitude n = true ↔ |x.toRat| = n := by
  rw [hasMagnitude, beq_iff_eq, compareMagnitude_eq, cmp_eq_eq_iff, toRat_ofNat, Nat.abs_cast]

theorem magnitudeAtLeast_iff {n : ℕ} : x.magnitudeAtLeast n = true ↔ (n : ℚ) ≤ |x.toRat| := by
  rw [magnitudeAtLeast, bne_iff_ne, Ne, compareMagnitude_eq, cmp_eq_lt_iff, toRat_ofNat,
    Nat.abs_cast, not_lt]

/-! ## Zeros at the end -/

/-- Zeros that are dropped from a coefficient go into the exponent. -/
theorem toRat_dropZeros {negative : Bool} {c k : ℕ} {e : ℤ} (h : 10 ^ k ∣ c) :
    (⟨negative, c / 10 ^ k, e + k⟩ : Scaled).toRat = (⟨negative, c, e⟩ : Scaled).toRat := by
  have hpow : (10 : ℚ) ^ k ≠ 0 := by positivity
  show _ * ((c / 10 ^ k : ℕ) : ℚ) * (10 : ℚ) ^ (e + k) = _ * (c : ℚ) * (10 : ℚ) ^ e
  rw [Nat.cast_div h (by exact_mod_cast hpow), zpow_add₀ (by norm_num), zpow_natCast,
    Nat.cast_pow, Nat.cast_ofNat, mul_comm ((10 : ℚ) ^ e), mul_assoc, mul_assoc,
    ← mul_assoc _ _ (10 ^ e), div_mul_cancel₀ _ hpow]
  rfl

theorem toRat_stripZerosTo (limit : ℤ) : (x.stripZerosTo limit).toRat = x.toRat := by
  by_cases hx : x.coefficient = 0
  · rw [(toRat_eq_zero_iff _).mpr (by simp [stripZerosTo, isZero, hx]),
      (toRat_eq_zero_iff _).mpr (by simp [isZero, hx])]
  · exact toRat_dropZeros ((pow_dvd_iff_le_trailingZeros hx).mpr (min_le_left _ _))

/-- **The shortest form** of a number has its value. -/
theorem toRat_reduce : x.reduce.toRat = x.toRat := by
  unfold reduce
  split
  · next hx =>
    rw [x.toRat_eq_zero_iff.mpr hx, toRat_eq_zero_iff]
    rfl
  · next hx =>
    have hne := x.coefficient_ne_zero (Bool.eq_false_of_not_eq_true hx)
    exact toRat_dropZeros ((pow_dvd_iff_le_trailingZeros hne).mpr le_rfl)

/-! ## Natural numbers -/

/-- **A natural number is recognised as one**, whatever exponent it is written
with. -/
theorem toNat?_eq_some_iff {n : ℕ} : x.toNat? = some n ↔ |x.toRat| = n := by
  rw [abs_toRat]
  unfold toNat?
  split
  · next hx =>
    have hx : x.coefficient = 0 := by simpa [isZero] using hx
    rw [hx, Nat.cast_zero, zero_mul, Option.some_inj]
    exact_mod_cast Iff.rfl
  · next hx =>
    have hx := x.coefficient_ne_zero (Bool.eq_false_of_not_eq_true hx)
    split
    · next he =>
      obtain ⟨k, hk⟩ := Int.eq_ofNat_of_zero_le he
      rw [hk, Int.toNat_natCast, zpow_natCast, Option.some_inj]
      exact_mod_cast Iff.rfl
    · next he =>
      obtain ⟨k, hk⟩ := Int.eq_ofNat_of_zero_le (by omega : 0 ≤ -x.exponent)
      have hexponent : x.exponent = -(k : ℤ) := by omega
      have hvalue : (x.coefficient : ℚ) * 10 ^ x.exponent = n ↔ x.coefficient = n * 10 ^ k := by
        rw [hexponent, zpow_neg, zpow_natCast, ← div_eq_mul_inv, div_eq_iff (by positivity)]
        exact_mod_cast Iff.rfl
      rw [hvalue, hk, Int.toNat_natCast]
      dsimp only
      split
      · next hlt =>
        refine iff_of_false (Option.some_ne_none n).symm fun h => not_le.mpr hlt ?_
        exact (pow_dvd_iff_le_trailingZeros hx).mp (Dvd.intro_left n h.symm)
      · next hle =>
        have hdvd := (pow_dvd_iff_le_trailingZeros hx).mpr (not_lt.mp hle)
        rw [Option.some_inj]
        exact Nat.div_eq_iff_eq_mul_left (by positivity) hdvd

/-- Numbers of one magnitude are the same natural number, or both none. -/
theorem toNat?_eq_of_abs_eq {x y : Scaled} (h : |x.toRat| = |y.toRat|) : x.toNat? = y.toNat? := by
  ext n
  rw [toNat?_eq_some_iff, toNat?_eq_some_iff, h]

end Scaled

end Reckoner
