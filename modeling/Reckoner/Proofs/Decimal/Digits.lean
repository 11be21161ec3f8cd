import Mathlib.Algebra.Order.Ring.Nat
import Mathlib.Tactic.Ring
import Mathlib.Tactic.NormNum
import Reckoner.Decimal.Digits

/-!
# How many digits a natural number has

`digitCount` counts in blocks of sixteen digits. What the rest of the theory
needs is that a number has at most `k` digits exactly if it is below `10 ^ k`
(`digitCount_le_iff`).
-/

namespace Reckoner

/-- Every number has a digit. -/
theorem one_le_digitCount (n : Nat) : 1 ≤ digitCount n := by
  fun_induction digitCount n <;> omega

/-- A number is below the power of ten that its digits number. -/
theorem lt_pow_digitCount (n : Nat) : n < 10 ^ digitCount n := by
  fun_induction digitCount n with
  | case1 n h => simpa using h
  | case2 n h h16 ih =>
    rw [pow_succ]
    omega
  | case3 n h h16 ih =>
    rw [pow_add]
    omega

/-- The first digit of a number stands for a power of ten it is not below. -/
theorem pow_le_of_lt_digitCount {n k : Nat} (hn : n ≠ 0) (hk : k < digitCount n) : 10 ^ k ≤ n := by
  fun_induction digitCount n generalizing k with
  | case1 n h =>
    obtain rfl : k = 0 := by omega
    omega
  | case2 n h h16 ih =>
    cases k with
    | zero => omega
    | succ k =>
      have hstep := ih (by omega) (by omega : k < digitCount (n / 10))
      rw [pow_succ]
      omega
  | case3 n h h16 ih =>
    have hpos := one_le_digitCount (n / 10 ^ 16)
    have hstep := ih (by omega) (by omega : k - 16 < digitCount (n / 10 ^ 16))
    calc 10 ^ k ≤ 10 ^ (k - 16 + 16) := Nat.pow_le_pow_right (by norm_num) (by omega)
      _ = 10 ^ (k - 16) * 10 ^ 16 := pow_add 10 (k - 16) 16
      _ ≤ n / 10 ^ 16 * 10 ^ 16 := Nat.mul_le_mul_right _ hstep
      _ ≤ n := Nat.div_mul_le_self n (10 ^ 16)

/-- **A number has at most `k` digits exactly if it is below `10 ^ k`.** -/
theorem digitCount_le_iff {n k : Nat} (hk : 1 ≤ k) : digitCount n ≤ k ↔ n < 10 ^ k := by
  constructor
  · intro h
    exact (lt_pow_digitCount n).trans_le (Nat.pow_le_pow_right (by norm_num) h)
  · intro h
    by_contra hlt
    have hn : n ≠ 0 := by
      rintro rfl
      rw [digitCount] at hlt
      exact hlt (by simpa using hk)
    exact absurd (pow_le_of_lt_digitCount hn (Nat.lt_of_not_le hlt)) (Nat.not_le_of_lt h)

end Reckoner
