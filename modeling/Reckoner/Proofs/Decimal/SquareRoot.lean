import Mathlib.Data.Nat.Cast.Order.Field
import Reckoner.Decimal.Binary
import Reckoner.Expr.Basic
import Reckoner.Proofs.Decimal.Rounding
import Reckoner.Proofs.Outcome

/-!
# How large a square root can be

A root is taken among the binary fractions of double precision, and these end
below `2 ^ 1024` (`Binary.toRat_lt_of_overflows`). The root of one of them is
therefore small, and rounding it to a context makes it at most some ten times as
large (`Context.abs_toRat_round_le`). The bounds are coarse on purpose: the
square of a root is compared with four times the radicand, which leaves room for
the integer root having been rounded up.
-/

namespace Reckoner

/-! ## Rounding makes no number much larger -/

/-- A rounded quotient is at most one more than the quotient. -/
theorem roundQuotient_le (mode : RoundingMode) (negative : Bool) (n d : ℕ) :
    roundQuotient mode negative n d ≤ n / d + 1 := by
  unfold roundQuotient
  dsimp only
  split <;> omega

namespace Context

variable {ctx : Context} {x y : Scaled}

/-- Settling a number makes it no larger. -/
theorem abs_toRat_settle_le {negative : Bool} {c : ℕ} {e : ℤ}
    (h : ctx.settle negative c e = .ok y) : |y.toRat| ≤ c * 10 ^ e := by
  unfold settle at h
  by_cases hlong : ctx.precision < digitCount c
  · rw [if_pos hlong] at h
    dsimp only at h
    split at h
    · cases h
    · obtain rfl := Except.ok.inj h
      -- the last digit was dropped, and the exponent took its place
      rw [Scaled.abs_toRat, zpow_add₀ (by norm_num), zpow_one, mul_comm ((10 : ℚ) ^ e), ← mul_assoc]
      gcongr
      exact_mod_cast Nat.div_mul_le_self c 10
  · rw [if_neg hlong] at h
    dsimp only at h
    split at h
    · cases h
    · obtain rfl := Except.ok.inj h
      rw [Scaled.abs_toRat]

/-- The last digit that is kept stands no higher than one place above the first
digit, or above the point. -/
theorem max_lastExponent_le (ctx : Context) (x : Scaled) :
    max x.exponent (ctx.lastExponent x.adjusted) ≤ max (x.adjusted + 1) 0 := by
  have hcount := one_le_digitCount x.coefficient
  unfold lastExponent tiny minExponent Scaled.adjusted
  omega

/-- **Rounding to a context** makes a number at most some ten times as large. -/
theorem abs_toRat_round_le (h : ctx.round x = .ok y) : |y.toRat| ≤ 11 * |x.toRat| + 1 := by
  have hnonneg := abs_nonneg x.toRat
  cases hx : x.isZero with
  | true =>
    rw [round, if_pos hx] at h
    obtain rfl := Except.ok.inj h
    rw [Scaled.abs_toRat, Nat.cast_zero, zero_mul]
    positivity
  | false =>
    rw [round, hx, if_neg Bool.false_ne_true] at h
    dsimp only at h
    set last := max x.exponent (ctx.lastExponent x.adjusted) with hlast
    set k := (last - x.exponent).toNat with hk
    have hpow : (10 : ℚ) ^ last = 10 ^ k * 10 ^ x.exponent := by
      rw [← zpow_natCast, ← zpow_add₀ (by norm_num), hk, Int.toNat_of_nonneg (by omega),
        sub_add_cancel]
    -- what is cut off is replaced by at most one unit of the last digit
    have hcut : (cutDigits ctx.mode x.negative x.coefficient k : ℚ) * 10 ^ last
        ≤ |x.toRat| + 10 ^ last := by
      rw [cutDigits_eq]
      calc (roundQuotient ctx.mode x.negative x.coefficient (10 ^ k) : ℚ) * 10 ^ last
          ≤ ((x.coefficient / 10 ^ k : ℕ) + 1) * 10 ^ last := by
            gcongr
            exact_mod_cast roundQuotient_le ctx.mode x.negative x.coefficient (10 ^ k)
        _ ≤ (x.coefficient / 10 ^ k + 1) * 10 ^ last := by
            gcongr
            exact_mod_cast Nat.cast_div_le
        _ = |x.toRat| + 10 ^ last := by
            rw [x.abs_toRat, add_mul, one_mul, hpow, ← mul_assoc, div_mul_cancel₀ _ (by positivity)]
    have hunit : (10 : ℚ) ^ last ≤ 10 * |x.toRat| + 1 :=
      calc (10 : ℚ) ^ last ≤ 10 ^ max (x.adjusted + 1) 0 :=
            zpow_le_zpow_right₀ (by norm_num) (ctx.max_lastExponent_le x)
        _ ≤ 10 * 10 ^ x.adjusted + 1 := by
            rcases max_choice (x.adjusted + 1) 0 with hmax | hmax
            · rw [hmax, zpow_add₀ (by norm_num), zpow_one, mul_comm]
              exact le_add_of_nonneg_right zero_le_one
            · rw [hmax, zpow_zero]
              exact le_add_of_nonneg_left (by positivity)
        _ ≤ 10 * |x.toRat| + 1 := by
            gcongr
            exact x.pow_adjusted_le hx
    linarith [abs_toRat_settle_le h]

end Context

/-! ## Binary fractions -/

namespace Binary

/-- **The rational number** that a binary fraction stands for. -/
def toRat (x : Binary) : ℚ := x.mantissa * 2 ^ x.exponent

variable {x : Binary}

theorem toRat_nonneg (x : Binary) : 0 ≤ x.toRat := by
  unfold toRat
  positivity

/-- Even factors may be moved into the exponent. -/
theorem toRat_reduce (x : Binary) : x.reduce.toRat = x.toRat := by
  fun_induction reduce x with
  | case1 x h ih =>
    have heven : x.mantissa = 2 * (x.mantissa / 2) := by omega
    rw [ih, toRat, toRat, zpow_add₀ (by norm_num), zpow_one]
    conv_rhs => rw [heven, Nat.cast_mul, Nat.cast_ofNat]
    ring
  | case2 x h hzero =>
    rw [toRat, toRat, hzero, Nat.cast_zero, zero_mul, zero_mul]
  | case3 x => rfl

/-- **The decimal expansion** of a binary fraction has its value. -/
theorem toRat_toScaled (x : Binary) : x.toScaled.toRat = x.toRat := by
  rw [← toRat_reduce]
  unfold toScaled
  dsimp only
  split
  · next h =>
    obtain ⟨k, hk⟩ := Int.eq_ofNat_of_zero_le h
    rw [Scaled.toRat, toRat, hk]
    simp [Scaled.sign]
  · next h =>
    obtain ⟨k, hk⟩ := Int.eq_ofNat_of_zero_le (by omega : 0 ≤ -x.reduce.exponent)
    have hexponent : x.reduce.exponent = -(k : ℤ) := by omega
    have hten : (10 : ℚ) ^ k = 2 ^ k * 5 ^ k := by rw [← mul_pow]; norm_num
    rw [Scaled.toRat, toRat, hexponent, neg_neg, Int.toNat_natCast, zpow_neg, zpow_neg,
      zpow_natCast, zpow_natCast, hten]
    simp only [Scaled.sign, Bool.false_eq_true, if_false, one_mul, Nat.cast_mul, Nat.cast_pow,
      Nat.cast_ofNat]
    field_simp

/-- **The binary fractions end below `2 ^ 1024`.** -/
theorem toRat_lt_of_overflows (h : x.overflows = false) : x.toRat < 2 ^ (2 * 512 : ℤ) := by
  by_cases hzero : x.mantissa = 0
  · rw [toRat, hzero, Nat.cast_zero, zero_mul]
    positivity
  · have htop : (x.mantissa.log2 : ℤ) + 1 + x.exponent ≤ 1024 := by
      simpa [overflows, hzero] using h
    have hlog : (x.mantissa : ℚ) < 2 ^ (x.mantissa.log2 + 1) := by
      exact_mod_cast Nat.lt_log2_self
    calc x.toRat < 2 ^ (x.mantissa.log2 + 1) * 2 ^ x.exponent := by
          unfold toRat
          gcongr
      _ = (2 : ℚ) ^ ((x.mantissa.log2 : ℤ) + 1 + x.exponent) := by
          rw [← zpow_natCast, ← zpow_add₀ (by norm_num), Nat.cast_add, Nat.cast_one]
      _ ≤ 2 ^ (2 * 512 : ℤ) := zpow_le_zpow_right₀ (by norm_num) htop

/-- A fraction read from a quotient lies within the format, and its mantissa has
hardly more bits than the format gives it. -/
theorem spec_of_ofQuotient? {n d : ℕ} (hd : d ≠ 0) (h : ofQuotient? n d = some x) :
    x.overflows = false ∧ x.mantissa ≤ 2 ^ 54 := by
  unfold ofQuotient? at h
  split at h
  · obtain rfl := Option.some.inj h
    exact ⟨rfl, Nat.zero_le _⟩
  · dsimp only at h
    set gap : ℤ := (n.log2 : ℤ) - d.log2 with hgap
    set e := max ((if decide (d * 2 ^ gap.toNat ≤ n * 2 ^ (-gap).toNat) = true then gap
      else gap - 1) - mantissaBits + 1) minExponent with he
    have hle : gap - 53 ≤ e := by
      refine le_trans ?_ (le_max_left _ _)
      unfold mantissaBits
      split <;> omega
    split at h
    · cases h
    · next hoverflows =>
      obtain rfl := Option.some.inj h
      refine ⟨Bool.eq_false_of_not_eq_true hoverflows, ?_⟩
      refine (roundQuotient_le _ _ _ _).trans (Nat.div_lt_of_lt_mul ?_)
      -- both sides are powers of two, up to the bits that `log2` leaves out
      calc n * 2 ^ (-e).toNat < 2 ^ (n.log2 + 1) * 2 ^ (-e).toNat := by
            gcongr
            exact Nat.lt_log2_self
        _ = 2 ^ (n.log2 + 1 + (-e).toNat) := (pow_add ..).symm
        _ ≤ 2 ^ (d.log2 + e.toNat + 54) := Nat.pow_le_pow_right (by norm_num) (by omega)
        _ = 2 ^ d.log2 * 2 ^ e.toNat * 2 ^ 54 := by rw [pow_add, pow_add]
        _ ≤ d * 2 ^ e.toNat * 2 ^ 54 := by
            gcongr
            exact Nat.log2_self_le hd

theorem spec_of_ofScaled? {a : Scaled} (h : ofScaled? a = some x) :
    x.overflows = false ∧ x.mantissa ≤ 2 ^ 54 := by
  unfold ofScaled? at h
  split at h
  · obtain rfl := Option.some.inj h
    exact ⟨rfl, Nat.zero_le _⟩
  · split at h
    · cases h
    · exact spec_of_ofQuotient? (by positivity) h

end Binary

/-! ## Roots -/

/-- The integer square root is one: its square is not above the radicand. -/
theorem squareRoot_mul_self_le (n : ℕ) : squareRoot n * squareRoot n ≤ n := by
  fun_induction squareRoot n with
  | case1 => exact le_rfl
  | case2 n hn r hle => exact hle
  | case3 n hn r hlt ih =>
    calc r * r = 4 * (squareRoot (n / 4) * squareRoot (n / 4)) := by ring
      _ ≤ 4 * (n / 4) := Nat.mul_le_mul_left 4 ih
      _ ≤ n := Nat.mul_div_le n 4

/-- One more than the integer root has a square that is not much larger. -/
theorem mul_self_le_of_le_succ {r s n : ℕ} (hn : 0 < n) (hs : s * s ≤ n) (hr : r ≤ s + 1) :
    r * r ≤ 4 * n := by
  have hcross : 2 * s * 1 ≤ s ^ 2 + 1 ^ 2 := two_mul_le_add_sq s 1
  calc r * r ≤ (s + 1) * (s + 1) := Nat.mul_le_mul hr hr
    _ = s * s + 2 * s + 1 := by ring
    _ ≤ 2 * (s * s) + 2 := by rw [pow_two] at hcross; omega
    _ ≤ 4 * n := by omega

namespace Binary

variable {x : Binary}

/-- **The square of a root** is at most four times the radicand. -/
theorem sq_toRat_sqrt_le (hm : x.mantissa ≤ 2 ^ 54) : x.sqrt.toRat ^ 2 ≤ 4 * x.toRat := by
  unfold sqrt
  split
  · next hzero => simp [toRat, hzero]
  · next hzero =>
    dsimp only
    have hlog : x.mantissa.log2 < 55 :=
      (Nat.log2_lt hzero).mpr (hm.trans_lt (Nat.pow_lt_pow_right (by norm_num) (by norm_num)))
    set wanted : ℤ := 2 * mantissaBits - (x.mantissa.log2 + 1) with hwanted
    set shift := if (x.exponent - wanted) % 2 = 0 then wanted else wanted - 1 with hshift
    set radicand := x.mantissa * 2 ^ shift.toNat with hradicand
    set root := if squareRoot radicand < radicand - squareRoot radicand * squareRoot radicand
      then squareRoot radicand + 1 else squareRoot radicand with hroot
    -- the exponent is halved exactly, and the radicand is not cut
    obtain ⟨j, hj⟩ : ∃ j, x.exponent - shift = 2 * j := by
      refine ⟨(x.exponent - shift) / 2, ?_⟩
      split at hshift <;> omega
    have hshift_nonneg : 0 ≤ shift := by
      unfold mantissaBits at hwanted
      split at hshift <;> omega
    have hsquare : (root : ℚ) ^ 2 ≤ 4 * radicand := by
      have hpos : 0 < radicand := by positivity
      have hup : root ≤ squareRoot radicand + 1 := by
        split at hroot <;> omega
      rw [pow_two]
      exact_mod_cast mul_self_le_of_le_succ hpos (squareRoot_mul_self_le radicand) hup
    have hexponent : (2 : ℚ) ^ shift.toNat * (2 ^ j) ^ 2 = 2 ^ x.exponent := by
      rw [← zpow_natCast, ← zpow_natCast, ← zpow_mul, ← zpow_add₀ (by norm_num),
        Int.toNat_of_nonneg hshift_nonneg]
      congr 1
      omega
    rw [toRat, hj, Int.mul_ediv_cancel_left j two_ne_zero]
    calc ((root : ℚ) * 2 ^ j) ^ 2 = (root : ℚ) ^ 2 * (2 ^ j) ^ 2 := mul_pow ..
      _ ≤ 4 * radicand * (2 ^ j) ^ 2 := by gcongr
      _ = 4 * (x.mantissa * 2 ^ x.exponent) := by
        rw [hradicand, Nat.cast_mul, Nat.cast_pow, Nat.cast_ofNat, ← hexponent]
        ring

/-- The root of a fraction below an even power of two. -/
theorem toRat_sqrt_le {k : ℤ} (hx : x.toRat ≤ 2 ^ (2 * k)) (hm : x.mantissa ≤ 2 ^ 54) :
    x.sqrt.toRat ≤ 2 ^ (k + 1) := by
  refine le_of_sq_le_sq ?_ (by positivity)
  calc x.sqrt.toRat ^ 2 ≤ 4 * x.toRat := sq_toRat_sqrt_le hm
    _ ≤ 4 * 2 ^ (2 * k) := by gcongr
    _ = (2 ^ (k + 1)) ^ 2 := by
      rw [zpow_add₀ (by norm_num), zpow_one, mul_pow, ← zpow_natCast, ← zpow_mul, mul_comm k]
      norm_num [mul_comm]

end Binary

/-- The absolute value does not depend on the sign. -/
theorem Scaled.abs_toRat_withSign (x : Scaled) (negative : Bool) :
    |(x.withSign negative).toRat| = |x.toRat| := by
  rw [abs_toRat, abs_toRat]
  rfl

/-- A sign that is set replaces the one the number has. -/
theorem Scaled.toRat_withSign (x : Scaled) (negative : Bool) :
    (x.withSign negative).toRat = (if negative then -1 else 1) * |x.toRat| := by
  rw [toRat_eq_sign_mul_abs, abs_toRat_withSign]
  rfl

/-- The root of a binary fraction that is read from a decimal, with either sign. -/
theorem Binary.abs_toRat_root_le {a : Scaled} {b : Binary} (h : ofScaled? a = some b)
    (negative : Bool) : |(b.sqrt.toScaled.withSign negative).toRat| ≤ 10 ^ (513 : ℤ) := by
  obtain ⟨overflows_eq, mantissa_le⟩ := spec_of_ofScaled? h
  rw [Scaled.abs_toRat_withSign, toRat_toScaled, abs_of_nonneg b.sqrt.toRat_nonneg]
  have hbound := toRat_sqrt_le (toRat_lt_of_overflows overflows_eq).le mantissa_le
  exact hbound.trans (zpow_le_zpow_left₀ (by norm_num) (by norm_num) (by norm_num))

/-- **A root is small**, whatever number it is the root of. -/
theorem Context.abs_toRat_lt_of_squareRoot {ctx : Context} {position : ℕ} {a y : Scaled}
    (h : ctx.squareRoot position (.finite a) = .ok (.finite y)) :
    |y.toRat| < 10 ^ (515 : ℤ) := by
  rw [squareRoot] at h
  split at h
  · cases h
  · split at h
    · cases h
    · next b hb =>
      obtain ⟨z, hround, heq⟩ := exists_of_map_eq_ok (of_mapError_eq_ok h)
      obtain rfl := Decimal.finite.inj heq
      have hroot := Binary.abs_toRat_root_le hb a.negative
      have hone : (1 : ℚ) ≤ 10 ^ (513 : ℤ) := one_le_zpow₀ (by norm_num) (by norm_num)
      calc |z.toRat| ≤ 11 * |(b.sqrt.toScaled.withSign a.negative).toRat| + 1 :=
            abs_toRat_round_le hround
        _ < 10 ^ (2 : ℤ) * 10 ^ (513 : ℤ) := by
            rw [show (10 : ℚ) ^ (2 : ℤ) = 100 by norm_num]
            generalize (10 : ℚ) ^ (513 : ℤ) = bound at hone hroot ⊢
            linarith
        _ = 10 ^ (515 : ℤ) := (zpow_add₀ (by norm_num) 2 513).symm

end Reckoner
