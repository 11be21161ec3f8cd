import Mathlib.Algebra.Squarefree.Basic
import Mathlib.Data.Nat.Squarefree
import Reckoner.Proofs.Decimal.Squaring
import Reckoner.Proofs.Expr.Quotient
import Reckoner.Proofs.Expr.SameValue

/-!
# Powers are close to the exact ones

A power is computed by repeated squaring with a few digits more than the precision,
and rounded to it at the end. `Operator.apply_power_spec` says how good that is: with
`p` digits, the result differs from the exact power by less than `10 ^ (1 - p)` of it and
has its sign, and it is the exact power whenever that has no more than `p` digits.

Two arguments are put together. The error that the squarings gather is bounded by
`Context.isNear_squareAndMultiply`, and the digits that are kept in excess hold it
below a fiftieth of the error of the last rounding (`Context.factor_forPower_le`). A
power of few digits, on the other hand, is reached over powers of few digits
(`HasDigits.of_pow`), so that nothing is rounded on the way. That goes for the powers of
a reciprocal as well, where it is a number of few digits itself.
-/

namespace Reckoner

variable {p n : ℕ} {q : ℚ}

/-! ## Numbers of few digits and their powers -/

theorem HasDigits.mono {p' : ℕ} (h : HasDigits p q) (hle : p ≤ p') : HasDigits p' q := by
  obtain ⟨m, e, hm, heq⟩ := h
  exact ⟨m, e, hm.trans_le (pow_le_pow_right₀ (by norm_num) hle), heq⟩

/-- **A number of no more digits than a context has is not rounded by it.** -/
theorem HasDigits.nearest_eq {ctx : Context} (h : HasDigits p q) (hp : p ≤ ctx.precision)
    (hlow : 10 ^ Context.minExponent ≤ |q|) : ctx.nearest q = q := by
  have hlog : Context.minExponent ≤ Int.log 10 |q| := by
    have hpos : 0 < |q| := abs_pos.mpr (Context.ne_zero_of_minExponent_le hlow)
    exact (Int.zpow_le_iff_le_log (by norm_num) hpos).mp (by exact_mod_cast hlow)
  obtain ⟨m, hm⟩ := (h.mono hp).isRoundedTo.multiple
  rw [← Context.lastPlace_eq hlog] at hm
  exact ctx.mode.toInt_div_zpow hm

/-- **What a context rounds to has no more digits than the context.** -/
theorem Context.hasDigits_nearest {ctx : Context} (hp : 1 ≤ ctx.precision) (q : ℚ) :
    HasDigits ctx.precision (ctx.nearest q) := by
  obtain ⟨m, hm, heq⟩ := ctx.exists_nearest_eq q
  rcases lt_or_eq_of_le hm with hlt | hpow
  · exact ⟨m, _, hlt, heq⟩
  · -- a power of ten has a single digit
    have hm : m = m.sign * 10 ^ ctx.precision := by rw [← hpow, Int.sign_mul_abs]
    refine ⟨m.sign, ctx.precision + ctx.lastPlace q, ?_, ?_⟩
    · have hsign : |m.sign| ≤ 1 := by
        rcases m.sign_trichotomy with h | h | h <;> rw [h] <;> decide
      exact lt_of_le_of_lt hsign (one_lt_pow₀ (by norm_num) (by omega))
    · rw [heq, zpow_add₀ (by norm_num), zpow_natCast, ← mul_assoc]
      congr 1
      exact_mod_cast hm

/-- The sign of a number does not count as a digit. -/
theorem hasDigits_abs_iff : HasDigits p |q| ↔ HasDigits p q := by
  constructor
  · rintro ⟨m, e, hm, heq⟩
    rcases abs_choice q with h | h
    · exact ⟨m, e, hm, h ▸ heq⟩
    · exact ⟨-m, e, by rwa [abs_neg], by rw [← neg_neg q, ← h, heq, Int.cast_neg, neg_mul]⟩
  · rintro ⟨m, e, hm, heq⟩
    refine ⟨|m|, e, by rwa [abs_abs], ?_⟩
    rw [heq, abs_mul, abs_of_pos (by positivity : (0 : ℚ) < 10 ^ e), Int.cast_abs]

/-- **A coefficient that does not end in zero** has no digit too many. -/
theorem hasDigits_coefficient_iff (hp : 1 ≤ p) {c : ℕ} (hc : ¬ 10 ∣ c) (e : ℤ) :
    HasDigits p (c * 10 ^ e) ↔ c < 10 ^ p := by
  constructor
  · rintro ⟨m, f, hm, heq⟩
    have hvalue : (⟨false, c, e⟩ : Scaled).toRat = m * 10 ^ f := by
      rw [← heq, ← one_mul ((c : ℚ) * 10 ^ e), ← mul_assoc]
      rfl
    exact Scaled.coefficient_lt_of_not_dvd hp hc hm.le hvalue
  · intro hlt
    exact ⟨c, e, by rw [Nat.abs_cast]; exact_mod_cast hlt, by rw [Int.cast_natCast]⟩

/-- A power does not end in zero if its base does not. -/
theorem not_dvd_pow {c : ℕ} (h : ¬ 10 ∣ c) (n : ℕ) : ¬ 10 ∣ c ^ n := by
  have hsquarefree : Squarefree (2 * 5) := (Nat.squarefree_mul (by decide)).mpr
    ⟨Nat.prime_two.prime.squarefree, Nat.prime_five.prime.squarefree⟩
  by_cases hn : n = 0
  · rw [hn, pow_zero]
    decide
  · rwa [hsquarefree.dvd_pow_iff_dvd hn]

namespace Scaled

/-- **The digits of a power** are those of the power of the coefficient, the base being
written in its shortest form. -/
theorem hasDigits_pow_iff {x : Scaled} (hp : 1 ≤ p) (hx : x.isZero = false) (n : ℕ) :
    HasDigits p (x.toRat ^ n) ↔ x.reduce.coefficient ^ n < 10 ^ p := by
  have habs : |x.toRat ^ n| = (x.reduce.coefficient ^ n : ℕ) * 10 ^ (x.reduce.exponent * n) := by
    rw [abs_pow, ← x.toRat_reduce, abs_toRat, mul_pow, ← zpow_natCast (10 ^ _), ← zpow_mul,
      Nat.cast_pow]
  rw [← hasDigits_abs_iff, habs]
  exact hasDigits_coefficient_iff hp (not_dvd_pow (not_dvd_coefficient_reduce hx) n) _

/-- Every integer multiple of a power of ten can be written. -/
theorem exists_toRat_eq (m e : ℤ) : ∃ x : Scaled, x.toRat = m * 10 ^ e := by
  obtain ⟨c, rfl | rfl⟩ := m.eq_nat_or_neg
  · refine ⟨⟨false, c, e⟩, ?_⟩
    rw [Int.cast_natCast, ← one_mul (c : ℚ)]
    rfl
  · refine ⟨⟨true, c, e⟩, ?_⟩
    rw [Int.cast_neg, Int.cast_natCast, neg_eq_neg_one_mul]
    rfl

end Scaled

/-- **A root of a number of few digits**, if it is rational, is written with a
coefficient and an exponent. -/
theorem HasDigits.exists_toRat_eq (hn : n ≠ 0) (h : HasDigits p (q ^ n)) :
    ∃ x : Scaled, x.toRat = q := by
  obtain ⟨m, e, -, heq⟩ := h
  have hle : e.natAbs ≤ e.natAbs * n := Nat.le_mul_of_pos_right _ (Nat.pos_of_ne_zero hn)
  -- shifted far enough, the power is an integer, and so is the root
  have hinteger : (q * 10 ^ e.natAbs) ^ n = (m * 10 ^ (e + (e.natAbs * n : ℕ)).toNat : ℤ) := by
    rw [mul_pow, heq, ← pow_mul, mul_assoc, ← zpow_natCast, ← zpow_add₀ (by norm_num),
      Int.cast_mul, Int.cast_pow, Int.cast_ofNat, ← zpow_natCast, Int.toNat_of_nonneg (by omega)]
  have hden : (q * 10 ^ e.natAbs).den ^ n = 1 := by
    rw [← Rat.den_pow, hinteger, Rat.den_intCast]
  have hden : (q * 10 ^ e.natAbs).den = 1 := (Nat.pow_eq_one.mp hden).resolve_right hn
  obtain ⟨a, ha⟩ : ∃ a : ℤ, q * 10 ^ e.natAbs = a := ⟨_, (Rat.coe_int_num_of_den_eq_one hden).symm⟩
  obtain ⟨x, hx⟩ := Scaled.exists_toRat_eq a (-e.natAbs)
  refine ⟨x, ?_⟩
  rw [hx, ← ha, mul_assoc, zpow_neg, zpow_natCast, mul_inv_cancel₀ (by positivity), mul_one]

/-- **A power of few digits is reached over powers of few digits.** -/
theorem HasDigits.of_pow (hp : 1 ≤ p) (hq : q ≠ 0) (hn : n ≠ 0) (h : HasDigits p (q ^ n)) {m : ℕ}
    (hm : m ≤ n) : HasDigits p (q ^ m) := by
  obtain ⟨x, rfl⟩ := h.exists_toRat_eq hn
  have hx : x.isZero = false := Bool.eq_false_of_not_eq_true (mt x.toRat_eq_zero_iff.mpr hq)
  rw [Scaled.hasDigits_pow_iff hp hx] at h ⊢
  have hpos : 0 < x.reduce.coefficient := by
    refine Nat.pos_of_ne_zero fun hzero => Scaled.not_dvd_coefficient_reduce hx ?_
    rw [hzero]
    exact dvd_zero 10
  exact lt_of_le_of_lt (Nat.pow_le_pow_right hpos hm) h

/-! ## The power of a context -/

/-- **The sign of a power** is minus for the odd powers of a negative number, and those
of its reciprocal. -/
theorem Scaled.pow_eq_mul_abs (x : Scaled) {inverted : Bool} {c : ℚ}
    (hc : c = if inverted then x.toRat⁻¹ else x.toRat) (n : ℕ) :
    c ^ n = (if x.negative && n % 2 == 1 then -1 else 1) * |c ^ n| := by
  have hsame : c = x.sign * |c| := by
    cases inverted with
    | false =>
      rw [hc]
      exact x.toRat_eq_sign_mul_abs
    | true =>
      have hsign : x.sign⁻¹ = x.sign := inv_eq_of_mul_eq_one_left x.sign_mul_self
      rw [hc, if_pos rfl, abs_inv]
      conv_lhs => rw [x.toRat_eq_sign_mul_abs, mul_inv, hsign]
  have hparity : x.sign ^ n = if x.negative && n % 2 == 1 then -1 else 1 := by
    unfold sign
    cases x.negative with
    | false => exact one_pow n
    | true =>
      rcases Nat.mod_two_eq_zero_or_one n with h | h
      · rw [h]
        exact (Nat.even_iff.mpr h).neg_one_pow
      · rw [h]
        exact (Nat.odd_iff.mpr h).neg_one_pow
  rw [← hparity, abs_pow, ← mul_pow, ← hsame]

namespace Context

variable {ctx inner : Context} {base x z : Scaled} {c g : ℚ}

/-- **A power of few digits is not rounded on the way.** -/
theorem toRat_squareAndMultiply (hp : 1 ≤ p) (hle : p ≤ ctx.precision)
    (hbase : base.toRat = c) (hn : n ≠ 0) (hlow : 10 ^ minExponent ≤ |c ^ n|)
    (hdigits : HasDigits p (c ^ n))
    (h : ctx.squareAndMultiply base base (binaryDigits n).tail = .ok z) : z.toRat = c ^ n := by
  have hc : c ≠ 0 := ne_zero_pow hn (ne_zero_of_minExponent_le hlow)
  have hexact (m : ℕ) (hm : m ≤ n) : ctx.nearest (c ^ m) = c ^ m :=
    (hdigits.of_pow hp hc hn hm).nearest_eq hle (pow_minExponent_le hlow hm)
  have hsquare (m : ℕ) (r : ℚ) (hm : 2 * m ≤ n) (hr : r = c ^ m) :
      ctx.nearest (r * r) = c ^ (2 * m) := by
    rw [hr, ← pow_add, ← two_mul, hexact _ hm]
  have hmul (m : ℕ) (r : ℚ) (hm : 2 * m + 1 ≤ n) (hr : r = c ^ (2 * m)) :
      ctx.nearest (r * base.toRat) = c ^ (2 * m + 1) := by
    rw [hr, hbase, ← pow_succ, hexact _ hm]
  exact squareAndMultiply_induction (P := fun m r => r = c ^ m) (hp.trans hle) hsquare hmul
    (withBits_one_tail hn) (by rw [hbase, pow_one]) h

/-- **The end of a power**: the number reached by squaring is given its sign and
brought into the context. It is as near to the exact power as the squarings have left
it, and equal to it if that has few digits. -/
theorem exists_nearest_eq_of_squareAndMultiply (hp : 1 ≤ ctx.precision)
    (hle : ctx.precision ≤ inner.precision) (hmode : inner.mode.ToNearest)
    (hnear : IsNear g c base.toRat) (hexact : HasDigits ctx.precision c → base.toRat = c)
    (hn : n ≠ 0) (hlow : 10 ^ minExponent ≤ |c ^ n|) {negative : Bool}
    (hsign : c ^ n = (if negative then -1 else 1) * |c ^ n|)
    (h : (inner.squareAndMultiply base base (binaryDigits n).tail >>=
      fun power => ctx.round (power.withSign negative)) = .ok z) :
    ∃ r, z.toRat = ctx.nearest r ∧ IsNear ((g * (1 + inner.roundoff)) ^ n) (c ^ n) r
      ∧ (HasDigits ctx.precision (c ^ n) → r = c ^ n) := by
  obtain ⟨power, hpower, hround⟩ := exists_of_bind_eq_ok h
  have hunit : |if negative then (-1 : ℚ) else 1| = 1 := by
    cases negative <;> norm_num
  refine ⟨(power.withSign negative).toRat, toRat_of_round_eq_ok hp hround, ?_, fun hdigits => ?_⟩
  · rw [power.toRat_withSign]
    exact (isNear_squareAndMultiply (hp.trans hle) hmode hnear hn hlow hpower).mul_abs hunit hsign
  · have hc : c ≠ 0 := ne_zero_pow hn (ne_zero_of_minExponent_le hlow)
    have hone : HasDigits ctx.precision c := by
      have hfirst := hdigits.of_pow hp hc hn (Nat.one_le_iff_ne_zero.mpr hn)
      rwa [pow_one] at hfirst
    rw [power.toRat_withSign,
      toRat_squareAndMultiply hp hle (hexact hone) hn hlow hdigits hpower, ← hsign]

/-- **The digits that are kept in excess** hold the error of all roundings before the
last one below a fiftieth of that. -/
theorem factor_forPower_le (hp : 1 ≤ ctx.precision) (n : ℕ) (inverted : Bool) :
    ((1 + (ctx.forPower n inverted).roundoff) ^ inverted.toNat
      * (1 + (ctx.forPower n inverted).roundoff)) ^ n ≤ 1 + ctx.roundoff / 50 := by
  set u := (ctx.forPower n inverted).roundoff with hu
  have hpos : 0 < u := roundoff_pos _
  have hroundoff : ctx.roundoff = 10 ^ (digitCount n + 2 + inverted.toNat) * u := by
    rw [hu, roundoff, roundoff, ← mul_div_assoc, ← zpow_natCast, ← zpow_add₀ (by norm_num)]
    congr 2
    cases inverted <;> simp [forPower] <;> ring
  have hn : (n : ℚ) ≤ 10 ^ digitCount n := by exact_mod_cast (lt_pow_digitCount n).le
  have hfactor : ((inverted.toNat + 1 : ℕ) : ℚ) ≤ 10 ^ inverted.toNat := by
    cases inverted <;> norm_num
  have hroom : ((inverted.toNat + 1) * n : ℕ) * u ≤ ctx.roundoff / 100 :=
    calc (((inverted.toNat + 1) * n : ℕ) : ℚ) * u
        ≤ 10 ^ inverted.toNat * 10 ^ digitCount n * u := by
          rw [Nat.cast_mul]
          gcongr
      _ = ctx.roundoff / 100 := by
          rw [hroundoff, pow_add, pow_add]
          ring
  have hhalf : ctx.roundoff ≤ 1 / 2 := ctx.roundoff_le hp
  calc ((1 + u) ^ inverted.toNat * (1 + u)) ^ n = (1 + u) ^ ((inverted.toNat + 1) * n) := by
        rw [← pow_succ, ← pow_mul]
    _ ≤ 1 + 2 * (((inverted.toNat + 1) * n : ℕ) * u) := one_add_pow_le hpos.le (by linarith)
    _ ≤ 1 + ctx.roundoff / 50 := by linarith

/-- **The base that is multiplied with**: that of the power, or its reciprocal, which is
rounded unless it has few digits. -/
theorem isNear_base (hp : 1 ≤ ctx.precision) (hle : ctx.precision ≤ inner.precision)
    (hmode : inner.mode.ToNearest) (hx : x.isZero = false) (hlow : 10 ^ minExponent ≤ |x.toRat⁻¹|)
    (h : inner.divide (.ofNat 1) x = .ok base) :
    IsNear (1 + inner.roundoff) x.toRat⁻¹ base.toRat
      ∧ (HasDigits ctx.precision x.toRat⁻¹ → base.toRat = x.toRat⁻¹) := by
  rw [toRat_of_divide_eq_ok (hp.trans hle) hx h, Scaled.toRat_ofNat, Nat.cast_one, one_div]
  refine ⟨?_, fun hdigits => hdigits.nearest_eq hle hlow⟩
  have hnear := (IsNear.refl x.toRat⁻¹).nearest hmode hlow
  rwa [one_mul] at hnear

/-- **What is rounded at last**: a number that is very near to the power, and the power
itself if that has no more digits than the context. -/
theorem exists_nearest_eq_of_powerScaled (hp : 1 ≤ ctx.precision) (hx : x.isZero = false)
    (hn : n ≠ 0) {inverted : Bool} (hc : c = if inverted then x.toRat⁻¹ else x.toRat)
    (hlow : 10 ^ minExponent ≤ |c ^ n|) (h : ctx.powerScaled x n inverted = .ok z) :
    ∃ r, z.toRat = ctx.nearest r ∧ IsNear (1 + ctx.roundoff / 50) (c ^ n) r
      ∧ (HasDigits ctx.precision (c ^ n) → r = c ^ n) := by
  rw [powerScaled] at h
  split at h
  · next hone =>
    -- the base is one, and so is the power
    rw [Bool.and_eq_true, Bool.not_eq_true', x.hasMagnitude_iff, Nat.cast_one] at hone
    have hbase : x.toRat = 1 := by
      rw [x.toRat_eq_sign_mul_abs, hone.2, Scaled.sign, hone.1]
      norm_num
    have hpow : c ^ n = 1 := by
      rw [hc, hbase, inv_one, ite_self, one_pow]
    obtain rfl := Except.ok.inj h
    rw [hpow] at hlow ⊢
    have hdigits : HasDigits ctx.precision 1 :=
      ⟨1, 0, one_lt_pow₀ (by norm_num) (by omega), by norm_num⟩
    refine ⟨1, ?_, (IsNear.refl 1).mono ?_, fun _ => rfl⟩
    · rw [toRat_powerOfOne, hdigits.nearest_eq le_rfl hlow]
    · linarith [ctx.roundoff_pos]
  · have hle : ctx.precision ≤ (ctx.forPower n inverted).precision := by
      show ctx.precision ≤ ctx.precision + digitCount n + 2 + _
      omega
    have hfinish {base : Scaled}
        (hnear : IsNear ((1 + (ctx.forPower n inverted).roundoff) ^ inverted.toNat) c base.toRat)
        (hexact : HasDigits ctx.precision c → base.toRat = c)
        (h : ((ctx.forPower n inverted).squareAndMultiply base base (binaryDigits n).tail >>=
          fun power => ctx.round (power.withSign (x.negative && n % 2 == 1))) = .ok z) :
        ∃ r, z.toRat = ctx.nearest r ∧ IsNear (1 + ctx.roundoff / 50) (c ^ n) r
          ∧ (HasDigits ctx.precision (c ^ n) → r = c ^ n) := by
      obtain ⟨r, hz, hr, hdigits⟩ := exists_nearest_eq_of_squareAndMultiply hp hle .halfEven hnear
        hexact hn hlow (x.pow_eq_mul_abs hc n) h
      exact ⟨r, hz, hr.mono (factor_forPower_le hp n inverted), hdigits⟩
    cases inverted with
    | false =>
      obtain rfl : c = x.toRat := hc
      refine hfinish ?_ (fun _ => rfl) h
      rw [Bool.toNat_false, pow_zero]
      exact .refl _
    | true =>
      obtain rfl : c = x.toRat⁻¹ := hc
      obtain ⟨base, hbase, h⟩ := exists_of_bind_eq_ok h
      have hfirst := pow_minExponent_le hlow (Nat.one_le_iff_ne_zero.mpr hn)
      rw [pow_one] at hfirst
      obtain ⟨hnear, hexact⟩ := isNear_base hp hle .halfEven hx hfirst hbase
      refine hfinish ?_ hexact h
      rwa [Bool.toNat_true, pow_one]

/-- **The power of a context** is near to the exact one: the error of the last rounding and
half as much. It is the exact one if and only if that has no more digits than the
context. -/
theorem powerScaled_spec (hp : 1 ≤ ctx.precision) (hmode : ctx.mode.ToNearest)
    (hx : x.isZero = false) (hn : n ≠ 0) {inverted : Bool}
    (hc : c = if inverted then x.toRat⁻¹ else x.toRat) (hlow : 10 ^ minExponent ≤ |c ^ n|)
    (h : ctx.powerScaled x n inverted = .ok z) :
    IsNear (1 + 3 / 2 * ctx.roundoff) (c ^ n) z.toRat
      ∧ (z.toRat = c ^ n ↔ HasDigits ctx.precision (c ^ n)) := by
  obtain ⟨r, hz, hnear, hexact⟩ := exists_nearest_eq_of_powerScaled hp hx hn hc hlow h
  have hpos : 0 < ctx.roundoff := ctx.roundoff_pos
  have hhalf : ctx.roundoff ≤ 1 / 2 := ctx.roundoff_le hp
  have hfactor : (1 + ctx.roundoff / 50) * (1 + ctx.roundoff) ≤ 1 + 3 / 2 * ctx.roundoff :=
    calc (1 + ctx.roundoff / 50) * (1 + ctx.roundoff)
        = 1 + ctx.roundoff + ctx.roundoff / 50 + ctx.roundoff / 50 * ctx.roundoff := by ring
      _ ≤ 1 + ctx.roundoff + ctx.roundoff / 50 + ctx.roundoff / 50 * (1 / 2) := by gcongr
      _ ≤ 1 + 3 / 2 * ctx.roundoff := by linarith
  refine ⟨(hz ▸ hnear.nearest hmode hlow).mono hfactor, fun heq => ?_, fun hdigits => ?_⟩
  · rw [← heq, hz]
    exact hasDigits_nearest hp r
  · rw [hz, hexact hdigits, hdigits.nearest_eq le_rfl hlow]

end Context

/-! ## The operator -/

/-- The exponent of a power, where it is an integer other than zero. -/
theorem eq_of_powerExponent_eq_ok {position : ℕ} {y : Scaled} {n : ℤ} (hy : y.toRat = n)
    (hn : n ≠ 0) {k : ℕ} {negative : Bool}
    (h : powerExponent position (.finite y) = .ok (k, negative)) :
    k = n.natAbs ∧ negative = decide (n < 0) := by
  have hzero : y.isZero = false := by
    refine Bool.eq_false_of_not_eq_true (mt y.toRat_eq_zero_iff.mpr ?_)
    rw [hy]
    exact_mod_cast hn
  have hnegative : y.negative = decide (n < 0) := by
    have hsign := y.toRat_lt_zero_iff
    rw [hy, hzero] at hsign
    rw [Bool.eq_iff_iff, decide_eq_true_eq]
    simpa using hsign.symm
  rw [powerExponent] at h
  split at h
  · cases h
  · split at h
    · cases h
    · next m hm =>
      obtain ⟨rfl, rfl⟩ := Prod.mk.inj (Except.ok.inj h)
      rw [y.toNat?_eq_some_iff, hy] at hm
      refine ⟨?_, hnegative⟩
      rw [← Int.cast_abs, Int.abs_eq_natAbs, Int.cast_natCast] at hm
      exact_mod_cast hm.symm

/-- A power that the operator gives is the one that its context computes. -/
theorem exists_powerScaled_of_apply {ctx : Context} {position : ℕ} {x y : Scaled} {n : ℤ}
    {result : Decimal} (hx : x.isZero = false) (hy : y.toRat = n) (hn : n ≠ 0)
    (h : Operator.power.apply ctx position (.finite x) (.finite y) = .ok result) :
    ∃ z, result = .finite z ∧ ctx.powerScaled x n.natAbs (decide (n < 0)) = .ok z := by
  obtain ⟨⟨k, negative⟩, hexponent, h⟩ := exists_of_bind_eq_ok h
  obtain ⟨rfl, rfl⟩ := eq_of_powerExponent_eq_ok hy hn hexponent
  dsimp only at h
  rw [if_neg (Int.natAbs_ne_zero.mpr hn), Decimal.isZero, hx, Bool.false_and,
    if_neg Bool.false_ne_true, Context.power, hx, if_neg Bool.false_ne_true] at h
  split at h
  · next power hpower =>
    obtain ⟨z, hz, rfl⟩ := exists_of_map_eq_ok hpower
    exact ⟨z, eq_of_bounded_eq_ok h, hz⟩
  · cases h
  · cases h

/-- A power with an integer as its exponent, by the base or its reciprocal. -/
theorem zpow_eq_pow_natAbs (q : ℚ) (n : ℤ) :
    q ^ n = (if decide (n < 0) then q⁻¹ else q) ^ n.natAbs := by
  rcases lt_or_ge n 0 with h | h
  · rw [if_pos (decide_eq_true h), inv_pow, ← zpow_natCast, ← zpow_neg]
    congr 1
    omega
  · rw [if_neg (by simpa using h), ← zpow_natCast]
    congr 1
    omega

/-- **Powers are close to the exact ones.** Let the exponent be an integer other than
zero and the exact power a number that does not lie below the smallest exponent. If the
operator gives a result, with a working precision of `p` digits, it differs from the exact
power by less than `10 ^ (1 - p)` of it and has its sign. It is the exact power if and
only if that has no more than `p` digits: for a positive exponent these are the digits of
the power of the coefficient, the base being written in its shortest form. A negative
exponent may give an exact power as well, where the reciprocal of the base has few
digits. -/
theorem Operator.apply_power_spec {configured position : ℕ} {ctx : Context} {x y : Scaled} {n : ℤ}
    {result : Decimal} (hctx : Context.ofPrecision configured = .ok ctx) (hx : x.isZero = false)
    (hy : y.toRat = n) (hn : n ≠ 0) (hlow : 10 ^ Context.minExponent ≤ |x.toRat ^ n|)
    (h : Operator.power.apply ctx position (.finite x) (.finite y) = .ok result) :
    ∃ z, result = .finite z
      ∧ |z.toRat - x.toRat ^ n|
        < |x.toRat ^ n| * 10 ^ (1 - (max configured minPrecision : ℕ) : ℤ)
      ∧ SignType.sign z.toRat = SignType.sign (x.toRat ^ n)
      ∧ (0 < n → (z.toRat = x.toRat ^ n
        ↔ x.reduce.coefficient ^ n.natAbs < 10 ^ max configured minPrecision))
      ∧ (n < 0 → (z.toRat = x.toRat ^ n
        ↔ HasDigits (max configured minPrecision) (x.toRat ^ n))) := by
  obtain ⟨z, rfl, hz⟩ := exists_powerScaled_of_apply hx hy hn h
  obtain rfl := Context.eq_working_of_ofPrecision hctx
  set p := max configured minPrecision
  have hone : 1 ≤ p := Context.one_le_precision_of_ofPrecision hctx
  have hpow := zpow_eq_pow_natAbs x.toRat n
  rw [hpow] at hlow
  obtain ⟨hnear, hexact⟩ := (Context.working p).powerScaled_spec hone .halfUp hx
    (Int.natAbs_ne_zero.mpr hn) rfl hlow hz
  rw [← hpow] at hlow hnear hexact
  have hne : x.toRat ^ n ≠ 0 := zpow_ne_zero n (x.toRat_ne_zero hx)
  have hhalf : (Context.working p).roundoff ≤ 1 / 2 := (Context.working p).roundoff_le hone
  have hunit : 10 ^ (1 - (p : ℤ)) = 2 * (Context.working p).roundoff :=
    (mul_div_cancel₀ _ two_ne_zero).symm
  refine ⟨z, rfl, lt_of_le_of_lt hnear ?_, hnear.sign_eq (by linarith) hne, fun hpos => ?_,
    fun _ => hexact⟩
  · rw [hunit, mul_comm, add_sub_cancel_left]
    have hpos : 0 < (Context.working p).roundoff := (Context.working p).roundoff_pos
    gcongr
    norm_num
  · rw [hexact, ← Scaled.hasDigits_pow_iff hone hx, ← zpow_natCast, Int.natAbs_of_nonneg hpos.le]
    rfl

/-- An odd power of a negative number that has two digits too many: it is rounded, and
stays below zero. -/
theorem Operator.apply_power_minus_seven :
    Context.ofPrecision 10 = .ok (.working 50) ∧ (⟨true, 7, 0⟩ : Scaled).isZero = false
      ∧ (Scaled.ofNat 61).toRat = (61 : ℤ) ∧ (61 : ℤ) ≠ 0
      ∧ 10 ^ Context.minExponent ≤ |(⟨true, 7, 0⟩ : Scaled).toRat ^ (61 : ℤ)|
      ∧ Operator.power.apply (.working 50) 1 (.finite ⟨true, 7, 0⟩) (.ofNat 61)
        = .ok (.finite ⟨true, 35561530251773635572553173835655155124070416738520, 2⟩)
      ∧ |(⟨true, 35561530251773635572553173835655155124070416738520, 2⟩ : Scaled).toRat
          - (⟨true, 7, 0⟩ : Scaled).toRat ^ (61 : ℤ)|
        < |(⟨true, 7, 0⟩ : Scaled).toRat ^ (61 : ℤ)| * 10 ^ (1 - (50 : ℕ) : ℤ)
      ∧ (⟨true, 35561530251773635572553173835655155124070416738520, 2⟩ : Scaled).toRat
        ≠ (⟨true, 7, 0⟩ : Scaled).toRat ^ (61 : ℤ) := by
  have hctx : Context.ofPrecision 10 = .ok (.working 50) := rfl
  have hexponent : (Scaled.ofNat 61).toRat = (61 : ℤ) := Scaled.toRat_ofNat 61
  have hbase : (⟨true, 7, 0⟩ : Scaled).toRat = -7 := by
    rw [Scaled.toRat, Scaled.sign, if_pos rfl]
    norm_num
  have hlow : 10 ^ Context.minExponent ≤ |(⟨true, 7, 0⟩ : Scaled).toRat ^ (61 : ℤ)| := by
    refine (zpow_le_one_of_nonpos₀ (by norm_num) (by decide)).trans ?_
    rw [hbase]
    norm_num
  have hvalue : Operator.power.apply (.working 50) 1 (.finite ⟨true, 7, 0⟩) (.ofNat 61)
      = .ok (.finite ⟨true, 35561530251773635572553173835655155124070416738520, 2⟩) := by
    decide +kernel
  obtain ⟨z, hz, hnear, -, hexact, -⟩ :=
    Operator.apply_power_spec hctx rfl hexponent (by decide) hlow hvalue
  obtain rfl := Decimal.finite.inj hz
  refine ⟨hctx, rfl, hexponent, by decide, hlow, hvalue, hnear, mt (hexact (by decide)).mp ?_⟩
  decide +kernel

/-- **A reciprocal may be exact**: one half, the power of two with exponent minus one, is
given as it is, although that exponent is not positive. -/
theorem Operator.apply_power_half :
    Context.ofPrecision 50 = .ok (.working 50) ∧ (Scaled.ofNat 2).isZero = false
      ∧ (Scaled.ofInt (-1)).toRat = (-1 : ℤ)
      ∧ 10 ^ Context.minExponent ≤ |(Scaled.ofNat 2).toRat ^ (-1 : ℤ)|
      ∧ Operator.power.apply (.working 50) 1 (.ofNat 2) (.ofInt (-1))
        = .ok (.finite ⟨false, 5, -1⟩)
      ∧ ¬ ((⟨false, 5, -1⟩ : Scaled).toRat = (Scaled.ofNat 2).toRat ^ (-1 : ℤ)
        ↔ 0 < (-1 : ℤ) ∧ (Scaled.ofNat 2).reduce.coefficient ^ (-1 : ℤ).natAbs < 10 ^ 50) := by
  have hbase : (Scaled.ofNat 2).toRat = 2 := Scaled.toRat_ofNat 2
  have hhalf : (⟨false, 5, -1⟩ : Scaled).toRat = (Scaled.ofNat 2).toRat ^ (-1 : ℤ) := by
    rw [hbase, Scaled.toRat, Scaled.sign, if_neg Bool.false_ne_true]
    norm_num
  refine ⟨rfl, rfl, ?_, ?_, by decide +kernel, fun hiff => ?_⟩
  · rw [Scaled.toRat, Scaled.sign]
    norm_num [Scaled.ofInt]
  · rw [hbase]
    refine (zpow_le_zpow_right₀ (by norm_num) (by decide : Context.minExponent ≤ -1)).trans ?_
    norm_num
  · exact absurd (hiff.mp hhalf).1 (by decide)

end Reckoner
