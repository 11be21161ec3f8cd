import Reckoner.Decimal.Binary
import Reckoner.Proofs.Decimal.Magnitude
import Reckoner.Proofs.Decimal.Rounding

/-!
# Rounding as a function of the number

What a context makes of an exact result depends on the number alone, not on the
digits and the exponent it is written with. `Context.nearest` is the rational
number it is rounded to, `Context.deliver` the overflow that may come after, and
an operation of a context, seen through `Scaled.toRat`, is the operation on
rational numbers followed by these two:

* `Context.map_toRat_round` – a number that is brought into the context,
* `Context.map_toRat_divide` – a quotient, which is rounded only once although
  its digits are produced in three different ways,
* `Context.map_toRat_quantize` – rounding to a given place.

The same holds of the binary fraction that is nearest to a decimal
(`Binary.ofScaled?_eq`).
-/

namespace Reckoner

/-! ## Quotients of shifted numbers -/

/-- A shift by a power, to the left or to the right according to the sign of
its exponent, divides a quotient by that power. -/
theorem cast_shift_div (b : ℕ) [NeZero b] (n d : ℕ) (k : ℤ) :
    ((n * b ^ (-k).toNat : ℕ) : ℚ) / (d * b ^ k.toNat : ℕ) = n / d / (b : ℚ) ^ k := by
  have hb : (b : ℚ) ≠ 0 := Nat.cast_ne_zero.mpr (NeZero.ne b)
  have hpow : (b : ℚ) ^ k * b ^ (-k).toNat = b ^ k.toNat := by
    rw [← zpow_natCast, ← zpow_natCast, ← zpow_add₀ hb]
    congr 1
    omega
  push_cast
  rw [← hpow, ← mul_assoc, mul_div_mul_right _ _ (pow_ne_zero _ hb), div_div]

/-- Shifted numbers are compared as their quotient is with the power. -/
theorem shift_lt_shift_iff (b : ℕ) [NeZero b] (n : ℕ) {d : ℕ} (hd : 0 < d) (k : ℤ) :
    n * b ^ (-k).toNat < d * b ^ k.toNat ↔ (n : ℚ) / d < (b : ℚ) ^ k := by
  have hb : (0 : ℚ) < b := by exact_mod_cast Nat.pos_of_ne_zero (NeZero.ne b)
  have hbottom : (0 : ℚ) < (d * b ^ k.toNat : ℕ) := by
    exact_mod_cast Nat.mul_pos hd (Nat.pow_pos (Nat.pos_of_ne_zero (NeZero.ne b)))
  rw [← Nat.cast_lt (α := ℚ), ← div_lt_one hbottom, cast_shift_div b n d k,
    div_lt_one (zpow_pos hb k)]

namespace RoundingMode

/-- A multiple of a power of ten is rounded to itself. -/
theorem toInt_div_zpow (mode : RoundingMode) {q : ℚ} {m e : ℤ} (h : q = m * 10 ^ e) :
    mode.toInt (q / 10 ^ e) * (10 : ℚ) ^ e = q := by
  rw [h, mul_div_cancel_right₀ _ (by positivity), mode.toInt_intCast]

end RoundingMode

namespace Context

variable {ctx : Context}

/-! ## The number a context rounds to -/

/-- The place of the last digit that a number keeps in a context. -/
def lastPlace (ctx : Context) (q : ℚ) : ℤ := ctx.lastExponent (Int.log 10 |q|)

/-- **The number that a number is rounded to** in a context. -/
def nearest (ctx : Context) (q : ℚ) : ℚ :=
  ctx.mode.toInt (q / 10 ^ ctx.lastPlace q) * 10 ^ ctx.lastPlace q

/-- **A result, or an overflow** if its first digit stands too high. -/
def deliver (q : ℚ) : Except Signal ℚ :=
  if 10 ^ (maxExponent + 1) ≤ |q| then .error .overflow else .ok q

theorem nearest_zero (ctx : Context) : ctx.nearest 0 = 0 :=
  ctx.mode.toInt_div_zpow (m := 0) (by simp)

theorem deliver_zero : deliver 0 = .ok 0 := by
  refine if_neg ?_
  rw [abs_zero, not_le]
  positivity

/-- Counted in units of the last place, a number has no more digits than the
context. -/
theorem abs_div_lastPlace_le (ctx : Context) (q : ℚ) :
    |q / 10 ^ ctx.lastPlace q| ≤ (10 ^ ctx.precision : ℕ) := by
  have hpow : (0 : ℚ) < 10 ^ ctx.lastPlace q := by positivity
  have hlog : |q| < (10 : ℚ) ^ (Int.log 10 |q| + 1) :=
    by exact_mod_cast Int.lt_zpow_succ_log_self (b := 10) (by norm_num) |q|
  rw [abs_div, abs_of_pos hpow, div_le_iff₀ hpow]
  calc |q| ≤ (10 : ℚ) ^ (Int.log 10 |q| + 1) := hlog.le
    _ ≤ 10 ^ (ctx.precision + ctx.lastPlace q) := by
      refine zpow_le_zpow_right₀ (by norm_num) ?_
      unfold lastPlace lastExponent
      omega
    _ = (10 ^ ctx.precision : ℕ) * 10 ^ ctx.lastPlace q := by
      rw [zpow_add₀ (by norm_num), zpow_natCast, Nat.cast_pow, Nat.cast_ofNat]

/-- **What is settled**: a coefficient may be one digit too long only if it is a
power of ten, so the number is not changed. -/
theorem map_toRat_settle (hp : 1 ≤ ctx.precision) {negative : Bool} {c : ℕ} {e : ℤ}
    (hc : c ≤ 10 ^ ctx.precision) :
    (ctx.settle negative c e).map Scaled.toRat
      = deliver (⟨negative, c, e⟩ : Scaled).toRat := by
  -- the number that the overflow is asked of
  obtain ⟨x, hvalue, hsettle⟩ : ∃ x : Scaled, x.toRat = (⟨negative, c, e⟩ : Scaled).toRat ∧
      ctx.settle negative c e
        = if !x.isZero && decide (maxExponent < x.adjusted) then .error .overflow else .ok x := by
    unfold settle
    split
    · next hlong =>
      have hten : c = 10 ^ ctx.precision := by
        refine le_antisymm hc ?_
        by_contra! hlt
        exact absurd ((digitCount_le_iff hp).mpr hlt) (not_le.mpr hlong)
      have hdvd : 10 ^ 1 ∣ c := hten ▸ Nat.pow_dvd_pow 10 hp
      exact ⟨_, Scaled.toRat_dropZeros (k := 1) hdvd, rfl⟩
    · exact ⟨_, rfl, rfl⟩
  rw [hsettle, ← hvalue, deliver]
  have hhigh : (!x.isZero && decide (maxExponent < x.adjusted)) = true
      ↔ (10 : ℚ) ^ (maxExponent + 1) ≤ |x.toRat| := by
    rw [Bool.and_eq_true, Bool.not_eq_true', decide_eq_true_eq]
    constructor
    · rintro ⟨hx, hlt⟩
      exact (zpow_le_zpow_right₀ (by norm_num) hlt).trans (x.pow_adjusted_le hx)
    · intro hle
      have hx : x.isZero = false := by
        refine Bool.eq_false_of_not_eq_true fun hx => ?_
        rw [x.toRat_eq_zero_iff.mpr hx, abs_zero] at hle
        exact absurd hle (not_le.mpr (by positivity))
      have := (zpow_lt_zpow_iff_right₀ (by norm_num)).mp (hle.trans_lt x.abs_toRat_lt)
      exact ⟨hx, by omega⟩
  by_cases h : (10 : ℚ) ^ (maxExponent + 1) ≤ |x.toRat|
  · rw [if_pos (hhigh.mpr h), if_pos h]
    rfl
  · rw [if_neg (mt hhigh.mp h), if_neg h]
    rfl

/-- The number settled is the nearest one if its coefficient, with the sign, is
what the quotient by the last place is rounded to. -/
theorem map_toRat_settle_nearest (hp : 1 ≤ ctx.precision) {q : ℚ} {negative : Bool} {c : ℕ}
    (hc : (⟨negative, c, ctx.lastPlace q⟩ : Scaled).sign * c
      = ctx.mode.toInt (q / 10 ^ ctx.lastPlace q)) :
    (ctx.settle negative c (ctx.lastPlace q)).map Scaled.toRat = deliver (ctx.nearest q) := by
  have hle : c ≤ 10 ^ ctx.precision := by
    have habs := ctx.mode.abs_toInt_le (ctx.abs_div_lastPlace_le q)
    rw [← hc, abs_mul, Scaled.abs_sign, one_mul, Nat.abs_cast] at habs
    exact_mod_cast habs
  rw [map_toRat_settle hp hle, nearest, ← hc]
  rfl

/-! ## Operations -/

/-- **A number that is brought into a context** is rounded to the nearest one
that the context has. -/
theorem map_toRat_round (hp : 1 ≤ ctx.precision) (x : Scaled) :
    (ctx.round x).map Scaled.toRat = deliver (ctx.nearest x.toRat) := by
  cases hx : x.isZero with
  | true =>
    rw [round, if_pos hx, x.toRat_eq_zero_iff.mpr hx, nearest_zero, deliver_zero]
    exact congrArg Except.ok ((Scaled.toRat_eq_zero_iff _).mpr rfl)
  | false =>
    have hplace : ctx.lastExponent x.adjusted = ctx.lastPlace x.toRat := by
      rw [lastPlace, ← x.adjusted_eq_log hx]
    rw [round, hx, if_neg Bool.false_ne_true]
    dsimp only
    rw [hplace]
    rcases le_total x.exponent (ctx.lastPlace x.toRat) with hle | hle
    · rw [max_eq_right hle]
      exact map_toRat_settle_nearest hp (x.sign_mul_cutDigits ctx.mode hle)
    · -- the number ends above the last place and is not cut
      have hexact : ctx.nearest x.toRat = x.toRat := by
        obtain ⟨m, hm⟩ := exists_eq_mul_of_le (x.integerAt x.exponent) hle
        exact ctx.mode.toInt_div_zpow ((x.toRat_eq_integerAt le_rfl).trans hm)
      have hcut : cutDigits ctx.mode x.negative x.coefficient (x.exponent - x.exponent).toNat
          = x.coefficient := by
        rw [sub_self, cutDigits_eq]
        exact (roundQuotient_of_mod_eq_zero _ _ (Nat.mod_one _)).trans (Nat.div_one _)
      have hc : x.coefficient ≤ 10 ^ ctx.precision := by
        have hbound := ctx.abs_div_lastPlace_le x.toRat
        have hpow : (0 : ℚ) < 10 ^ ctx.lastPlace x.toRat := by positivity
        rw [abs_div, abs_of_pos hpow, div_le_iff₀ hpow, x.abs_toRat] at hbound
        have hmono : (10 : ℚ) ^ ctx.lastPlace x.toRat ≤ 10 ^ x.exponent :=
          zpow_le_zpow_right₀ (by norm_num) hle
        exact_mod_cast le_of_mul_le_mul_right
          (hbound.trans (mul_le_mul_of_nonneg_left hmono (Nat.cast_nonneg _))) (by positivity)
      rw [max_eq_left hle, hcut, map_toRat_settle hp hc, hexact]

/-- A quotient, by the coefficients and the exponents of its operands. -/
theorem toRat_div_toRat (x y : Scaled) :
    x.toRat / y.toRat = (x.mul y).sign
      * ((x.coefficient : ℚ) / y.coefficient * 10 ^ (x.exponent - y.exponent)) := by
  have hsign : (x.mul y).sign = x.sign / y.sign := by
    unfold Scaled.mul Scaled.sign
    cases x.negative <;> cases y.negative <;> norm_num
  rw [hsign, zpow_sub₀ (by norm_num), Scaled.toRat, Scaled.toRat, mul_div_mul_comm,
    mul_div_mul_comm, mul_assoc]

theorem abs_toRat_div_toRat (x y : Scaled) :
    |x.toRat / y.toRat|
      = (x.coefficient : ℚ) / y.coefficient * 10 ^ (x.exponent - y.exponent) := by
  rw [toRat_div_toRat, abs_mul, Scaled.abs_sign, one_mul, abs_of_nonneg (by positivity)]

/-- The exponent that a quotient expects of its first digit is the right one. -/
theorem divide_adjusted_eq {x y : Scaled} (hx : x.isZero = false) (hy : y.isZero = false)
    {gap : ℤ} (hgap : gap = (digitCount x.coefficient : ℤ) - digitCount y.coefficient) :
    x.exponent - y.exponent + gap
      - (if appendZeros x.coefficient (-gap).toNat < appendZeros y.coefficient gap.toNat
        then 1 else 0) = Int.log 10 |x.toRat / y.toRat| := by
  have hx' : 0 < |x.toRat| := abs_pos.mpr (x.toRat_ne_zero hx)
  have hy' : 0 < |y.toRat| := abs_pos.mpr (y.toRat_ne_zero hy)
  have hplace : Int.log 10 |x.toRat| - Int.log 10 |y.toRat| = x.exponent - y.exponent + gap := by
    rw [← x.adjusted_eq_log hx, ← y.adjusted_eq_log hy, Scaled.adjusted, Scaled.adjusted]
    omega
  have hcompare : appendZeros x.coefficient (-gap).toNat < appendZeros y.coefficient gap.toNat
      ↔ |x.toRat| / |y.toRat| < 10 ^ (x.exponent - y.exponent + gap) := by
    have hcoefficient := Nat.pos_of_ne_zero (y.coefficient_ne_zero hy)
    rw [appendZeros_eq, appendZeros_eq, shift_lt_shift_iff 10 _ hcoefficient, Nat.cast_ofNat,
      ← abs_div, abs_toRat_div_toRat, zpow_add₀ (by norm_num), mul_comm ((10 : ℚ) ^ _),
      mul_lt_mul_iff_left₀ (by positivity)]
  rw [abs_div, log_div (by norm_num) hx' hy', hplace, Nat.cast_ofNat]
  simp only [hcompare]

/-- The coefficients with zeros appended have the quotient, counted in units of a
place. -/
theorem appendZeros_div_appendZeros (x y : Scaled) (place : ℤ) :
    (appendZeros x.coefficient (x.exponent - y.exponent - place).toNat : ℚ)
        / appendZeros y.coefficient (place - (x.exponent - y.exponent)).toNat
      = |x.toRat / y.toRat| / 10 ^ place := by
  have hshift := cast_shift_div 10 x.coefficient y.coefficient (place - (x.exponent - y.exponent))
  rw [neg_sub] at hshift
  rw [appendZeros_eq, appendZeros_eq, hshift, abs_toRat_div_toRat, Nat.cast_ofNat,
    zpow_sub₀ (by norm_num), div_div_eq_mul_div]

theorem appendZeros_pos {n : ℕ} (hn : n ≠ 0) (k : ℕ) : 0 < appendZeros n k := by
  rw [appendZeros_eq]
  positivity

/-- A number whose first digit stands below the tenths of a place is less than one
half of a unit there. -/
theorem two_mul_lt_of_log_lt {n d : ℕ} (hd : 0 < d) {q : ℚ} {place : ℤ}
    (h : (n : ℚ) / d = |q| / 10 ^ place) (hlog : Int.log 10 |q| + 1 < place) : 2 * n < d := by
  have hpow : (0 : ℚ) < 10 ^ place := by positivity
  have hlt : |q| < 10 ^ (place - 1) := by
    refine lt_of_lt_of_le ?_ (zpow_le_zpow_right₀ (by norm_num) (Int.le_sub_one_of_lt hlog))
    exact_mod_cast Int.lt_zpow_succ_log_self (b := 10) (by norm_num) |q|
  have htenth : (n : ℚ) / d < 1 / 10 := by
    rw [h, div_lt_iff₀ hpow]
    rwa [zpow_sub_one₀ (by norm_num), mul_comm, ← one_div] at hlt
  rw [div_lt_iff₀ (by exact_mod_cast hd)] at htenth
  have : (2 : ℚ) * n < d := by linarith
  exact_mod_cast this

/-- **The digits of a quotient** are produced in three ways, which all round the
quotient in units of the last place. -/
theorem map_toRat_divide_eq_settle (ctx : Context) {x y : Scaled} (hx : x.isZero = false)
    (hy : y.isZero = false) :
    (ctx.divide x y).map Scaled.toRat =
      (ctx.settle (x.mul y).negative
        (roundQuotient ctx.mode (x.mul y).negative
          (appendZeros x.coefficient
            (x.exponent - y.exponent - ctx.lastPlace (x.toRat / y.toRat)).toNat)
          (appendZeros y.coefficient
            (ctx.lastPlace (x.toRat / y.toRat) - (x.exponent - y.exponent)).toNat))
        (ctx.lastPlace (x.toRat / y.toRat))).map Scaled.toRat := by
  have hvalue := appendZeros_div_appendZeros x y (ctx.lastPlace (x.toRat / y.toRat))
  have hnpos := appendZeros_pos (x.coefficient_ne_zero hx)
    (x.exponent - y.exponent - ctx.lastPlace (x.toRat / y.toRat)).toNat
  have hdpos := appendZeros_pos (y.coefficient_ne_zero hy)
    (ctx.lastPlace (x.toRat / y.toRat) - (x.exponent - y.exponent)).toNat
  rw [divide, hx, if_neg Bool.false_ne_true]
  dsimp only
  rw [divide_adjusted_eq hx hy rfl, ← lastPlace]
  split
  · next hsmall =>
    rw [roundQuotient_of_two_mul_lt _ _ hnpos.ne' (two_mul_lt_of_log_lt hdpos hvalue hsmall)]
    rfl
  · split
    · next hmod =>
      rw [roundQuotient_of_mod_eq_zero _ _ hmod]
      -- the zeros that are dropped then do not change the number
      show ((ctx.settle (x.mul y).negative _ _).map _).map _ = _
      cases ctx.settle (x.mul y).negative _ _ with
      | error signal => rfl
      | ok z => exact congrArg Except.ok (z.toRat_stripZerosTo _)
    · rfl

/-- **A quotient is rounded only once**, to the number nearest to the exact one. -/
theorem map_toRat_divide (hp : 1 ≤ ctx.precision) (x : Scaled) {y : Scaled}
    (hy : y.isZero = false) :
    (ctx.divide x y).map Scaled.toRat = deliver (ctx.nearest (x.toRat / y.toRat)) := by
  cases hx : x.isZero with
  | true =>
    rw [divide, if_pos hx, x.toRat_eq_zero_iff.mpr hx, zero_div, nearest_zero, deliver_zero]
    exact congrArg Except.ok ((Scaled.toRat_eq_zero_iff _).mpr rfl)
  | false =>
    have hquotient (place : ℤ) : (x.mul y).sign * (|x.toRat / y.toRat| / 10 ^ place)
        = x.toRat / y.toRat / 10 ^ place := by
      rw [abs_toRat_div_toRat, ← mul_div_assoc, ← toRat_div_toRat]
    rw [map_toRat_divide_eq_settle ctx hx hy]
    refine map_toRat_settle_nearest hp ?_
    rw [← hquotient, ← appendZeros_div_appendZeros]
    exact roundQuotient_eq_toInt ctx.mode (x.mul y) _
      (appendZeros_pos (y.coefficient_ne_zero hy) _)

/-- **Rounding to a place** fails if the digits above it are too many. -/
theorem map_toRat_quantize (ctx : Context) (mode : RoundingMode) (e : ℤ) (x : Scaled) :
    (ctx.quantize mode e x).map Scaled.toRat =
      if x.toRat ≠ 0 ∧ (ctx.precision : ℤ) < Int.log 10 |x.toRat| + 1 - e then
        .error .invalidOperation
      else .ok (mode.toInt (x.toRat / 10 ^ e) * 10 ^ e) := by
  have hlong : (!x.isZero && decide ((ctx.precision : ℤ) < x.adjusted + 1 - e)) = true
      ↔ x.toRat ≠ 0 ∧ (ctx.precision : ℤ) < Int.log 10 |x.toRat| + 1 - e := by
    rw [Bool.and_eq_true, Bool.not_eq_true', decide_eq_true_eq, Ne, x.toRat_eq_zero_iff,
      Bool.not_eq_true]
    refine and_congr_right fun hx => ?_
    rw [x.adjusted_eq_log hx]
  rw [quantize]
  simp only [hlong]
  split
  · rfl
  · exact congrArg Except.ok (x.toRat_withExponent mode e)

end Context

/-! ## Binary fractions -/

namespace Binary

/-- **The binary fraction nearest to a number** that is not negative; nothing
beyond the format. -/
def nearest? (q : ℚ) : Option Binary :=
  if q = 0 then some ⟨0, 0⟩
  else
    let e := max (Int.log 2 q - mantissaBits + 1) minExponent
    let x : Binary := ⟨(RoundingMode.halfEven.toInt (q / 2 ^ e)).toNat, e⟩
    if x.overflows then none else some x

/-- The fraction nearest to a quotient is found without forming the quotient. -/
theorem ofQuotient?_eq (n : ℕ) {d : ℕ} (hd : d ≠ 0) : ofQuotient? n d = nearest? (n / d) := by
  have hd' : (0 : ℚ) < d := by exact_mod_cast Nat.pos_of_ne_zero hd
  by_cases hn : n = 0
  · rw [ofQuotient?, if_pos hn, nearest?, if_pos (by rw [hn, Nat.cast_zero, zero_div])]
  · have hn' : (0 : ℚ) < n := by exact_mod_cast Nat.pos_of_ne_zero hn
    have htop (gap : ℤ) (hgap : gap = (n.log2 : ℤ) - d.log2) :
        (if decide (d * 2 ^ gap.toNat ≤ n * 2 ^ (-gap).toNat) = true then gap else gap - 1)
          = Int.log 2 ((n : ℚ) / d) := by
      have hlog : Int.log 2 (n : ℚ) - Int.log 2 (d : ℚ) = gap := by
        rw [Int.log_natCast, Int.log_natCast, ← Nat.log2_eq_log_two, ← Nat.log2_eq_log_two, hgap]
      have hcompare := shift_lt_shift_iff 2 n (Nat.pos_of_ne_zero hd) gap
      rw [log_div (by norm_num) hn' hd', hlog]
      by_cases hreaches : d * 2 ^ gap.toNat ≤ n * 2 ^ (-gap).toNat
      · rw [if_pos (decide_eq_true hreaches), if_neg (mt hcompare.mpr (not_lt.mpr hreaches)),
          sub_zero]
      · rw [if_neg (by simpa using hreaches), if_pos (hcompare.mp (not_le.mp hreaches))]
    have hmantissa (e : ℤ) :
        roundQuotient .halfEven false (n * 2 ^ (-e).toNat) (d * 2 ^ e.toNat)
          = (RoundingMode.halfEven.toInt ((n : ℚ) / d / 2 ^ e)).toNat := by
      have hround := roundQuotient_false .halfEven (n * 2 ^ (-e).toNat)
        (Nat.mul_pos (Nat.pos_of_ne_zero hd) (by positivity) : 0 < d * 2 ^ e.toNat)
      rw [cast_shift_div 2 n d e, Nat.cast_ofNat] at hround
      rw [← hround, Int.toNat_natCast]
    rw [ofQuotient?, if_neg hn, nearest?, if_neg (div_pos hn' hd').ne']
    dsimp only
    rw [htop _ rfl, hmantissa]

/-- **The fraction nearest to a decimal** depends on its absolute value alone. -/
theorem ofScaled?_eq (x : Scaled) :
    ofScaled? x =
      if |x.toRat| = 0 ∨ Int.log 10 |x.toRat| < -400 then some ⟨0, 0⟩
      else if 400 < Int.log 10 |x.toRat| then none
      else nearest? |x.toRat| := by
  cases hx : x.isZero with
  | true =>
    have hzero : |x.toRat| = 0 := by rw [x.toRat_eq_zero_iff.mpr hx, abs_zero]
    rw [ofScaled?, if_pos (by rw [hx]; rfl), if_pos (.inl hzero)]
  | false =>
    have hne : |x.toRat| ≠ 0 := abs_ne_zero.mpr (x.toRat_ne_zero hx)
    have hquotient : ofQuotient? (appendZeros x.coefficient x.exponent.toNat)
        (10 ^ (-x.exponent).toNat) = nearest? |x.toRat| := by
      have hshift := cast_shift_div 10 x.coefficient 1 (-x.exponent)
      rw [neg_neg, one_mul, Nat.cast_one, div_one, Nat.cast_ofNat, zpow_neg, div_inv_eq_mul]
        at hshift
      rw [ofQuotient?_eq _ (by positivity), appendZeros_eq, hshift, x.abs_toRat]
    rw [ofScaled?, hquotient, hx, x.adjusted_eq_log hx]
    simp only [Bool.false_or, decide_eq_true_eq, hne, false_or]

end Binary

end Reckoner
