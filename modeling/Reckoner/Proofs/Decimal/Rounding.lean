import Mathlib.Algebra.Order.Round
import Mathlib.Data.Nat.Cast.Field
import Reckoner.Proofs.Decimal.Value

/-!
# What rounding does to the number

`RoundingMode.toInt` says which integer a mode rounds a rational number to, in
the words of the order: the integer below, the integer above, the nearest one
with a rule for ties. The arithmetic of digits agrees with it:

* `roundQuotient_eq_toInt` – a rounded quotient of natural numbers,
* `cutDigits_eq` – a coefficient without its last digits is a rounded quotient,
  also where more digits are cut than there are,
* `Scaled.toRat_withExponent` – a number written with a given exponent is the
  nearest multiple of that power of ten, in the sense of the mode.

A mode leaves integers alone (`toInt_intCast`), so a number that is a multiple
of the power of ten it is rounded to keeps its value. A context therefore does
not change the numbers it holds (`Context.toRat_round`), and refuses only those
whose first digit stands too high (`Context.exists_round`).
-/

namespace Reckoner

namespace RoundingMode

/-- **The integer that a rational number is rounded to.** -/
def toInt (mode : RoundingMode) (q : ℚ) : ℤ :=
  match mode with
  | .floor => ⌊q⌋
  | .ceiling => ⌈q⌉
  | .halfUp => if 0 ≤ q then round q else -round (-q)
  | .halfEven =>
    if Int.fract q = 1 / 2 then if Even ⌊q⌋ then ⌊q⌋ else ⌈q⌉ else round q

/-- The mode that does to a number what `mode` does to its negation. -/
def mirror : RoundingMode → RoundingMode
  | .floor => .ceiling
  | .ceiling => .floor
  | mode => mode

/-- **A mode leaves integers alone.** -/
theorem toInt_intCast (mode : RoundingMode) (n : ℤ) : mode.toInt n = n := by
  have hneg : round (-(n : ℚ)) = -n := by
    rw [← Int.cast_neg, round_intCast]
  cases mode <;> simp [toInt, hneg]

theorem ceil_eq_of_fract_ne_zero {q : ℚ} (h : Int.fract q ≠ 0) : ⌈q⌉ = ⌊q⌋ + 1 := by
  rwa [Int.ceil_eq_floor_add_one_iff_notMem, ← Int.fract_eq_zero_iff]

/-- Rounding a number to the nearest integer, where it is no tie, is rounding
its negation. -/
theorem round_neg_of_fract_ne {q : ℚ} (h : Int.fract q ≠ 1 / 2) : round (-q) = -round q := by
  by_cases hq : Int.fract q = 0
  · obtain ⟨n, rfl⟩ : ∃ n : ℤ, (n : ℚ) = q := ⟨⌊q⌋, by rw [← Int.self_sub_fract q, hq]; simp⟩
    rw [← Int.cast_neg, round_intCast, round_intCast]
  · have hneg := Int.fract_neg hq
    unfold round
    rw [hneg, Int.floor_neg, Int.ceil_neg]
    rcases lt_or_gt_of_ne h with hlt | hgt
    · rw [if_neg (by linarith), if_pos (by linarith)]
    · rw [if_pos (by linarith), if_neg (by linarith)]

theorem round_eq_floor_or_ceil (q : ℚ) : round q = ⌊q⌋ ∨ round q = ⌈q⌉ := by
  unfold round
  split
  · exact .inl rfl
  · exact .inr rfl

/-- **A mode chooses between the two integers** around a number. -/
theorem toInt_eq_floor_or_ceil (mode : RoundingMode) (q : ℚ) :
    mode.toInt q = ⌊q⌋ ∨ mode.toInt q = ⌈q⌉ := by
  cases mode with
  | floor => exact .inl rfl
  | ceiling => exact .inr rfl
  | halfUp =>
    dsimp only [toInt]
    split
    · exact round_eq_floor_or_ceil q
    · rcases round_eq_floor_or_ceil (-q) with h | h
      · exact .inr (by rw [h, Int.floor_neg, neg_neg])
      · exact .inl (by rw [h, Int.ceil_neg, neg_neg])
  | halfEven =>
    dsimp only [toInt]
    split
    · split
      · exact .inl rfl
      · exact .inr rfl
    · exact round_eq_floor_or_ceil q

/-- Rounding does not leave an interval between two opposite integers. -/
theorem abs_toInt_le (mode : RoundingMode) {q : ℚ} {n : ℕ} (h : |q| ≤ n) :
    |(mode.toInt q : ℚ)| ≤ n := by
  obtain ⟨hlow, hhigh⟩ := abs_le.mp h
  have hlow : ((-n : ℤ) : ℚ) ≤ q := by exact_mod_cast hlow
  have hhigh : q ≤ ((n : ℤ) : ℚ) := by exact_mod_cast hhigh
  have hfloor : -(n : ℤ) ≤ ⌊q⌋ := Int.le_floor.mpr hlow
  have hceil : ⌈q⌉ ≤ n := Int.ceil_le.mpr hhigh
  have horder : ⌊q⌋ ≤ ⌈q⌉ := Int.floor_le_ceil q
  have habs : |mode.toInt q| ≤ n := by
    rcases mode.toInt_eq_floor_or_ceil q with heq | heq
    · rw [heq]
      exact abs_le.mpr ⟨hfloor, horder.trans hceil⟩
    · rw [heq]
      exact abs_le.mpr ⟨hfloor.trans horder, hceil⟩
  exact_mod_cast habs

/-- Rounding does not go into an interval between two opposite integers. -/
theorem le_abs_toInt (mode : RoundingMode) {q : ℚ} {n : ℕ} (h : (n : ℚ) ≤ |q|) :
    (n : ℚ) ≤ |(mode.toInt q : ℚ)| := by
  have habs : (n : ℤ) ≤ |mode.toInt q| := by
    rcases le_abs.mp h with h | h
    · have hfloor : (n : ℤ) ≤ ⌊q⌋ := Int.le_floor.mpr (by exact_mod_cast h)
      have horder : ⌊q⌋ ≤ ⌈q⌉ := Int.floor_le_ceil q
      refine le_trans ?_ (le_abs_self _)
      rcases mode.toInt_eq_floor_or_ceil q with heq | heq <;> rw [heq] <;> omega
    · have hceil : ⌈q⌉ ≤ -(n : ℤ) := Int.ceil_le.mpr (by push_cast; linarith)
      have horder : ⌊q⌋ ≤ ⌈q⌉ := Int.floor_le_ceil q
      refine le_trans ?_ (neg_le_abs _)
      rcases mode.toInt_eq_floor_or_ceil q with heq | heq <;> rw [heq] <;> omega
  exact_mod_cast habs

/-- **The nearest integer** is at most one half away. -/
theorem abs_sub_toInt_halfUp_le (q : ℚ) : |q - halfUp.toInt q| ≤ 1 / 2 := by
  show |q - ((if 0 ≤ q then round q else -round (-q) : ℤ) : ℚ)| ≤ 1 / 2
  split
  · exact abs_sub_round q
  · have h := abs_sub_round (-q)
    rwa [← abs_neg, neg_sub, sub_neg_eq_add, add_comm, ← sub_neg_eq_add, ← Int.cast_neg] at h

theorem toInt_neg (mode : RoundingMode) (q : ℚ) : mode.toInt (-q) = -mode.mirror.toInt q := by
  cases mode with
  | floor => exact Int.floor_neg
  | ceiling => exact Int.ceil_neg
  | halfUp =>
    show (if 0 ≤ -q then round (-q) else -round (- -q)) = -if 0 ≤ q then round q else -round (-q)
    rcases lt_trichotomy q 0 with h | rfl | h
    · rw [if_pos (by linarith), if_neg (by linarith), neg_neg]
    · simp
    · rw [if_neg (by linarith), if_pos h.le, neg_neg]
  | halfEven =>
    show (if Int.fract (-q) = 1 / 2 then if Even ⌊-q⌋ then ⌊-q⌋ else ⌈-q⌉ else round (-q)) =
      -if Int.fract q = 1 / 2 then if Even ⌊q⌋ then ⌊q⌋ else ⌈q⌉ else round q
    by_cases hq : Int.fract q = 1 / 2
    · -- a tie between two integers of which one is even; negation swaps lower and upper
      have hne : Int.fract q ≠ 0 := by rw [hq]; norm_num
      have hneg : Int.fract (-q) = 1 / 2 := by rw [Int.fract_neg hne, hq]; norm_num
      have heven : Even ⌊-q⌋ ↔ ¬ Even ⌊q⌋ := by
        rw [Int.floor_neg, even_neg, ceil_eq_of_fract_ne_zero hne, Int.even_add_one]
      rw [if_pos hneg, if_pos hq]
      by_cases h : Even ⌊q⌋
      · rw [if_neg (fun hc => heven.mp hc h), if_pos h, Int.ceil_neg]
      · rw [if_pos (heven.mpr h), if_neg h, Int.floor_neg]
    · have hneg : Int.fract (-q) ≠ 1 / 2 := by
        intro h
        have hne : Int.fract (-q) ≠ 0 := by rw [h]; norm_num
        have := Int.fract_neg hne
        rw [neg_neg, h] at this
        exact hq (this.trans (by norm_num))
      rw [if_neg hneg, if_neg hq, round_neg_of_fract_ne hq]

end RoundingMode

/-! ## Quotients -/

theorem goesAway_true (mode : RoundingMode) (odd : Bool) (d : Discarded) :
    mode.goesAway true odd d = mode.mirror.goesAway false odd d := by
  cases mode <;> cases d <;> rfl

theorem roundQuotient_true (mode : RoundingMode) (n d : ℕ) :
    roundQuotient mode true n d = roundQuotient mode.mirror false n d := by
  rw [roundQuotient, roundQuotient, goesAway_true]

/-- The rounding of a positive quotient: the remainder is the distance from the
integer below. -/
theorem roundQuotient_false (mode : RoundingMode) (n : ℕ) {d : ℕ} (hd : 0 < d) :
    (roundQuotient mode false n d : ℤ) = mode.toInt ((n : ℚ) / d) := by
  have hd' : (0 : ℚ) < d := by exact_mod_cast hd
  have hfloor : ⌊(n : ℚ) / d⌋ = (n / d : ℕ) := Rat.floor_natCast_div_natCast n d
  have hfract : Int.fract ((n : ℚ) / d) = (n % d : ℕ) / d :=
    Int.fract_div_natCast_eq_div_natCast_mod
  unfold roundQuotient Discarded.ofRemainder
  by_cases hr : n % d = 0
  · have hint : (n : ℚ) / d = (n / d : ℕ) := by
      rw [Nat.cast_div (Nat.dvd_of_mod_eq_zero hr) hd'.ne']
    rw [if_pos hr, hint]
    exact (mode.toInt_intCast (n / d : ℕ)).symm
  · have hceil : ⌈(n : ℚ) / d⌉ = (n / d : ℕ) + 1 := by
      rw [RoundingMode.ceil_eq_of_fract_ne_zero, hfloor]
      rw [hfract]
      have : (0 : ℚ) < (n % d : ℕ) := by exact_mod_cast Nat.pos_of_ne_zero hr
      positivity
    have hlow : n % d < d := Nat.mod_lt n hd
    rw [if_neg hr]
    -- what is discarded lies to one half as twice the remainder lies to the divisor
    have hhalf : 2 * Int.fract ((n : ℚ) / d) < 1 ↔ 2 * (n % d) < d := by
      rw [hfract, ← mul_div_assoc, div_lt_one hd']
      exact_mod_cast Iff.rfl
    have htie : Int.fract ((n : ℚ) / d) = 1 / 2 ↔ 2 * (n % d) = d := by
      rw [hfract, div_eq_div_iff hd'.ne' two_ne_zero, mul_comm, one_mul]
      exact_mod_cast Iff.rfl
    have hnonneg : (0 : ℚ) ≤ (n : ℚ) / d := by positivity
    have hparity : Even ((n / d : ℕ) : ℤ) ↔ (n / d) % 2 = 0 := by
      rw [Int.even_coe_nat, Nat.even_iff]
    unfold RoundingMode.toInt round RoundingMode.goesAway
    simp only [hhalf, htie, hfloor, hceil, hnonneg, hparity]
    rcases lt_trichotomy (2 * (n % d)) d with h | h | h
    · rw [Nat.compare_eq_lt.mpr h]
      cases mode <;> simp [h, h.ne]
    · rw [Nat.compare_eq_eq.mpr h]
      rcases Nat.mod_two_eq_zero_or_one (n / d) with hp | hp <;> cases mode <;> simp [h, hp]
    · rw [Nat.compare_eq_gt.mpr h]
      cases mode <;> simp [h.not_gt, h.ne']

/-- **A rounded quotient**, with the sign of the number, is the integer that the
quotient with that sign is rounded to. -/
theorem roundQuotient_eq_toInt (mode : RoundingMode) (x : Scaled) (n : ℕ) {d : ℕ} (hd : 0 < d) :
    x.sign * roundQuotient mode x.negative n d = mode.toInt (x.sign * (n / d)) := by
  unfold Scaled.sign
  cases x.negative with
  | false =>
    rw [if_neg Bool.false_ne_true, one_mul, one_mul, ← roundQuotient_false mode n hd,
      Int.cast_natCast]
  | true =>
    rw [if_pos rfl, neg_one_mul, neg_one_mul, RoundingMode.toInt_neg, roundQuotient_true,
      ← roundQuotient_false mode.mirror n hd, Int.cast_neg, Int.cast_natCast]

/-- A quotient below one half is rounded as the mode rounds what lies nearest to
zero. -/
theorem roundQuotient_of_two_mul_lt (mode : RoundingMode) (negative : Bool) {n d : ℕ} (hn : n ≠ 0)
    (h : 2 * n < d) :
    roundQuotient mode negative n d = if mode.goesAway negative false .belowHalf then 1 else 0 := by
  have hlt : n < d := by omega
  unfold roundQuotient Discarded.ofRemainder
  rw [Nat.mod_eq_of_lt hlt, Nat.div_eq_of_lt hlt, if_neg hn, Nat.compare_eq_lt.mpr h]
  rfl

/-- A quotient that leaves nothing is not rounded. -/
theorem roundQuotient_of_mod_eq_zero (mode : RoundingMode) (negative : Bool) {n d : ℕ}
    (h : n % d = 0) : roundQuotient mode negative n d = n / d := by
  unfold roundQuotient Discarded.ofRemainder
  rw [h, if_pos rfl]
  rfl

/-! ## Cutting digits off -/

/-- **A coefficient without its last digits is a rounded quotient**, also where
the power of ten is too large to be formed. -/
theorem cutDigits_eq (mode : RoundingMode) (negative : Bool) (n k : ℕ) :
    cutDigits mode negative n k = roundQuotient mode negative n (10 ^ k) := by
  unfold cutDigits
  split
  · rfl
  · next h =>
    have hcount := one_le_digitCount n
    have hlt : n < 10 ^ (k - 1) := (digitCount_le_iff (by omega)).mp (by omega)
    have hpow : 10 ^ k = 10 * 10 ^ (k - 1) := by
      rw [← Nat.pow_succ', Nat.succ_eq_add_one, Nat.sub_add_cancel (by omega)]
    -- all digits are cut, and what they stand for is below a tenth
    have hsmall : 2 * n < 10 ^ k := by omega
    by_cases hn : n = 0
    · rw [if_pos hn, hn, roundQuotient_of_mod_eq_zero _ _ (Nat.zero_mod _), Nat.zero_div]
    · rw [if_neg hn, roundQuotient_of_two_mul_lt _ _ hn hsmall]

/-- The cut coefficient is the integer that the number is rounded to when the
power of ten its last digit then has is counted as one. -/
theorem Scaled.sign_mul_cutDigits (x : Scaled) (mode : RoundingMode) {e : ℤ}
    (h : x.exponent ≤ e) :
    x.sign * cutDigits mode x.negative x.coefficient (e - x.exponent).toNat =
      mode.toInt (x.toRat / 10 ^ e) := by
  have hsplit : (10 : ℚ) ^ e = 10 ^ (e - x.exponent).toNat * 10 ^ x.exponent := by
    rw [← zpow_natCast, ← zpow_add₀ (by norm_num), Int.toNat_of_nonneg (by omega),
      sub_add_cancel]
  rw [cutDigits_eq, roundQuotient_eq_toInt mode x _ (by positivity), toRat, hsplit,
    mul_div_mul_right _ _ (by positivity), mul_div_assoc, Nat.cast_pow, Nat.cast_ofNat]

/-- **A number written with an exponent** is rounded to a multiple of that power
of ten. -/
theorem Scaled.toRat_withExponent (x : Scaled) (mode : RoundingMode) (e : ℤ) :
    (x.withExponent mode e).toRat = mode.toInt (x.toRat / 10 ^ e) * 10 ^ e := by
  have hpow : (10 : ℚ) ^ e ≠ 0 := by positivity
  unfold withExponent
  split
  · next h =>
    rw [x.toRat_eq_integerAt h, mul_div_cancel_right₀ _ hpow, mode.toInt_intCast, x.integerAt_eq]
    rfl
  · next h =>
    rw [← x.sign_mul_cutDigits mode (by omega)]
    rfl

/-! ## Numbers that a context holds -/

namespace Context

/-- **A number that a context holds**: an integer of no more digits than the
context has, times a power of ten that is not below the smallest one. -/
def Holds (ctx : Context) (q : ℚ) : Prop :=
  ∃ n e : ℤ, |n| < 10 ^ ctx.precision ∧ ctx.tiny ≤ e ∧ q = n * 10 ^ e

variable {ctx : Context} {x y : Scaled}

/-- Zero is the only number that a context without digits holds. -/
theorem Holds.one_le_precision (h : ctx.Holds x.toRat) (hx : x.isZero = false) :
    1 ≤ ctx.precision := by
  obtain ⟨n, e, hn, -, hq⟩ := h
  refine Nat.one_le_iff_ne_zero.mpr fun hzero => ?_
  rw [hzero, pow_zero, Int.abs_lt_one_iff] at hn
  rw [hn, Int.cast_zero, zero_mul, Scaled.toRat_eq_zero_iff, hx] at hq
  exact Bool.false_ne_true hq

/-- A coefficient with no more digits than the context has is settled as it is. -/
theorem eq_of_settle_eq_ok {negative : Bool} {c : ℕ} {e : ℤ}
    (hc : digitCount c ≤ ctx.precision) (h : ctx.settle negative c e = .ok y) :
    y = ⟨negative, c, e⟩ := by
  unfold settle at h
  rw [if_neg (not_lt.mpr hc)] at h
  dsimp only at h
  split at h
  · cases h
  · exact (Except.ok.inj h).symm

/-- A multiple of a power of ten is a multiple of the smaller ones. -/
theorem exists_eq_mul_of_le (n : ℤ) {e f : ℤ} (h : f ≤ e) :
    ∃ m : ℤ, (n : ℚ) * 10 ^ e = m * 10 ^ f := by
  refine ⟨n * 10 ^ (e - f).toNat, ?_⟩
  rw [Int.cast_mul, Int.cast_pow, Int.cast_ofNat, mul_assoc, ← zpow_natCast,
    Int.toNat_of_nonneg (by omega), ← zpow_add₀ (by norm_num), sub_add_cancel]

/-- A number that the context holds is a multiple of the power of ten that its
last digit keeps. -/
theorem exists_eq_mul_lastExponent (hx : x.isZero = false) (h : ctx.Holds x.toRat) :
    ∃ m : ℤ, x.toRat = m * 10 ^ max x.exponent (ctx.lastExponent x.adjusted) := by
  rcases le_total (ctx.lastExponent x.adjusted) x.exponent with hle | hle
  · rw [max_eq_left hle]
    exact ⟨x.integerAt x.exponent, x.toRat_eq_integerAt le_rfl⟩
  · obtain ⟨n, e, hn, he, hq⟩ := h
    -- the first digit of `n * 10 ^ e` stands below `precision + e`
    have hadjusted : x.adjusted < ctx.precision + e := by
      refine Scaled.adjusted_lt hx ?_
      calc |x.toRat| = |(n : ℚ)| * 10 ^ e := by
            rw [hq, abs_mul, abs_of_pos (by positivity : (0 : ℚ) < 10 ^ e)]
        _ < 10 ^ ctx.precision * 10 ^ e := by
          gcongr
          exact_mod_cast hn
        _ = 10 ^ (ctx.precision + e) := by rw [zpow_add₀ (by norm_num), zpow_natCast]
    rw [max_eq_right hle, hq]
    exact exists_eq_mul_of_le n (max_le (by omega) he)

/-- What is left to settle of a number that the context holds: the same number,
with no more digits than the context has. -/
theorem exists_round_eq_settle (hx : x.isZero = false) (h : ctx.Holds x.toRat) :
    ∃ c last, ctx.round x = ctx.settle x.negative c last
      ∧ digitCount c ≤ ctx.precision ∧ (⟨x.negative, c, last⟩ : Scaled).toRat = x.toRat := by
  obtain ⟨m, hm⟩ := exists_eq_mul_lastExponent hx h
  set last := max x.exponent (ctx.lastExponent x.adjusted) with hlast
  set c := cutDigits ctx.mode x.negative x.coefficient (last - x.exponent).toNat with hcut
  have hc : x.sign * c = m := by
    rw [hcut, x.sign_mul_cutDigits ctx.mode (le_max_left _ _), hm,
      mul_div_cancel_right₀ _ (by positivity), RoundingMode.toInt_intCast]
  have habs : (c : ℚ) * 10 ^ last = |x.toRat| := by
    rw [hm, ← hc, abs_mul, abs_mul, x.abs_sign, one_mul, Nat.abs_cast,
      abs_of_pos (by positivity : (0 : ℚ) < 10 ^ last)]
  -- rounding up could only add a digit where it changes the number
  have hlt : (c : ℚ) * 10 ^ last < 10 ^ ctx.precision * 10 ^ last :=
    calc (c : ℚ) * 10 ^ last < 10 ^ (x.adjusted + 1) := habs ▸ x.abs_toRat_lt
      _ ≤ 10 ^ (ctx.precision + last) :=
        zpow_le_zpow_right₀ (by norm_num)
          (by have : ctx.lastExponent x.adjusted ≤ last := le_max_right _ _
              unfold lastExponent at this
              omega)
      _ = 10 ^ ctx.precision * 10 ^ last := by rw [zpow_add₀ (by norm_num), zpow_natCast]
  refine ⟨c, last, ?_, ?_, ?_⟩
  · rw [round, hx, if_neg Bool.false_ne_true]
  · rw [digitCount_le_iff (h.one_le_precision hx)]
    exact_mod_cast lt_of_mul_lt_mul_right hlt (by positivity)
  · rw [hm, ← hc]
    rfl

/-- **A number that the context holds is not changed by rounding.** -/
theorem toRat_round (hy : ctx.round x = .ok y) (h : ctx.Holds x.toRat) : y.toRat = x.toRat := by
  cases hx : x.isZero with
  | true =>
    rw [round, if_pos hx] at hy
    obtain rfl := Except.ok.inj hy
    rw [x.toRat_eq_zero_iff.mpr hx, Scaled.toRat_eq_zero_iff]
    rfl
  | false =>
    obtain ⟨c, last, hround, hcount, hvalue⟩ := exists_round_eq_settle hx h
    rw [eq_of_settle_eq_ok hcount (hround.symm.trans hy), hvalue]

/-- **A number that the context holds is not too large for it** if its first digit
does not stand too high. -/
theorem exists_round (h : ctx.Holds x.toRat) (hlt : |x.toRat| < 10 ^ (maxExponent + 1)) :
    ∃ y, ctx.round x = .ok y := by
  cases hx : x.isZero with
  | true => exact ⟨_, if_pos hx⟩
  | false =>
    obtain ⟨c, last, hround, hcount, hvalue⟩ := exists_round_eq_settle hx h
    refine ⟨⟨x.negative, c, last⟩, ?_⟩
    rw [hround, settle, if_neg (not_lt.mpr hcount)]
    refine if_neg ?_
    rw [Bool.and_eq_true, Bool.not_eq_true', decide_eq_true_eq, not_and, not_lt]
    intro hzero
    rw [← hvalue] at hlt
    exact Int.lt_add_one_iff.mp (Scaled.adjusted_lt hzero hlt)

end Context

end Reckoner
