import Reckoner.Decimal.Power
import Reckoner.Proofs.Decimal.Error
import Reckoner.Proofs.Outcome

/-!
# Repeated squaring

The bits of an exponent are read from the top. The exponent that has been read so
far is doubled by each of them, and increased if the bit is set: the number reached
belongs to the exponent read. `Context.squareAndMultiply_induction` says so for any
property `P` of an exponent and a number – if each of the two kinds of rounded
product keeps it, a whole run does.

The property that serves to bound the error of a run is nearness with a factor that
the exponent decides. A squaring takes the factor twice and adds one for its own
rounding, so that the factor of the power with exponent `m`, with one rounding more,
is the `m`-th power of that of the base with one rounding more
(`Context.isNear_squareAndMultiply`).
-/

namespace Reckoner

/-! ## The exponent that bits spell -/

/-- **The number whose binary digits are those of `m`, followed by `bits`.** -/
def withBits (m : ℕ) (bits : List Bool) : ℕ :=
  bits.foldl (fun m bit => 2 * m + bit.toNat) m

theorem withBits_cons (m : ℕ) (bit : Bool) (bits : List Bool) :
    withBits m (bit :: bits) = withBits (2 * m + bit.toNat) bits := rfl

theorem le_withBits (m : ℕ) (bits : List Bool) : m ≤ withBits m bits := by
  induction bits generalizing m with
  | nil => exact le_rfl
  | cons bit bits ih =>
    rw [withBits_cons]
    exact le_trans (by omega) (ih _)

/-- **The binary digits of a number spell it.** -/
theorem withBits_binaryDigits (n : ℕ) : withBits 0 (binaryDigits n) = n := by
  fun_induction binaryDigits n with
  | case1 => rfl
  | case2 n _ ih =>
    have hbit : (n % 2 == 1).toNat = n % 2 := by
      rcases Nat.mod_two_eq_zero_or_one n with h | h <;> rw [h] <;> rfl
    rw [withBits, List.foldl_append]
    show 2 * withBits 0 (binaryDigits (n / 2)) + (n % 2 == 1).toNat = n
    rw [ih, hbit, Nat.div_add_mod]

/-- The highest digit of a number is a one. -/
theorem exists_binaryDigits_eq_cons {n : ℕ} (hn : n ≠ 0) :
    ∃ bits, binaryDigits n = true :: bits := by
  fun_induction binaryDigits n with
  | case1 => exact absurd rfl hn
  | case2 n _ ih =>
    by_cases hhalf : n / 2 = 0
    · obtain rfl : n = 1 := by omega
      exact ⟨[], by rw [hhalf, binaryDigits, if_pos rfl]; rfl⟩
    · obtain ⟨bits, hbits⟩ := ih hhalf
      exact ⟨bits ++ [n % 2 == 1], by rw [hbits, List.cons_append]⟩

/-- The digits behind the highest one lead from one to the number. -/
theorem withBits_one_tail {n : ℕ} (hn : n ≠ 0) : withBits 1 (binaryDigits n).tail = n := by
  obtain ⟨bits, hbits⟩ := exists_binaryDigits_eq_cons hn
  have hspell := withBits_binaryDigits n
  rw [hbits, withBits_cons] at hspell
  rw [hbits]
  exact hspell

namespace Context

variable {ctx : Context} {base acc x y z : Scaled} {n : ℕ}

/-! ## Operations that succeed -/

theorem eq_of_deliver_eq_ok {q r : ℚ} (h : deliver q = .ok r) : r = q := by
  unfold deliver at h
  split at h
  · cases h
  · exact (Except.ok.inj h).symm

/-- A number that is brought into a context successfully is the nearest one. -/
theorem toRat_of_round_eq_ok (hp : 1 ≤ ctx.precision) (h : ctx.round x = .ok z) :
    z.toRat = ctx.nearest x.toRat := by
  have hround := map_toRat_round hp x
  rw [h] at hround
  exact eq_of_deliver_eq_ok hround.symm

theorem toRat_of_divide_eq_ok (hp : 1 ≤ ctx.precision) (hy : y.isZero = false)
    (h : ctx.divide x y = .ok z) : z.toRat = ctx.nearest (x.toRat / y.toRat) := by
  have hdivide := map_toRat_divide hp x hy
  rw [h] at hdivide
  exact eq_of_deliver_eq_ok hdivide.symm

/-! ## A whole run -/

/-- **What each rounded product keeps is true of the power.** The exponent `m` is the
one that has been read so far, and never above the one that the bits spell. -/
theorem squareAndMultiply_induction (hp : 1 ≤ ctx.precision) {P : ℕ → ℚ → Prop}
    (hsquare : ∀ m r, 2 * m ≤ n → P m r → P (2 * m) (ctx.nearest (r * r)))
    (hmul : ∀ m r, 2 * m + 1 ≤ n → P (2 * m) r →
      P (2 * m + 1) (ctx.nearest (r * base.toRat)))
    {bits : List Bool} {m : ℕ} (hbits : withBits m bits = n) (hacc : P m acc.toRat)
    (h : ctx.squareAndMultiply base acc bits = .ok z) : P n z.toRat := by
  induction bits generalizing m acc with
  | nil =>
    obtain rfl := Except.ok.inj h
    exact hbits ▸ hacc
  | cons bit bits ih =>
    obtain ⟨square, hround, h⟩ := exists_of_bind_eq_ok h
    rw [withBits_cons] at hbits
    have hle : 2 * m + bit.toNat ≤ n := hbits ▸ le_withBits _ _
    have hsquared : P (2 * m) square.toRat := by
      rw [toRat_of_round_eq_ok hp hround, Scaled.toRat_mul]
      exact hsquare m _ (by omega) hacc
    cases bit with
    | false => exact ih hbits hsquared h
    | true =>
      obtain ⟨next, hnext, h⟩ := exists_of_bind_eq_ok h
      refine ih hbits ?_ h
      rw [toRat_of_round_eq_ok hp hnext, Scaled.toRat_mul]
      exact hmul m _ hle hsquared

/-! ## The error of a run -/

/-- The powers on the way to a power are not smaller than one or than that power. -/
theorem pow_minExponent_le {c : ℚ} (h : 10 ^ minExponent ≤ |c ^ n|) {m : ℕ} (hm : m ≤ n) :
    10 ^ minExponent ≤ |c ^ m| := by
  rw [abs_pow] at h ⊢
  rcases le_total |c| 1 with hle | hle
  · exact h.trans (pow_le_pow_of_le_one (abs_nonneg _) hle hm)
  · have hone : (10 : ℚ) ^ minExponent ≤ 1 :=
      zpow_le_one_of_nonpos₀ (by norm_num) (by decide)
    exact hone.trans (one_le_pow₀ hle)

/-- **What is reached when the exponent `m` has been read**: a number near the power
`c ^ m` of the base, by a factor that one rounding more would make the `m`-th power
of that of the base. -/
def ReachesNear (ctx : Context) (g c : ℚ) (m : ℕ) (r : ℚ) : Prop :=
  ∃ f, f * (1 + ctx.roundoff) = (g * (1 + ctx.roundoff)) ^ m ∧ IsNear f (c ^ m) r

namespace ReachesNear

variable {g c r s : ℚ} {m : ℕ}

theorem square (hmode : ctx.mode.ToNearest) (hlow : 10 ^ minExponent ≤ |c ^ (2 * m)|)
    (h : ctx.ReachesNear g c m r) : ctx.ReachesNear g c (2 * m) (ctx.nearest (r * r)) := by
  obtain ⟨f, hf, hr⟩ := h
  rw [two_mul, pow_add] at hlow
  refine ⟨f * f * (1 + ctx.roundoff), ?_, ?_⟩
  · rw [two_mul, pow_add, ← hf]
    ring
  · rw [two_mul, pow_add]
    exact (hr.mul hr).nearest hmode hlow

theorem mul (hmode : ctx.mode.ToNearest) (hlow : 10 ^ minExponent ≤ |c ^ (m + 1)|)
    (hbase : IsNear g c s) (h : ctx.ReachesNear g c m r) :
    ctx.ReachesNear g c (m + 1) (ctx.nearest (r * s)) := by
  obtain ⟨f, hf, hr⟩ := h
  rw [pow_succ] at hlow
  refine ⟨f * g * (1 + ctx.roundoff), ?_, ?_⟩
  · rw [pow_succ, ← hf]
    ring
  · rw [pow_succ]
    exact (hr.mul hbase).nearest hmode hlow

end ReachesNear

/-- **The error of repeated squaring.** Every factor in the power costs as much as
the base and one rounding. -/
theorem isNear_squareAndMultiply (hp : 1 ≤ ctx.precision) (hmode : ctx.mode.ToNearest) {c g : ℚ}
    (hbase : IsNear g c base.toRat) (hn : n ≠ 0) (hlow : 10 ^ minExponent ≤ |c ^ n|)
    (h : ctx.squareAndMultiply base base (binaryDigits n).tail = .ok z) :
    IsNear ((g * (1 + ctx.roundoff)) ^ n) (c ^ n) z.toRat := by
  have hstart : ctx.ReachesNear g c 1 base.toRat :=
    ⟨g, (pow_one _).symm, (pow_one c).symm ▸ hbase⟩
  obtain ⟨f, hf, hnear⟩ := squareAndMultiply_induction hp
    (fun m r hm hr => hr.square hmode (pow_minExponent_le hlow hm))
    (fun m r hm hr => hr.mul hmode (pow_minExponent_le hlow hm) hbase)
    (withBits_one_tail hn) hstart h
  have hone : 1 ≤ f := hnear.one_le (ne_zero_of_minExponent_le hlow)
  have hu : 0 < ctx.roundoff := ctx.roundoff_pos
  refine hnear.mono ?_
  rw [← hf]
  exact le_mul_of_one_le_right (zero_le_one.trans hone) (by linarith)

end Context

end Reckoner
