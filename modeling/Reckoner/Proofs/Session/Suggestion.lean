import Reckoner.Proofs.Decimal.Magnitude
import Reckoner.Proofs.Session.ReadBack

/-!
# Unit suggestions can be typed in again

From a thousand up, a result is also shown in units: a count with at most two
places, and the letter of the largest unit that is not above the number. The
table the letters come from is not the one that units are read with, and the
count is rounded, so two things have to be seen to: that the text is a line with
a value, and which number this is. `Session.exists_isSuggestedAs` says that it
is the count times the unit, and how far that can be from the result.

The count is half-up rounding of hundredths of the unit, so everything about it
is said of the integer that a number is rounded to: it is no further than one half
away (`RoundingMode.abs_sub_toInt_halfUp_le`), and rounding leaves the integers
`100` and `100000` on the side they are on.
-/

namespace Reckoner

variable {r : ℚ} {u : UnitSuffix}

/-- **The units that large numbers are given in**, by the letters for a thousand, a
million, a billion and a trillion. -/
def letterUnits : List UnitSuffix := [.thousand, .million, .billion, .trillion]

/-- **The unit a number is given in**: the largest one that is not above it. -/
structure IsUnitOf (u : UnitSuffix) (r : ℚ) : Prop where
  mem : u ∈ letterUnits
  size_le : (u.size : ℚ) ≤ |r|
  largest : ∀ w ∈ letterUnits, (w.size : ℚ) ≤ |r| → w.size ≤ u.size

/-- **The count of hundredths** of a unit, rounded with ties away from zero. -/
def hundredths (u : UnitSuffix) (r : ℚ) : ℤ := RoundingMode.halfUp.toInt (r / u.size * 100)

/-- **A number in units**, rounded to two places with ties away from zero. -/
def inUnits (u : UnitSuffix) (r : ℚ) : ℚ := hundredths u r / 100

theorem UnitSuffix.size_pos (u : UnitSuffix) : (0 : ℚ) < u.size := by
  cases u <;> norm_num [size]

/-! ## The count -/

section Count

variable (hu : (u.size : ℚ) ≤ |r|)

include hu

theorem hundred_le_abs : (100 : ℕ) ≤ |r / u.size * 100| := by
  have hpos := u.size_pos
  rw [abs_mul, abs_div, abs_of_pos hpos, div_mul_eq_mul_div, le_div_iff₀ hpos]
  norm_num
  linarith

/-- **The count is at least one.** -/
theorem one_le_abs_inUnits : 1 ≤ |inUnits u r| := by
  have h := RoundingMode.halfUp.le_abs_toInt (hundred_le_abs hu)
  rw [inUnits, abs_div, le_div_iff₀ (by norm_num), hundredths]
  simpa using h

end Count

/-- **The count is at most a thousand** below the next unit. -/
theorem abs_inUnits_le (h : |r| ≤ 1000 * u.size) : |inUnits u r| ≤ 1000 := by
  have hpos := u.size_pos
  have hle : |r / u.size * 100| ≤ (100000 : ℕ) := by
    rw [abs_mul, abs_div, abs_of_pos hpos, div_mul_eq_mul_div, div_le_iff₀ hpos]
    norm_num
    linarith
  have h := RoundingMode.halfUp.abs_toInt_le hle
  rw [inUnits, abs_div, div_le_iff₀ (by norm_num), hundredths]
  norm_num at h ⊢
  exact h

/-- **How far the count is from the number**: half a hundredth of the unit. -/
theorem abs_sub_inUnits_le (u : UnitSuffix) (r : ℚ) :
    |r - inUnits u r * u.size| ≤ u.size / 200 := by
  have hpos := u.size_pos
  have h := RoundingMode.abs_sub_toInt_halfUp_le (r / u.size * 100)
  have hscale : r - inUnits u r * u.size
      = (r / u.size * 100 - hundredths u r) * (u.size / 100) := by
    rw [inUnits]
    field_simp
  rw [hscale, abs_mul, abs_of_pos (by positivity : (0 : ℚ) < u.size / 100)]
  calc |r / u.size * 100 - hundredths u r| * (u.size / 100) ≤ 1 / 2 * (u.size / 100) := by
        gcongr
        exact h
    _ = u.size / 200 := by ring

/-- **The count is exact** for the multiples of a hundredth of the unit. -/
theorem inUnits_mul_size_eq_iff (u : UnitSuffix) (r : ℚ) :
    inUnits u r * u.size = r ↔ ∃ n : ℤ, r = n * (u.size / 100) := by
  have hpos := u.size_pos
  constructor
  · intro h
    refine ⟨hundredths u r, ?_⟩
    conv_lhs => rw [← h, inUnits]
    ring
  · rintro ⟨n, hn⟩
    have hint : r / u.size * 100 = n := by
      rw [hn]
      field_simp
    rw [inUnits, hundredths, hint, RoundingMode.toInt_intCast, hn]
    ring

/-- **The count has the sign of the number.** -/
theorem inUnits_lt_zero_iff (hu : (u.size : ℚ) ≤ |r|) : inUnits u r < 0 ↔ r < 0 := by
  have hpos := u.size_pos
  obtain ⟨hlow, hhigh⟩ := abs_le.mp (abs_sub_inUnits_le u r)
  constructor
  · intro h
    by_contra! hr
    rw [abs_of_nonneg hr] at hu
    have : inUnits u r * u.size < 0 := mul_neg_of_neg_of_pos h hpos
    linarith
  · intro hr
    rw [abs_of_neg hr] at hu
    by_contra! h
    have : 0 ≤ inUnits u r * u.size := mul_nonneg h hpos.le
    linarith

theorem sign_inUnits (hu : (u.size : ℚ) ≤ |r|) :
    SignType.sign (inUnits u r) = SignType.sign r := by
  have hne : inUnits u r ≠ 0 := by
    rw [← abs_pos]
    exact zero_lt_one.trans_le (one_le_abs_inUnits hu)
  rcases lt_or_ge r 0 with hr | hr
  · rw [sign_neg hr, sign_neg ((inUnits_lt_zero_iff hu).mpr hr)]
  · have hpos : 0 < r := by
      rw [abs_of_nonneg hr] at hu
      exact u.size_pos.trans_le hu
    have hcount : 0 ≤ inUnits u r := not_lt.mp (mt (inUnits_lt_zero_iff hu).mp (not_lt.mpr hr))
    rw [sign_pos hpos, sign_pos (lt_of_le_of_ne hcount hne.symm)]

/-! ## The text -/

namespace Scaled

theorem toRat_inUnit (x : Scaled) {power : ℕ} (hsize : u.size = 10 ^ power) :
    (x.inUnit power).toRat = inUnits u x.toRat := by
  have hshift : ({ x with exponent := x.exponent - power } : Scaled).toRat
      = x.toRat / u.size := by
    show x.sign * x.coefficient * (10 : ℚ) ^ (x.exponent - power) = _
    rw [zpow_sub₀ (by norm_num), zpow_natCast, hsize, toRat, mul_div_assoc, Nat.cast_pow,
      Nat.cast_ofNat]
  have hhundred : (10 : ℚ) ^ (-2 : ℤ) = 1 / 100 := by norm_num
  rw [inUnit, toRat_withExponent, hshift, hhundred, div_div_eq_mul_div, div_one, mul_one_div]
  rfl

/-- **The text of a count of units** is its plain text. -/
theorem isPlainText_inUnit (x : Scaled) {power : ℕ} (hsize : u.size = 10 ^ power)
    (hu : (u.size : ℚ) ≤ |x.toRat|) :
    IsPlainText false (inUnits u x.toRat) ((x.inUnit power).plainText false).toList := by
  have hexponent : (x.inUnit power).exponent = -2 := by
    unfold inUnit withExponent
    split <;> rfl
  have hnegative : (x.inUnit power).negative = x.negative := by
    unfold inUnit withExponent
    split <;> rfl
  have hx : x.isZero = false := by
    refine Bool.eq_false_of_not_eq_true fun hx => ?_
    rw [x.toRat_eq_zero_iff.mpr hx, abs_zero] at hu
    exact absurd hu (not_le.mpr u.size_pos)
  rw [← x.toRat_inUnit hsize]
  refine (x.inUnit power).isPlainText_plainText false (by rw [hexponent]; norm_num) ?_
  rw [hnegative, x.toRat_inUnit hsize, inUnits_lt_zero_iff hu, toRat_lt_zero_iff, hx]
  exact (and_iff_left rfl).symm

end Scaled

theorem IsUnitOf.of_lt (hu : u ∈ letterUnits) (hle : (u.size : ℚ) ≤ |r|)
    (hnext : ∀ w ∈ letterUnits, u.size < w.size → |r| < w.size) : IsUnitOf u r := by
  refine ⟨hu, hle, fun w hw h => ?_⟩
  by_contra! hlt
  exact absurd h (not_le.mpr (hnext w hw hlt))

/-- A number is below a thousand of its units, unless there is no larger unit. -/
theorem IsUnitOf.abs_lt (h : IsUnitOf u r) (hne : u ≠ .trillion) : |r| < 1000 * u.size := by
  -- the unit that is a thousand times as large would be the one
  obtain ⟨w, hw, hsize⟩ : ∃ w ∈ letterUnits, w.size = 1000 * u.size := by
    have hu := h.mem
    simp only [letterUnits, List.mem_cons, List.not_mem_nil, or_false] at hu
    rcases hu with rfl | rfl | rfl | rfl
    · exact ⟨.million, by decide, rfl⟩
    · exact ⟨.billion, by decide, rfl⟩
    · exact ⟨.trillion, by decide, rfl⟩
    · exact absurd rfl hne
  have hpos : 0 < u.size := by exact_mod_cast u.size_pos
  by_contra! hle
  have := h.largest w hw (by rw [hsize]; exact_mod_cast hle)
  omega

/-- **The letter of a suggestion** is that of the unit the number is given in. -/
theorem Scaled.exists_unit (x : Scaled) (h : 1000 ≤ |x.toRat|) :
    ∃ u power, IsUnitOf u x.toRat ∧ u.size = 10 ^ power
      ∧ magnitudes.find? (fun m => x.magnitudeAtLeast (10 ^ m.1)) = some (power, u.text) := by
  have hyes {n : ℕ} (hn : (n : ℚ) ≤ |x.toRat|) : x.magnitudeAtLeast n = true :=
    x.magnitudeAtLeast_iff.mpr hn
  have hno {n : ℕ} (hn : |x.toRat| < n) : x.magnitudeAtLeast n = false := by
    rw [← Bool.not_eq_true, x.magnitudeAtLeast_iff]
    exact not_le.mpr hn
  simp only [magnitudes, List.find?_cons]
  rcases le_or_gt ((10 ^ 12 : ℕ) : ℚ) |x.toRat| with h12 | h12
  · refine ⟨.trillion, 12, .of_lt (by decide) h12 ?_, rfl, by rw [hyes h12]; rfl⟩
    simp [letterUnits, UnitSuffix.size]
  rcases le_or_gt ((10 ^ 9 : ℕ) : ℚ) |x.toRat| with h9 | h9
  · refine ⟨.billion, 9, .of_lt (by decide) h9 ?_, rfl, by rw [hno h12, hyes h9]; rfl⟩
    norm_num at h12
    simpa [letterUnits, UnitSuffix.size] using h12
  rcases le_or_gt ((10 ^ 6 : ℕ) : ℚ) |x.toRat| with h6 | h6
  · refine ⟨.million, 6, .of_lt (by decide) h6 ?_, rfl, by rw [hno h12, hno h9, hyes h6]; rfl⟩
    norm_num at h12 h9
    simpa [letterUnits, UnitSuffix.size] using ⟨h9, h12⟩
  have h3 : ((10 ^ 3 : ℕ) : ℚ) ≤ |x.toRat| := by
    norm_num
    exact h
  refine ⟨.thousand, 3, .of_lt (by decide) h3 ?_, rfl,
    by rw [hno h12, hno h9, hno h6, hyes h3]; rfl⟩
  norm_num at h12 h9 h6
  simpa [letterUnits, UnitSuffix.size] using ⟨h6, h9, h12⟩

/-- The letter of a unit, right after a number, is read as that unit. -/
theorem tokensFrom_letter (hu : u ∈ letterUnits) (position : ℕ) (before : Option Char)
    (n : Numeral) :
    EndsNumber u.text.toList ∧ tokensFrom position ⟨before, some (.number n)⟩ u.text.toList
      = .ok [⟨.unit u, u.text.toList, position⟩] := by
  simp only [letterUnits, List.mem_cons, List.not_mem_nil, or_false] at hu
  rcases hu with rfl | rfl | rfl | rfl
  · exact ⟨by rintro _ ⟨⟩; decide, by cbv⟩
  · exact ⟨by rintro _ ⟨⟩; decide, by cbv⟩
  · exact ⟨by rintro _ ⟨⟩; decide, by cbv⟩
  · exact ⟨by rintro _ ⟨⟩; decide, by cbv⟩

/-! ## The value -/

/-- A count times its unit is at most twice the number. -/
theorem abs_inUnits_mul_size_le (hu : (u.size : ℚ) ≤ |r|) :
    |inUnits u r| * u.size ≤ 2 * |r| := by
  have hnear := abs_sub_abs_le_abs_sub (inUnits u r * u.size) r
  rw [abs_sub_comm, abs_mul, abs_of_pos u.size_pos] at hnear
  linarith [abs_sub_inUnits_le u r]

/-- **A count times its unit has few digits**: it is an integer of hundredths. -/
theorem holds_inUnits_mul_size {power k : ℕ} (hsize : u.size = 10 ^ power)
    (hu : (u.size : ℚ) ≤ |r|) (hr : |r| ≤ 10 ^ k) (hk : k < maxResultDigits) :
    Context.exact.Holds (|inUnits u r| * u.size) := by
  have htwice := abs_inUnits_mul_size_le hu
  refine ⟨|hundredths u r|, power - 2, ?_, ?_, ?_⟩
  · have hone : (1 : ℚ) ≤ u.size := by
      rw [hsize]
      exact_mod_cast Nat.one_le_pow _ _ (by norm_num)
    have hcount : |(hundredths u r : ℚ)| = |inUnits u r| * 100 := by
      rw [inUnits, abs_div, abs_of_pos (by norm_num : (0 : ℚ) < 100),
        div_mul_cancel₀ _ (by norm_num)]
    have hroom : k + 3 ≤ Context.exact.precision :=
      (Nat.add_le_add_right hk.le 3).trans (by decide)
    refine Int.cast_lt (R := ℚ).mp ?_
    rw [abs_abs, Int.cast_abs, Int.cast_pow, Int.cast_ofNat]
    calc |(hundredths u r : ℚ)| < 10 ^ (k + 3) := by
          have hbound : 0 < (10 : ℚ) ^ k := by positivity
          have hle := le_mul_of_one_le_right (abs_nonneg (inUnits u r)) hone
          rw [hcount, pow_add]
          linarith
      _ ≤ 10 ^ Context.exact.precision := pow_le_pow_right₀ (by norm_num) hroom
  · have : Context.exact.tiny ≤ -2 := by decide
    omega
  · rw [inUnits, abs_div, hsize, zpow_sub₀ (by norm_num), zpow_natCast, Int.cast_abs,
      Nat.cast_pow, Nat.cast_ofNat]
    norm_num
    ring

/-- **A count of units is computed exactly**, if the number leaves room for one
digit more. -/
theorem exists_apply_unit {a : Scaled} {power k : ℕ} (hsize : u.size = 10 ^ power)
    (ha : a.toRat = |inUnits u r|) (hu : (u.size : ℚ) ≤ |r|) (hr : |r| ≤ 10 ^ k)
    (hk : k < maxResultDigits) (position : ℕ) :
    ∃ z : Scaled, u.apply position (.finite a) = .ok (.finite z)
      ∧ z.toRat = |inUnits u r| * u.size := by
  have hlt : |a.toRat * u.size| < 10 ^ maxResultDigits := by
    have htwice := abs_inUnits_mul_size_le hu
    have hbound : 0 < (10 : ℚ) ^ k := by positivity
    rw [ha, abs_mul, abs_abs, abs_of_pos u.size_pos]
    calc |inUnits u r| * u.size < 10 ^ (k + 1) := by
          rw [pow_succ]
          linarith
      _ ≤ 10 ^ maxResultDigits := pow_le_pow_right₀ (by norm_num) hk
  have hheld : Context.exact.Holds (a.toRat * u.size) :=
    ha ▸ holds_inUnits_mul_size hsize hu hr hk
  have hproduct : (a.mul (.ofNat u.size)).toRat = a.toRat * u.size := by
    rw [a.toRat_mul, u.toRat_size]
  obtain ⟨z, hz⟩ : ∃ z, u.apply position (.finite a) = .ok z :=
    exists_bounded_round hproduct hheld hlt
  obtain ⟨y, rfl, hy⟩ := UnitSuffix.equals_mul_size hz hheld
  exact ⟨y, hz, by rw [← Option.some.inj hy, ha]⟩

/-- **A result is suggested as a count of units**: the text of the suggestion is
the count and the letter of the unit, every session takes it for a line and
answers the count times the unit, and this number is close to the result, with
its sign, and equal to it for the multiples of a hundredth of the unit. -/
structure Scaled.IsSuggestedAs (x : Scaled) (u : UnitSuffix) (q : ℚ) (text : String) : Prop where
  unitSuggestion_eq : x.unitSuggestion = some text
  plain : ∃ digits, IsPlainText false q digits ∧ text.toList = digits ++ u.text.toList
  count_eq : q = RoundingMode.halfUp.toInt (x.toRat / u.size * 100) / 100
  evaluated : ∀ s : Session, ∃ y : Scaled,
    s.evaluateQuietly (some text) = .ok (.finite y, { s with answer := .finite y })
      ∧ y.toRat = u.size * q
  abs_sub_le : |x.toRat - u.size * q| ≤ u.size / 200
  sign_eq : SignType.sign (u.size * q) = SignType.sign x.toRat
  eq_iff : u.size * q = x.toRat ↔ ∃ n : ℤ, x.toRat = n * (u.size / 100)
  one_le_abs : 1 ≤ |q|
  abs_le : u ≠ .trillion → |q| ≤ 1000

namespace Session

/-- **The text of a suggestion has a value in every session**: the count times the
unit. -/
theorem exists_evaluateQuietly_inUnit (s : Session) {x : Scaled} {power : ℕ}
    (hunit : IsUnitOf u x.toRat) (hsize : u.size = 10 ^ power) (hhigh : |x.toRat| ≤ 10 ^ 9999) :
    ∃ y : Scaled, s.evaluateQuietly (some ((x.inUnit power).plainText false ++ u.text))
        = .ok (.finite y, { s with answer := .finite y })
      ∧ y.toRat = u.size * inUnits u x.toRat := by
  set digits := (x.inUnit power).plainText false
  obtain ⟨minus, n, position, hminus, hn, htokens⟩ :=
    (x.isPlainText_inUnit hsize hunit.size_le).exists_tokens
  obtain ⟨hend, hletter⟩ :=
    tokensFrom_letter hunit.mem digits.toList.length n.chars.getLast? n
  have htokens := htokens _ hend
  rw [hletter, ← String.toList_append] at htokens
  obtain ⟨z, hz, hvalue⟩ :=
    exists_apply_unit hsize hn hunit.size_le hhigh (by decide) digits.toList.length
  set operand : Phrase .operand := .inUnit (.number ⟨.number n, n.chars, position⟩ n rfl)
    ⟨.unit u, u.text.toList, digits.toList.length⟩ u rfl
  obtain ⟨y, hy, hyvalue⟩ := exists_compute_signed (s := s) hminus operand htokens hz hvalue
  refine ⟨y, ?_, by rw [hyvalue, mul_comm]⟩
  rw [evaluateQuietly, hy]
  rfl

/-- **The suggestion for a large result is a line with a value**: from a thousand up,
with room for one digit more, the result is suggested as a count of the largest
unit that is not above it, unless it is the size of a container, which has a name
of its own. -/
theorem exists_isSuggestedAs (x : Scaled) (hlow : 1000 ≤ |x.toRat|)
    (hhigh : |x.toRat| ≤ 10 ^ 9999)
    (hcontainer : |x.toRat| ≠ 1728 ∧ |x.toRat| ≠ 2880 ∧ |x.toRat| ≠ 3456) :
    ∃ u q text, IsUnitOf u x.toRat ∧ x.IsSuggestedAs u q text := by
  obtain ⟨u, power, hunit, hsize, hfind⟩ := x.exists_unit hlow
  have hle := hunit.size_le
  have hpos := u.size_pos
  have hplain := x.isPlainText_inUnit hsize hle
  have hnone : Scaled.containers.find? (fun c => x.hasMagnitude c.1) = none := by
    simp only [Scaled.containers, List.find?_eq_none, List.forall_mem_cons, x.hasMagnitude_iff]
    exact ⟨hcontainer.2.1, hcontainer.2.2, hcontainer.1, by simp⟩
  refine ⟨u, inUnits u x.toRat, (x.inUnit power).plainText false ++ u.text, hunit, ?_⟩
  refine ⟨?_, ⟨_, hplain, String.toList_append⟩, rfl,
    fun s => s.exists_evaluateQuietly_inUnit hunit hsize hhigh, ?_, ?_, ?_,
    one_le_abs_inUnits hle, ?_⟩
  · rw [Scaled.unitSuggestion, hnone]
    dsimp only
    rw [hfind]
  · rw [mul_comm]
    exact abs_sub_inUnits_le u x.toRat
  · rw [sign_mul, sign_pos hpos, one_mul, sign_inUnits hle]
  · rw [mul_comm]
    exact inUnits_mul_size_eq_iff u x.toRat
  · exact fun hne => abs_inUnits_le (hunit.abs_lt hne).le

/-- The result `-1555`, which lies halfway between two hundredths of its unit. -/
theorem exists_isSuggestedAs_thousand :
    1000 ≤ |(⟨true, 1555, 0⟩ : Scaled).toRat| ∧ |(⟨true, 1555, 0⟩ : Scaled).toRat| ≤ 10 ^ 9999
      ∧ (|(⟨true, 1555, 0⟩ : Scaled).toRat| ≠ 1728 ∧ |(⟨true, 1555, 0⟩ : Scaled).toRat| ≠ 2880
        ∧ |(⟨true, 1555, 0⟩ : Scaled).toRat| ≠ 3456)
      ∧ ∃ u q text, IsUnitOf u (⟨true, 1555, 0⟩ : Scaled).toRat
        ∧ (⟨true, 1555, 0⟩ : Scaled).IsSuggestedAs u q text := by
  have hvalue : |(⟨true, 1555, 0⟩ : Scaled).toRat| = 1555 := by
    norm_num [Scaled.toRat, Scaled.sign]
  have hlow : 1000 ≤ |(⟨true, 1555, 0⟩ : Scaled).toRat| := by
    rw [hvalue]
    norm_num
  have hhigh : |(⟨true, 1555, 0⟩ : Scaled).toRat| ≤ 10 ^ 9999 := by
    rw [hvalue]
    calc (1555 : ℚ) ≤ 10 ^ 4 := by norm_num
      _ ≤ 10 ^ 9999 := pow_le_pow_right₀ (by norm_num) (by omega)
  have hcontainer : |(⟨true, 1555, 0⟩ : Scaled).toRat| ≠ 1728
      ∧ |(⟨true, 1555, 0⟩ : Scaled).toRat| ≠ 2880 ∧ |(⟨true, 1555, 0⟩ : Scaled).toRat| ≠ 3456 := by
    rw [hvalue]
    norm_num
  exact ⟨hlow, hhigh, hcontainer, exists_isSuggestedAs _ hlow hhigh hcontainer⟩

end Session

end Reckoner
