import Reckoner.Proofs.Decimal.Magnitude
import Reckoner.Proofs.Display.Grouped

/-!
# How many stacks a number is said to be

A number from a stack up to a thousand is also shown as a count of stacks, if the count has
at most two places. The count that is looked at is not the quotient, but the quotient rounded
to ten places, and this can bring about a count that the quotient does not have: a ten
thousand millionth more than a stack is still said to be one. So a count says less than it
seems to, and `Scaled.unitSuggestion_spec` says how much: it is the rounded quotient, off by
no more than half a place, and right if the quotient really has two places – which it has for
every number with up to eight of them, since then the nearest other such number is too far
away.

That a text counts stacks is seen from the space in it. The other suggestions are the names
of containers, and numbers with a letter behind them, in which there is no space
(`Scaled.space_notMem_plainText`).
-/

namespace Reckoner

variable {r q : ℚ} {text : String}

/-! ## The count -/

/-- **A number in stacks**, rounded to ten places with ties away from zero. -/
def stackCount (r : ℚ) : ℚ := RoundingMode.halfUp.toInt (r / 64 * 10 ^ 10) / 10 ^ 10

/-- **How far the count is from the number**: half of its last place. -/
theorem abs_sub_stackCount_le (r : ℚ) : |r - stackCount r * 64| ≤ 32 / 10 ^ 10 := by
  have h := RoundingMode.abs_sub_toInt_halfUp_le (r / 64 * 10 ^ 10)
  have hscale : r - stackCount r * 64
      = (r / 64 * 10 ^ 10 - RoundingMode.halfUp.toInt (r / 64 * 10 ^ 10)) * (64 / 10 ^ 10) := by
    rw [stackCount]
    ring
  rw [hscale, abs_mul, abs_of_pos (by norm_num : (0 : ℚ) < 64 / 10 ^ 10)]
  linarith

/-- **A quotient with at most ten places** is the count. -/
theorem stackCount_of_eq {n : ℤ} (h : r / 64 = n / 10 ^ 10) : stackCount r = r / 64 := by
  rw [stackCount, h, div_mul_cancel₀ _ (by norm_num), RoundingMode.toInt_intCast]

/-- **A count with two places is right** exactly if the quotient has no more. -/
theorem stackCount_mul_eq_iff (hclean : ∃ n : ℤ, stackCount r = n / 100) :
    stackCount r * 64 = r ↔ ∃ n : ℤ, r / 64 = n / 100 := by
  constructor
  · intro h
    obtain ⟨n, hn⟩ := hclean
    exact ⟨n, by rw [← hn]; linarith⟩
  · rintro ⟨n, hn⟩
    have hten : r / 64 = (n * 10 ^ 8 : ℤ) / 10 ^ 10 := by
      rw [hn]
      push_cast
      ring
    rw [stackCount_of_eq hten]
    ring

/-- **A count with two places is right** for every number with up to eight: two different ones
among these are further apart than a count can be off. -/
theorem stackCount_mul_eq_of_eight_places (hclean : ∃ n : ℤ, stackCount r = n / 100)
    (hr : ∃ n : ℤ, r = n / 10 ^ 8) : stackCount r * 64 = r := by
  obtain ⟨m, hm⟩ := hclean
  obtain ⟨n, hn⟩ := hr
  have hle := abs_sub_stackCount_le r
  have hgap : r - stackCount r * 64 = (n - m * 64 * 10 ^ 6 : ℤ) / 10 ^ 8 := by
    rw [hm, hn]
    push_cast
    ring
  rw [hgap, abs_div, abs_of_pos (by norm_num : (0 : ℚ) < 10 ^ 8), div_le_iff₀ (by norm_num),
    ← Int.cast_abs] at hle
  have hlt : |n - m * 64 * 10 ^ 6| < 1 := by
    have : (|n - m * 64 * 10 ^ 6| : ℤ) < ((1 : ℤ) : ℚ) := hle.trans_lt (by norm_num)
    exact_mod_cast this
  rw [Int.abs_lt_one_iff.mp hlt, Int.cast_zero, zero_div, sub_eq_zero] at hgap
  exact hgap.symm

/-! ## The phrase -/

/-- **A phrase that counts stacks.** -/
def IsStackPhrase (q : ℚ) (text : String) : Prop :=
  q = 1 ∧ text = "1 stack"
    ∨ ∃ digits, IsPlainText false q digits ∧ text.toList = digits ++ " stacks".toList

/-- What counts several stacks, or a part of one, has this last letter. -/
theorem getLast?_of_stacks {digits : List Char} (h : text.toList = digits ++ " stacks".toList) :
    text.toList.getLast? = some 's' := by
  rw [h, List.getLast?_append_of_ne_nil _ (by decide)]
  decide

/-- A count of stacks has a space in it. -/
theorem IsStackPhrase.space_mem (h : IsStackPhrase q text) : ' ' ∈ text.toList := by
  obtain ⟨-, rfl⟩ | ⟨digits, -, htext⟩ := h
  · decide
  · rw [htext]
    exact List.mem_append_right _ (by decide)

/-- A text is the plain text of one number at most. -/
theorem IsPlainText.number_eq {q' : ℚ} {digits : List Char} (h : IsPlainText false q digits)
    (h' : IsPlainText false q' digits) : q = q' := by
  obtain ⟨x, hx, rfl⟩ := h.exists_ofText?
  obtain ⟨y, hy, rfl⟩ := h'.exists_ofText?
  rw [hx] at hy
  rw [Decimal.finite.inj (Option.some.inj hy)]

namespace Scaled

variable (x : Scaled)

theorem toRat_inStacks : x.inStacks.toRat = stackCount x.toRat := by
  have hquotient : (⟨x.negative, x.coefficient * 15625, x.exponent - 6⟩ : Scaled).toRat
      = x.toRat / 64 := by
    show x.sign * ((x.coefficient * 15625 : ℕ) : ℚ) * (10 : ℚ) ^ (x.exponent - 6) = _
    rw [zpow_sub₀ (by norm_num), toRat]
    push_cast
    ring
  have hpow : (10 : ℚ) ^ (-(shownPlaces : ℤ)) = 1 / 10 ^ 10 := by
    rw [zpow_neg, one_div]
    rfl
  rw [inStacks, toRat_withExponent, hquotient, hpow, div_div_eq_mul_div, div_one, mul_one_div]
  rfl

/-- A number whose exponent is not below `-2` has at most two places. -/
theorem exists_eq_div_hundred {x : Scaled} (h : -2 ≤ x.exponent) : ∃ n : ℤ, x.toRat = n / 100 := by
  refine ⟨x.integerAt (-2), ?_⟩
  rw [x.toRat_eq_integerAt h, zpow_neg, ← div_eq_mul_inv]
  norm_num

/-- There is no space in the plain text of a number. -/
theorem space_notMem_plainText : ' ' ∉ (x.plainText false).toList := by
  obtain ⟨hwhole, hdigits, -, -⟩ := x.plainDigits_spec
  have hnotMem {cs : List Char} (h : IsDigits cs) : ' ' ∉ cs := fun hmem =>
    absurd (h ' ' hmem) (by decide)
  have hfraction := hnotMem (isFraction_trimZeros hdigits).digits
  have htext : x.plainText false
      = x.signText ++ joinPoint (x.plainDigits.1, trimZeros x.plainDigits.2) := rfl
  rw [htext, String.toList_append, toList_joinPoint, List.mem_append, List.mem_append]
  rintro (h | h | h)
  · unfold signText at h
    split at h <;> exact absurd h (by decide)
  · exact hnotMem hwhole.digits h
  · split at h
    · exact absurd h List.not_mem_nil
    · exact hfraction ((List.mem_cons.mp h).resolve_left (by decide))

/-- A stack or more is a count that is not zero. -/
theorem isZero_inStacks (hlow : 64 ≤ |x.toRat|) : x.inStacks.isZero = false := by
  refine Bool.eq_false_of_not_eq_true fun hzero => ?_
  rw [← toRat_eq_zero_iff, toRat_inStacks, stackCount, div_eq_zero_iff,
    or_iff_left (by norm_num)] at hzero
  have hone : ((1 : ℕ) : ℚ) ≤ |x.toRat / 64 * 10 ^ 10| := by
    rw [abs_mul, abs_div, abs_of_pos (by norm_num : (0 : ℚ) < 64)]
    norm_num
    linarith
  have hle := RoundingMode.halfUp.le_abs_toInt hone
  rw [hzero] at hle
  norm_num at hle

/-- **The phrase says the rounded count**, and that has two places. -/
theorem eq_of_stackSuggestion (hlow : 64 ≤ |x.toRat|) (h : x.stackSuggestion = some text)
    (hphrase : IsStackPhrase q text) : q = stackCount x.toRat ∧ ∃ n : ℤ, q = n / 100 := by
  have hvalue : x.inStacks.reduce.toRat = stackCount x.toRat := by
    rw [toRat_reduce, toRat_inStacks]
  unfold stackSuggestion at h
  dsimp only at h
  split_ifs at h with hone hexponent
  · obtain rfl := Option.some.inj h
    rw [hone, toRat_ofNat, Nat.cast_one] at hvalue
    obtain ⟨rfl, -⟩ | ⟨digits, -, htext⟩ := hphrase
    · exact ⟨hvalue, 100, by norm_num⟩
    · exact absurd (getLast?_of_stacks htext) (by decide)
  · obtain rfl := Option.some.inj h
    have hzero : x.inStacks.reduce.isZero = false := by
      refine Bool.eq_false_of_not_eq_true fun hzero => x.inStacks.toRat_ne_zero ?_ ?_
      · exact x.isZero_inStacks hlow
      · rw [← toRat_reduce, toRat_eq_zero_iff, hzero]
    have hsign : x.inStacks.reduce.negative = true ↔ x.inStacks.reduce.toRat < 0 := by
      rw [toRat_lt_zero_iff, and_iff_left hzero]
    have hplain := x.inStacks.reduce.isPlainText_plainText false (by linarith) hsign
    obtain ⟨-, htext⟩ | ⟨digits, hdigits, htext⟩ := hphrase
    · have hstacks := (congrArg String.toList htext).symm.trans String.toList_append
      exact absurd (getLast?_of_stacks hstacks) (by decide)
    · rw [String.toList_append] at htext
      rw [List.append_cancel_right htext] at hplain
      rw [hdigits.number_eq hplain]
      exact ⟨hvalue, exists_eq_div_hundred hexponent⟩

/-- **A count of stacks is suggested below a thousand only.** -/
theorem stackSuggestion_of_isStackPhrase (h : x.unitSuggestion = some text)
    (hphrase : IsStackPhrase q text) :
    (64 ≤ |x.toRat| ∧ |x.toRat| < 1000) ∧ x.stackSuggestion = some text := by
  unfold unitSuggestion at h
  split at h
  · next size name hfind =>
    -- the name of a container has another last letter
    obtain rfl := Option.some.inj h
    have hmem := List.mem_of_find?_eq_some hfind
    simp only [containers, List.mem_cons, Prod.mk.injEq, List.not_mem_nil, or_false] at hmem
    obtain ⟨-, htext⟩ | ⟨digits, -, htext⟩ := hphrase
    · rcases hmem with ⟨-, rfl⟩ | ⟨-, rfl⟩ | ⟨-, rfl⟩ <;> exact absurd htext (by decide)
    · have hlast := getLast?_of_stacks htext
      rcases hmem with ⟨-, rfl⟩ | ⟨-, rfl⟩ | ⟨-, rfl⟩ <;> exact absurd hlast (by decide)
  · split at h
    · next power letter hfind =>
      obtain rfl := Option.some.inj h
      have hmem := List.mem_of_find?_eq_some hfind
      have hspace := hphrase.space_mem
      rw [String.toList_append, List.mem_append] at hspace
      refine absurd (hspace.resolve_left (space_notMem_plainText _)) ?_
      simp only [magnitudes, List.mem_cons, Prod.mk.injEq, List.not_mem_nil, or_false] at hmem
      rcases hmem with ⟨-, rfl⟩ | ⟨-, rfl⟩ | ⟨-, rfl⟩ | ⟨-, rfl⟩ <;> decide
    · next hfind =>
      split_ifs at h with hrange
      have hthousand : ¬ x.magnitudeAtLeast (10 ^ 3) = true :=
        List.find?_eq_none.mp hfind (3, "k") (by decide)
      rw [magnitudeAtLeast_iff, not_le] at hthousand
      have hstack := x.magnitudeAtLeast_iff.mp (Bool.and_eq_true_iff.mp hrange).1
      refine ⟨⟨by simpa [stackSize] using hstack, ?_⟩, h⟩
      norm_num at hthousand
      exact hthousand

/-- **What a count of stacks says.** If the suggestion for a number counts stacks, the number is
at least one stack and below a thousand, and the count is the quotient rounded to ten places,
which has at most two. The count is off by at most half of its last place; it is right exactly
if the quotient has at most two places before it is rounded, and so it is for every number with
at most eight. -/
theorem unitSuggestion_spec (h : x.unitSuggestion = some text) (hphrase : IsStackPhrase q text) :
    (64 ≤ |x.toRat| ∧ |x.toRat| < 1000)
      ∧ q = stackCount x.toRat ∧ (∃ n : ℤ, q = n / 100)
      ∧ |x.toRat - q * 64| ≤ 32 / 10 ^ 10
      ∧ (q * 64 = x.toRat ↔ ∃ n : ℤ, x.toRat / 64 = n / 100)
      ∧ ((∃ n : ℤ, x.toRat = n / 10 ^ 8) → q * 64 = x.toRat) := by
  obtain ⟨hrange, hstack⟩ := x.stackSuggestion_of_isStackPhrase h hphrase
  obtain ⟨rfl, hclean⟩ := x.eq_of_stackSuggestion hrange.1 hstack hphrase
  exact ⟨hrange, rfl, hclean, abs_sub_stackCount_le _, stackCount_mul_eq_iff hclean,
    stackCount_mul_eq_of_eight_places hclean⟩

/-- A count that is off by a fourth of its last place: `80.0000000016` is said to be `1.25`
stacks. -/
theorem unitSuggestion_eighty :
    (⟨false, 800000000016, -10⟩ : Scaled).unitSuggestion = some "1.25 stacks"
      ∧ IsStackPhrase (5 / 4) "1.25 stacks"
      ∧ |(⟨false, 800000000016, -10⟩ : Scaled).toRat - 5 / 4 * 64| ≤ 32 / 10 ^ 10
      ∧ (5 / 4 * 64 = (⟨false, 800000000016, -10⟩ : Scaled).toRat
        ↔ ∃ n : ℤ, (⟨false, 800000000016, -10⟩ : Scaled).toRat / 64 = n / 100) := by
  have h : (⟨false, 800000000016, -10⟩ : Scaled).unitSuggestion = some "1.25 stacks" := by
    decide +kernel
  have hcount : (⟨false, 125, -2⟩ : Scaled).toRat = 5 / 4 := by norm_num [toRat, sign]
  have hsign : (⟨false, 125, -2⟩ : Scaled).negative = true
      ↔ (⟨false, 125, -2⟩ : Scaled).toRat < 0 := by
    norm_num [hcount]
  have hplain := (⟨false, 125, -2⟩ : Scaled).isPlainText_plainText false (by decide) hsign
  rw [hcount] at hplain
  have hphrase : IsStackPhrase (5 / 4) "1.25 stacks" := .inr ⟨_, hplain, by cbv⟩
  obtain ⟨-, -, -, hnear, hright, -⟩ := unitSuggestion_spec _ h hphrase
  exact ⟨h, hphrase, hnear, hright⟩

/-- **A count need not be right.** `64.0000000001` is no container, and is said to be one stack. -/
theorem unitSuggestion_above_stack :
    let x : Scaled := ⟨false, 640000000001, -10⟩
    (|x.toRat| ≠ 1728 ∧ |x.toRat| ≠ 2880 ∧ |x.toRat| ≠ 3456)
      ∧ x.unitSuggestion = some "1 stack" ∧ IsStackPhrase 1 "1 stack" ∧ 1 * 64 ≠ x.toRat := by
  intro x
  have hvalue : x.toRat = 640000000001 / 10 ^ 10 := by norm_num [x, toRat, sign]
  refine ⟨?_, by decide +kernel, .inl ⟨rfl, rfl⟩, ?_⟩
  · rw [hvalue]
    norm_num
  · rw [hvalue]
    norm_num

end Scaled

end Reckoner
