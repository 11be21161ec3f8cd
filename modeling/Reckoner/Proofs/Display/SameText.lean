import Reckoner.Proofs.Display.Stacks
import Reckoner.Proofs.Expr.SameValue

/-!
# What is shown of a number depends on its value

A result can be written with different exponents, and a zero with either sign. None of this
reaches the person who reads it. The grouped text is settled by `Decimal.grouped?_spec`; here
it is the unit suggestion, which asks about sizes first and then rounds to a fixed number of
places. The questions are about values (`Scaled.hasMagnitude_iff`,
`Scaled.magnitudeAtLeast_iff`). Rounding to places leaves no choice of an exponent, so that
two numbers of one value become one and the same (`Scaled.SameValue.withExponent_eq`) – unless
they are zeros, which are below every unit.

The sign is a matter of its own. In the units of a thousand and more a number and its opposite
have the same digits, and the sign is one character in front of them
(`Scaled.exists_plainText_eq`).
-/

namespace Reckoner

namespace Scaled

variable {a b : Scaled}

/-! ## Rounding to places -/

@[simp] theorem exponent_withExponent (x : Scaled) (mode : RoundingMode) (e : ℤ) :
    (x.withExponent mode e).exponent = e := by
  unfold withExponent
  split <;> rfl

@[simp] theorem negative_withExponent (x : Scaled) (mode : RoundingMode) (e : ℤ) :
    (x.withExponent mode e).negative = x.negative := by
  unfold withExponent
  split <;> rfl

/-- A number is known from its value, its exponent and its sign. -/
theorem SameValue.eq_of_exponent_eq (h : a.SameValue b) (he : a.exponent = b.exponent)
    (hs : a.negative = b.negative) : a = b := by
  have habs : |a.toRat| = |b.toRat| := congrArg _ h
  rw [abs_toRat, abs_toRat, he, mul_left_inj' (by positivity), Nat.cast_inj] at habs
  obtain ⟨negative, coefficient, exponent⟩ := a
  obtain ⟨negative', coefficient', exponent'⟩ := b
  obtain rfl : exponent = exponent' := he
  obtain rfl : negative = negative' := hs
  obtain rfl : coefficient = coefficient' := habs
  rfl

/-- **Numbers of one value are rounded to one number** at a given place. -/
theorem SameValue.withExponent_eq (h : a.SameValue b) (ha : a.isZero = false)
    (mode : RoundingMode) (e : ℤ) : a.withExponent mode e = b.withExponent mode e := by
  refine SameValue.eq_of_exponent_eq ?_ ?_ ?_
  · rw [SameValue, toRat_withExponent, toRat_withExponent, h]
  · rw [exponent_withExponent, exponent_withExponent]
  · rw [negative_withExponent, negative_withExponent, h.negative_eq ha]

theorem SameValue.inUnit_eq (h : a.SameValue b) (ha : a.isZero = false) (power : ℕ) :
    a.inUnit power = b.inUnit power := by
  have hshift (x : Scaled) : ({ x with exponent := x.exponent - power } : Scaled).toRat
      = x.toRat / 10 ^ power := by
    show x.sign * x.coefficient * (10 : ℚ) ^ (x.exponent - power) = _
    rw [zpow_sub₀ (by norm_num), zpow_natCast, toRat, mul_div_assoc]
  unfold inUnit
  refine SameValue.withExponent_eq ?_ ?_ .halfUp (-2)
  · rw [SameValue, hshift, hshift, h]
  · exact ha

theorem SameValue.inStacks_eq (h : a.SameValue b) (ha : a.isZero = false) :
    a.inStacks = b.inStacks := by
  refine SameValue.eq_of_exponent_eq ?_ ?_ ?_
  · rw [SameValue, toRat_inStacks, toRat_inStacks, h]
  · rw [inStacks, inStacks, exponent_withExponent, exponent_withExponent]
  · rw [inStacks, inStacks, negative_withExponent, negative_withExponent]
    exact h.negative_eq ha

/-! ## The suggestion -/

theorem SameValue.hasMagnitude_eq (h : a.SameValue b) (n : ℕ) :
    a.hasMagnitude n = b.hasMagnitude n := by
  rw [Bool.eq_iff_iff, hasMagnitude_iff, hasMagnitude_iff, h]

theorem SameValue.magnitudeAtLeast_eq (h : a.SameValue b) (n : ℕ) :
    a.magnitudeAtLeast n = b.magnitudeAtLeast n := by
  rw [Bool.eq_iff_iff, magnitudeAtLeast_iff, magnitudeAtLeast_iff, h]

/-- What reaches a size is not zero. -/
theorem isZero_of_magnitudeAtLeast {n : ℕ} (hn : 0 < n) (h : a.magnitudeAtLeast n = true) :
    a.isZero = false := by
  refine Bool.eq_false_of_not_eq_true fun hzero => ?_
  rw [magnitudeAtLeast_iff, a.toRat_eq_zero_iff.mpr hzero, abs_zero] at h
  exact absurd h (not_le.mpr (by exact_mod_cast hn))

/-- **The unit suggestion depends on the value.** -/
theorem SameValue.unitSuggestion_eq (h : a.SameValue b) : a.unitSuggestion = b.unitSuggestion := by
  unfold unitSuggestion
  simp only [h.hasMagnitude_eq, h.magnitudeAtLeast_eq]
  split
  · rfl
  · split
    · next power letter hfind =>
      have hfound := List.find?_some hfind
      have hlarge : a.magnitudeAtLeast (10 ^ power) = true :=
        (h.magnitudeAtLeast_eq _).trans hfound
      rw [h.inUnit_eq (isZero_of_magnitudeAtLeast (Nat.pow_pos (by norm_num)) hlarge)]
    · split
      · next hrange =>
        have hlarge := (Bool.and_eq_true_iff.mp hrange).1
        rw [← h.magnitudeAtLeast_eq] at hlarge
        unfold stackSuggestion
        rw [h.inStacks_eq (isZero_of_magnitudeAtLeast (by decide) hlarge)]
      · rfl

/-- **What is shown depends on the value.** -/
theorem SameValue.display_eq (h : a.SameValue b) (suggest grouping : Bool) :
    a.display suggest grouping = b.display suggest grouping := by
  have hplain := b.isPlainText_grouped grouping
  rw [← h] at hplain
  have hgrouped : a.grouped grouping = b.grouped grouping :=
    String.toList_inj.mp ((a.isPlainText_grouped grouping).eq hplain)
  unfold display
  rw [hgrouped, h.unitSuggestion_eq]

/-! ## The sign -/

/-- Rounding with ties away from zero does not look at the sign. -/
theorem withExponent_negate (x : Scaled) (e : ℤ) :
    x.negate.withExponent .halfUp e = (x.withExponent .halfUp e).negate := by
  refine SameValue.eq_of_exponent_eq ?_ ?_ ?_
  · rw [SameValue, toRat_withExponent, toRat_negate, toRat_negate, toRat_withExponent, neg_div,
      RoundingMode.toInt_neg, Int.cast_neg, neg_mul]
    rfl
  · exact (exponent_withExponent _ _ _).trans (exponent_withExponent x _ _).symm
  · exact (negative_withExponent _ _ _).trans (congrArg not (negative_withExponent x _ _).symm)

theorem inUnit_negate (x : Scaled) (power : ℕ) :
    x.negate.inUnit power = (x.inUnit power).negate :=
  withExponent_negate { x with exponent := x.exponent - power } (-2)

theorem hasMagnitude_negate (x : Scaled) (n : ℕ) : x.negate.hasMagnitude n = x.hasMagnitude n := by
  rw [Bool.eq_iff_iff, hasMagnitude_iff, hasMagnitude_iff, toRat_negate, abs_neg]

theorem magnitudeAtLeast_negate (x : Scaled) (n : ℕ) :
    x.negate.magnitudeAtLeast n = x.magnitudeAtLeast n := by
  rw [Bool.eq_iff_iff, magnitudeAtLeast_iff, magnitudeAtLeast_iff, toRat_negate, abs_neg]

end Scaled

/-- **A text with the other sign**: a minus sign in front of it is removed, and where there is
none it gets one. -/
def otherSign (text : String) : String :=
  match text.toList with
  | '-' :: rest => String.ofList rest
  | _ => "-" ++ text

namespace Scaled

/-- **The plain text of a number** is its sign and then a text that begins with a digit, the
same for the number and its opposite. -/
theorem exists_plainText_eq (x : Scaled) : ∃ (digit : Char) (rest : List Char),
    digit.isDigit = true ∧ x.plainText false = x.signText ++ String.ofList (digit :: rest)
      ∧ x.negate.plainText false = x.negate.signText ++ String.ofList (digit :: rest) := by
  obtain ⟨hwhole, -, -, -⟩ := x.plainDigits_spec
  obtain ⟨digit, whole, hdigits⟩ := List.exists_cons_of_ne_nil hwhole.ne_nil
  obtain ⟨rest, hrest⟩ : ∃ rest, (joinPoint (x.plainDigits.1, trimZeros x.plainDigits.2)).toList
      = digit :: rest :=
    ⟨_, (toList_joinPoint _ _).trans (congrArg (· ++ _) hdigits)⟩
  have hbody := String.toList_inj.mp (hrest.trans String.toList_ofList.symm)
  exact ⟨digit, rest, hwhole.digits digit (hdigits ▸ List.mem_cons_self),
    congrArg (x.signText ++ ·) hbody, congrArg (x.negate.signText ++ ·) hbody⟩

/-- **The opposite number has the text with the other sign.** -/
theorem otherSign_plainText (x : Scaled) (letter : String) :
    otherSign (x.plainText false ++ letter) = x.negate.plainText false ++ letter := by
  obtain ⟨digit, rest, hdigit, hx, hnegate⟩ := x.exists_plainText_eq
  have hminus : digit ≠ '-' := by
    rintro rfl
    exact absurd hdigit (by decide)
  rw [hx, hnegate, ← String.toList_inj]
  cases hsign : x.negative with
  | true => simp [otherSign, signText, negate, hsign]
  | false => simp [otherSign, signText, negate, hsign, hminus]

/-- **From a thousand up a number that fills no container is shown in the largest unit**, and
its opposite in the same unit, with the other sign. -/
theorem exists_unitSuggestion_eq {x : Scaled} (hlarge : 1000 ≤ |x.toRat|)
    (hsizes : |x.toRat| ∉ ({1728, 2880, 3456} : Set ℚ)) :
    ∃ text, x.unitSuggestion = some text ∧ x.negate.unitSuggestion = some (otherSign text) := by
  have hnone : containers.find? (fun c => x.hasMagnitude c.1) = none := by
    refine List.find?_eq_none.mpr fun c hc hmagnitude => hsizes ?_
    rw [hasMagnitude_iff] at hmagnitude
    simp only [containers, List.mem_cons, List.not_mem_nil, or_false] at hc
    rcases hc with rfl | rfl | rfl <;> simp [hmagnitude]
  have hsome : (magnitudes.find? fun m => x.magnitudeAtLeast (10 ^ m.1)).isSome := by
    refine List.find?_isSome.mpr ⟨(3, "k"), by decide, ?_⟩
    rw [magnitudeAtLeast_iff]
    norm_num [hlarge]
  obtain ⟨⟨power, letter⟩, hfind⟩ := Option.isSome_iff_exists.mp hsome
  refine ⟨(x.inUnit power).plainText false ++ letter, ?_, ?_⟩
  · unfold unitSuggestion
    simp only [hnone, hfind]
  · unfold unitSuggestion
    simp only [hasMagnitude_negate, magnitudeAtLeast_negate, hnone, hfind, inUnit_negate,
      otherSign_plainText]

end Scaled

/-! ## Results -/

/-- **What is shown of a number depends on its value**, whatever is wanted of the text: numbers
of one value have one text, suggestion included. And the sign is one character of it. From a
thousand up, where no container is filled, the suggestion for the opposite number is the same
text with the other sign. -/
theorem Decimal.display?_spec :
    (∀ v w : Decimal, v.SameValue w → ∀ suggest grouping : Bool, ∃ text,
      v.display? suggest grouping = some text ∧ w.display? suggest grouping = some text)
    ∧ ∀ x y : Scaled, y.toRat = -x.toRat → 1000 ≤ |x.toRat| →
      |x.toRat| ∉ ({1728, 2880, 3456} : Set ℚ) →
      ∃ text, x.unitSuggestion = some text ∧ y.unitSuggestion = some (otherSign text) := by
  refine ⟨?_, fun x y hopposite hlarge hsizes => ?_⟩
  · rintro _ _ ⟨h⟩ suggest grouping
    exact ⟨_, rfl, congrArg some (h.display_eq suggest grouping).symm⟩
  · obtain ⟨text, hx, hnegate⟩ := Scaled.exists_unitSuggestion_eq hlarge hsizes
    have hvalue : y.SameValue x.negate := by
      rw [Scaled.SameValue, hopposite, Scaled.toRat_negate]
    exact ⟨text, hx, hvalue.unitSuggestion_eq.trans hnegate⟩

/-- Fifty millions in two writings, and two numbers that differ in their sign. -/
theorem Decimal.display?_fifty_million :
    (Decimal.finite ⟨false, 5000000000, -2⟩).display? true true = some "50,000,000 (50m)"
      ∧ (⟨true, 19950, -1⟩ : Scaled).unitSuggestion = some "-2k" := by
  have hvalue : (⟨false, 5, 7⟩ : Scaled).SameValue ⟨false, 5000000000, -2⟩ := by
    norm_num [Scaled.SameValue, Scaled.toRat, Scaled.sign]
  have hx : (⟨false, 1995, 0⟩ : Scaled).toRat = 1995 := by norm_num [Scaled.toRat, Scaled.sign]
  have hy : (⟨true, 19950, -1⟩ : Scaled).toRat = -1995 := by norm_num [Scaled.toRat, Scaled.sign]
  constructor
  · obtain ⟨text, hv, hw⟩ := display?_spec.1 _ _ (.finite hvalue) true true
    rw [hw, ← hv]
    decide +kernel
  · obtain ⟨text, hv, hw⟩ := display?_spec.2 ⟨false, 1995, 0⟩ ⟨true, 19950, -1⟩ (by rw [hx, hy])
      (by norm_num [hx]) (by norm_num [hx])
    have htext : (⟨false, 1995, 0⟩ : Scaled).unitSuggestion = some "2k" := by decide +kernel
    obtain rfl := Option.some.inj (hv.symm.trans htext)
    rw [hw]
    decide

end Reckoner
