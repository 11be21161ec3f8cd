import Mathlib.Data.List.DropRight
import Reckoner.Proofs.Decimal.Rounding
import Reckoner.Proofs.Display.PlainText

/-!
# The text of a result

A result is rounded half-even to ten places and written as the plain text of the
rounded number (`Scaled.isPlainText_grouped`). Since a number has only one plain
text, this says everything about it: which coefficient and exponent the result
had does not matter, and reading the text back gives a number with the same text.

The digits come out of `Scaled.plainDigits`, which places a point into the
coefficient; `Scaled.plainDigits_spec` gives their value, and trimming the zeros
at the end (`trimZeros`) does not change it.
-/

namespace Reckoner

/-! ## Trimming zeros -/

/-- What is trimmed are zeros. -/
theorem exists_trimZeros_append (cs : List Char) :
    ∃ k, cs = trimZeros cs ++ List.replicate k '0' := by
  refine ⟨(cs.rtakeWhile (· == '0')).length, ?_⟩
  rw [← List.eq_replicate_of_mem fun c hc => by simpa using List.mem_rtakeWhile_imp hc]
  exact List.rdropWhile_append_rtakeWhile.symm

theorem isFraction_trimZeros {cs : List Char} (h : IsDigits cs) : IsFraction (trimZeros cs) where
  digits := by
    obtain ⟨k, hk⟩ := exists_trimZeros_append cs
    rw [hk] at h
    exact (isDigits_append.mp h).1
  getLast?_ne hlast := by
    have hne : trimZeros cs ≠ [] := by
      rintro hnil
      rw [hnil] at hlast
      cases hlast
    rw [List.getLast?_eq_some_getLast hne, Option.some.injEq] at hlast
    exact List.rdropWhile_last_not (· == '0') cs hne (beq_iff_eq.mpr hlast)

/-- **Zeros at the end of its places do not change a number.** -/
theorem digitsValue_trimZeros (cs : List Char) :
    (digitsValue (trimZeros cs) : ℚ) / 10 ^ (trimZeros cs).length
      = digitsValue cs / 10 ^ cs.length := by
  obtain ⟨k, hk⟩ := exists_trimZeros_append cs
  conv_rhs => rw [hk]
  rw [digitsValue_append, digitsValue_replicate_zero, List.length_append, List.length_replicate,
    add_zero, Nat.cast_mul, Nat.cast_pow, Nat.cast_ofNat, pow_add,
    mul_div_mul_right _ _ (by positivity)]

theorem length_trimZeros_le (cs : List Char) : (trimZeros cs).length ≤ cs.length := by
  obtain ⟨k, hk⟩ := exists_trimZeros_append cs
  conv_rhs => rw [hk]
  rw [List.length_append]
  exact Nat.le_add_right _ _

namespace Scaled

/-! ## Placing the point -/

/-- Digits with zeros behind them: only a zero must not get any. -/
theorem isWhole_digitChars_append {n : ℕ} (hn : n ≠ 0) (k : ℕ) :
    IsWhole (digitChars n ++ List.replicate k '0') where
  digits := isDigits_append.mpr ⟨isDigits_digitChars n, isDigits_replicate_zero k⟩
  ne_nil := List.append_ne_nil_of_left_ne_nil (isWhole_digitChars n).ne_nil _
  eq_zero_of_head h := by
    rw [List.head?_append_of_ne_nil _ (isWhole_digitChars n).ne_nil] at h
    have hzero := (isWhole_digitChars n).eq_zero_of_head h
    exact absurd ((digitsValue_digitChars n).symm.trans (congrArg digitsValue hzero)) hn

/-- The digits of `n` with enough zeros in front that a point can be placed
before the last `places` of them. -/
def paddedDigits (n places : ℕ) : List Char :=
  List.replicate (places + 1 - (digitChars n).length) '0' ++ digitChars n

theorem lt_length_paddedDigits (n places : ℕ) : places < (paddedDigits n places).length := by
  rw [paddedDigits, List.length_append, List.length_replicate]
  omega

theorem isDigits_paddedDigits (n places : ℕ) : IsDigits (paddedDigits n places) :=
  isDigits_append.mpr ⟨isDigits_replicate_zero _, isDigits_digitChars n⟩

theorem digitsValue_paddedDigits (n places : ℕ) : digitsValue (paddedDigits n places) = n := by
  rw [paddedDigits, digitsValue_append, digitsValue_replicate_zero, zero_mul, zero_add,
    digitsValue_digitChars]

/-- What stands before the point is a lone zero, or begins like the coefficient. -/
theorem isWhole_take_paddedDigits (n places : ℕ) :
    IsWhole ((paddedDigits n places).take ((paddedDigits n places).length - places)) := by
  have hlt := lt_length_paddedDigits n places
  by_cases hshort : (digitChars n).length ≤ places
  · have hone : (paddedDigits n places).length - places = 1 := by
      rw [paddedDigits, List.length_append, List.length_replicate]
      omega
    have hzero : (paddedDigits n places).take 1 = ['0'] := by
      rw [paddedDigits, Nat.sub_add_comm hshort, List.replicate_succ]
      rfl
    rw [hone, hzero]
    exact isWhole_digitChars 0
  · have hpadded : paddedDigits n places = digitChars n := by
      rw [paddedDigits, Nat.sub_eq_zero_of_le (by omega), List.replicate_zero, List.nil_append]
    rw [hpadded] at hlt ⊢
    exact (isWhole_digitChars n).take (Nat.sub_pos_of_lt hlt)

/-- **The digits before and after the point** have the absolute value of the
number, and there are as many places as the exponent says. -/
theorem plainDigits_spec (x : Scaled) :
    IsWhole x.plainDigits.1 ∧ IsDigits x.plainDigits.2
      ∧ x.plainDigits.2.length = (-x.exponent).toNat
      ∧ |x.toRat| = digitsValue x.plainDigits.1
        + digitsValue x.plainDigits.2 / 10 ^ x.plainDigits.2.length := by
  by_cases he : 0 ≤ x.exponent
  · -- no places; the zeros behind the digits are part of the whole number
    have hplaces : (-x.exponent).toNat = 0 := by omega
    by_cases hzero : x.coefficient = 0
    · have hplain : x.plainDigits = (digitChars 0, []) := by
        rw [plainDigits, if_pos he, isZero, hzero]
        rfl
      rw [hplain, x.abs_toRat, hzero]
      refine ⟨isWhole_digitChars 0, List.forall_mem_nil _, hplaces.symm, ?_⟩
      rw [digitsValue_digitChars]
      simp [digitsValue]
    · have hplain : x.plainDigits
          = (digitChars x.coefficient ++ List.replicate x.exponent.toNat '0', []) := by
        rw [plainDigits, if_pos he, if_neg (by simpa [isZero] using hzero)]
      rw [hplain, x.abs_toRat]
      refine ⟨isWhole_digitChars_append hzero _, List.forall_mem_nil _, hplaces.symm, ?_⟩
      have hpow : (10 : ℚ) ^ x.exponent = 10 ^ x.exponent.toNat := by
        rw [← zpow_natCast, Int.toNat_of_nonneg he]
      rw [digitsValue_append, digitsValue_digitChars, digitsValue_replicate_zero,
        List.length_replicate, hpow]
      simp [digitsValue]
  · set places := (-x.exponent).toNat with hplaces
    set padded := paddedDigits x.coefficient places with hpadded
    have hlt : places < padded.length := lt_length_paddedDigits x.coefficient places
    have hplain : x.plainDigits
        = (padded.take (padded.length - places), padded.drop (padded.length - places)) := by
      rw [plainDigits, if_neg he]
      exact List.splitAt_eq
    have hlength : (padded.drop (padded.length - places)).length = places := by
      rw [List.length_drop]
      omega
    rw [hplain, x.abs_toRat]
    refine ⟨isWhole_take_paddedDigits _ _, ?_, hlength, ?_⟩
    · exact fun c hc => isDigits_paddedDigits _ _ c (List.mem_of_mem_drop hc)
    · have hvalue := digitsValue_append (padded.take (padded.length - places))
        (padded.drop (padded.length - places))
      rw [List.take_append_drop, hlength, hpadded, digitsValue_paddedDigits, ← hpadded] at hvalue
      have hpow : (10 : ℚ) ^ x.exponent = 1 / 10 ^ places := by
        rw [one_div, ← zpow_natCast, ← zpow_neg, hplaces]
        congr 1
        omega
      rw [hvalue, hlength, hpow]
      push_cast
      field_simp

/-! ## Rounding to ten places -/

/-- **A number rounded half-even to ten places.** -/
def atTenPlaces (q : ℚ) : ℚ := RoundingMode.halfEven.toInt (q * 10 ^ 10) / 10 ^ 10

/-- A number with at most ten places is not changed. -/
theorem atTenPlaces_of_eq {q : ℚ} {n : ℤ} (h : q = n / 10 ^ 10) : atTenPlaces q = q := by
  rw [atTenPlaces, h, div_mul_cancel₀ _ (by positivity), RoundingMode.toInt_intCast]

theorem atTenPlaces_atTenPlaces (q : ℚ) : atTenPlaces (atTenPlaces q) = atTenPlaces q :=
  atTenPlaces_of_eq rfl

variable (x : Scaled)

/-- The number that is shown, before a zero loses its sign. -/
theorem exists_shown : ∃ y : Scaled, y.toRat = atTenPlaces x.toRat ∧ -10 ≤ y.exponent
    ∧ x.shown = if y.isZero then y.abs else y := by
  refine ⟨if x.exponent < -shownPlaces then x.withExponent .halfEven (-shownPlaces) else x,
    ?_, ?_, rfl⟩
  · split
    · have hpow : (10 : ℚ) ^ (-(shownPlaces : ℤ)) = 1 / 10 ^ 10 := by
        rw [zpow_neg, one_div]
        rfl
      rw [toRat_withExponent, hpow, div_div_eq_mul_div, div_one, mul_one_div, atTenPlaces]
    · next h =>
      have hvalue := x.toRat_eq_integerAt (not_lt.mp h)
      rw [zpow_neg, ← div_eq_mul_inv] at hvalue
      exact (atTenPlaces_of_eq hvalue).symm
  · split
    · unfold withExponent
      split <;> exact le_rfl
    · next h => exact not_lt.mp h

/-- **The number that is shown** is the result rounded to ten places, with a sign
only if it lies below zero. -/
theorem shown_spec : x.shown.toRat = atTenPlaces x.toRat ∧ -10 ≤ x.shown.exponent
    ∧ (x.shown.negative = true ↔ x.shown.toRat < 0) := by
  obtain ⟨y, hy, he, hshown⟩ := x.exists_shown
  rw [hshown]
  split
  · next hzero =>
    have habs : y.abs.toRat = y.toRat := by
      rw [toRat_abs, y.toRat_eq_zero_iff.mpr hzero, abs_zero]
    rw [habs, toRat_lt_zero_iff, hzero]
    exact ⟨hy, he, iff_of_false Bool.false_ne_true (fun h => Bool.noConfusion h.2)⟩
  · next hzero =>
    rw [toRat_lt_zero_iff]
    exact ⟨hy, he, iff_self_and.mpr fun _ => Bool.eq_false_of_not_eq_true hzero⟩

/-! ## The text -/

theorem toList_joinPoint (whole fraction : List Char) :
    (joinPoint (whole, fraction)).toList
      = whole ++ (if fraction = [] then [] else '.' :: fraction) := by
  cases fraction with
  | nil => simp [joinPoint]
  | cons c cs => simp [joinPoint]

/-- **A number with at most ten places is written as its plain text**, if it
carries a minus sign only below zero. -/
theorem isPlainText_plainText (grouping : Bool) (he : -10 ≤ x.exponent)
    (hsign : x.negative = true ↔ x.toRat < 0) :
    IsPlainText grouping x.toRat (x.plainText grouping).toList := by
  obtain ⟨hwhole, hdigits, hlength, habs⟩ := x.plainDigits_spec
  have hfraction := isFraction_trimZeros hdigits
  rw [← digitsValue_trimZeros] at habs
  have hplaces : (trimZeros x.plainDigits.2).length ≤ 10 := by
    have := length_trimZeros_le x.plainDigits.2
    omega
  have hnil := fraction_eq_nil_iff hfraction habs
  refine ⟨⟨_, _, hwhole, hfraction, hplaces, hnil, habs⟩,
    if grouping then groupThousands x.plainDigits.1 else x.plainDigits.1, ?_, ?_⟩
  · cases grouping with
    | false => rfl
    | true => exact isGrouping_groupThousands hwhole.ne_nil
  · have hminus : x.signText.toList = if x.toRat < 0 then ['-'] else [] := by
      simp only [signText, ← hsign]
      split <;> rfl
    have htext : x.plainText grouping = x.signText ++ joinPoint
        (if grouping then groupThousands x.plainDigits.1 else x.plainDigits.1,
          trimZeros x.plainDigits.2) := rfl
    rw [htext, String.toList_append, hminus, toList_joinPoint, List.append_assoc]
    simp only [hnil]

/-- **A result is shown as the plain text** of the number rounded to ten places. -/
theorem isPlainText_grouped (grouping : Bool) :
    IsPlainText grouping (atTenPlaces x.toRat) (x.grouped grouping).toList := by
  obtain ⟨hvalue, he, hsign⟩ := x.shown_spec
  rw [← hvalue]
  exact x.shown.isPlainText_plainText grouping he hsign

end Scaled

/-! ## Reading a text back -/

/-- A row of digits and points. -/
def IsPointed (cs : List Char) : Prop := ∀ c ∈ cs, c.isDigit = true ∨ c = '.'

theorem isPointed_join {whole fraction : List Char} (hwhole : IsDigits whole)
    (hfraction : IsDigits fraction) :
    IsPointed (whole ++ (if fraction = [] then [] else '.' :: fraction)) := by
  intro c hc
  rcases List.mem_append.mp hc with hc | hc
  · exact .inl (hwhole c hc)
  · split at hc
    · cases hc
    · rcases List.mem_cons.mp hc with rfl | hc
      · exact .inr rfl
      · exact .inl (hfraction c hc)

/-- **Digits with a point among them** are read as one number. -/
theorem readPointed?_eq {whole fraction : List Char} (hwhole : IsWhole whole)
    (hfraction : IsDigits fraction) :
    Decimal.readPointed? (whole ++ (if fraction = [] then [] else '.' :: fraction))
      = some (digitsValue (whole ++ fraction), fraction.length) := by
  have hpoint : ∀ c ∈ whole, (c != '.') = true := by
    intro c hc
    rw [bne_iff_ne]
    rintro rfl
    exact absurd (hwhole.digits '.' hc) (by decide)
  have htake : (whole ++ (if fraction = [] then [] else '.' :: fraction)).takeWhile (· != '.')
      = whole := by
    rw [List.takeWhile_append_of_pos hpoint]
    split <;> simp
  have hdrop : ((whole ++ (if fraction = [] then [] else '.' :: fraction)).dropWhile
      (· != '.')).drop 1 = fraction := by
    rw [List.dropWhile_append_of_pos hpoint]
    split
    · next h => rw [h]; rfl
    · rfl
  have hdigits : Decimal.readDigits? (whole ++ fraction) = some (digitsValue (whole ++ fraction)) :=
    if_pos (List.all_eq_true.mpr (isDigits_append.mpr ⟨hwhole.digits, hfraction⟩))
  have hne : whole.isEmpty = false := List.isEmpty_eq_false_iff.mpr hwhole.ne_nil
  unfold Decimal.readPointed?
  simp only [htake, hdrop, hdigits, hne]
  rfl

/-- Letter case does not matter among digits and points. -/
theorem toLower_of_isPointed {c : Char} (h : c.isDigit = true ∨ c = '.') : c.toLower = c := by
  rcases h with h | rfl
  · have hle : c.toNat ≤ 57 := (Char.isDigit_iff_toNat.mp h).2
    unfold Char.toLower
    rw [dif_neg fun hupper => ?_]
    have hge : 65 ≤ c.toNat := UInt32.le_iff_toNat_le.mp hupper.1
    omega
  · rfl

/-- A row of digits and points is none of the special values, and has no
exponent. -/
theorem readUnsigned?_of_isPointed {cs : List Char} (h : IsPointed cs) (negative : Bool) :
    Decimal.readUnsigned? negative cs
      = (Decimal.readPointed? cs).map fun (n, places) => .finite ⟨negative, n, -places⟩ := by
  have hmark (mark : Char) (hdigit : mark.isDigit = false) (hpoint : mark ≠ '.') :
      ∀ c ∈ cs, c ≠ mark := by
    rintro c hc rfl
    rcases h c hc with hc | hc
    · exact Bool.false_ne_true (hdigit.symm.trans hc)
    · exact hpoint hc
  have hlower : (String.ofList (cs.map Char.toLower)).toList = cs := by
    rw [String.toList_ofList, List.map_congr_left fun c hc => toLower_of_isPointed (h c hc)]
    exact List.map_id cs
  have hspecial (special : String) (first : Char) (hfirst : special.toList.head? = some first)
      (hdigit : first.isDigit = false) (hpoint : first ≠ '.') :
      ¬ special.toList <+: (String.ofList (cs.map Char.toLower)).toList := by
    rw [hlower]
    rintro ⟨rest, hrest⟩
    have hmem : first ∈ cs := by
      rw [← hrest]
      exact List.mem_append_left _ (List.mem_of_mem_head? hfirst)
    exact hmark first hdigit hpoint first hmem rfl
  -- every word for a special value, and an exponent, begins with a letter
  have hexponent : ∀ c ∈ cs, (!(c == 'e' || c == 'E')) = true := by
    intro c hc
    simp [hmark 'e' rfl (by decide) c hc, hmark 'E' rfl (by decide) c hc]
  have hinfinity : String.ofList (cs.map Char.toLower) ≠ "infinity" := fun heq =>
    hspecial "infinity" 'i' rfl rfl (by decide) (heq ▸ List.prefix_rfl)
  have hinf : String.ofList (cs.map Char.toLower) ≠ "inf" := fun heq =>
    hspecial "inf" 'i' rfl rfl (by decide) (heq ▸ List.prefix_rfl)
  have hnan : (String.ofList (cs.map Char.toLower)).startsWith "nan" = false :=
    String.startsWith_string_eq_false_iff.mpr (hspecial "nan" 'n' rfl rfl (by decide))
  have hsnan : (String.ofList (cs.map Char.toLower)).startsWith "snan" = false :=
    String.startsWith_string_eq_false_iff.mpr (hspecial "snan" 's' rfl rfl (by decide))
  unfold Decimal.readUnsigned?
  simp only [hinfinity, hinf, hnan, hsnan, decide_false, Bool.or_self, Bool.false_eq_true,
    if_false, List.takeWhile_eq_self_iff.mpr hexponent, List.dropWhile_eq_nil_iff.mpr hexponent]

/-- A text that begins with a digit has no sign to be read. -/
theorem ofText?_of_isDigit {c : Char} (hc : c.isDigit = true) (cs : List Char) :
    Decimal.ofText? (String.ofList (c :: cs)) = Decimal.readUnsigned? false (c :: cs) := by
  unfold Decimal.ofText?
  rw [String.toList_ofList]
  split
  · next heq =>
    obtain ⟨rfl, -⟩ := List.cons.inj heq
    cases hc
  · next heq =>
    obtain ⟨rfl, -⟩ := List.cons.inj heq
    cases hc
  · rfl

/-- **A plain text is read back** as the number it is the text of. -/
theorem IsPlainText.exists_ofText? {r : ℚ} {text : List Char} (h : IsPlainText false r text) :
    ∃ y : Scaled, Decimal.ofText? (String.ofList text) = some (.finite y) ∧ y.toRat = r := by
  obtain ⟨d, whole, hwhole, rfl⟩ := h
  obtain rfl : whole = d.whole := hwhole
  simp only [← d.fraction_eq_nil]
  have hread (negative : Bool) : Decimal.readUnsigned? negative
      (d.whole ++ (if d.fraction = [] then [] else '.' :: d.fraction)) = some (.finite
        ⟨negative, digitsValue (d.whole ++ d.fraction), -d.fraction.length⟩) := by
    rw [readUnsigned?_of_isPointed (isPointed_join d.isWhole.digits d.isFraction.digits),
      readPointed?_eq d.isWhole d.isFraction.digits]
    rfl
  have habs (negative : Bool) : |(⟨negative, digitsValue (d.whole ++ d.fraction),
      -d.fraction.length⟩ : Scaled).toRat| = |r| := by
    rw [Scaled.abs_toRat, d.abs_eq, digitsValue_append, zpow_neg, zpow_natCast]
    push_cast
    field_simp
  by_cases hr : r < 0
  · refine ⟨⟨true, digitsValue (d.whole ++ d.fraction), -d.fraction.length⟩, ?_, ?_⟩
    · rw [if_pos hr, List.append_assoc, List.singleton_append, Decimal.ofText?,
        String.toList_ofList]
      exact hread true
    · rw [Scaled.toRat_eq_sign_mul_abs, habs, abs_of_neg hr]
      exact neg_one_mul _ |>.trans (neg_neg r)
  · refine ⟨⟨false, digitsValue (d.whole ++ d.fraction), -d.fraction.length⟩, ?_, ?_⟩
    · obtain ⟨c, cs, hwhole⟩ := List.exists_cons_of_ne_nil d.isWhole.ne_nil
      have hc : c.isDigit = true := d.isWhole.digits c (hwhole ▸ List.mem_cons_self)
      rw [if_neg hr, List.nil_append, ← hread false, hwhole, List.cons_append,
        ofText?_of_isDigit hc]
    · rw [Scaled.toRat_eq_sign_mul_abs, habs, abs_of_nonneg (not_lt.mp hr)]
      exact one_mul r

/-! ## Results -/

/-- **A result is shown as the one plain text of the number rounded to ten places**
– the number itself, where that is enough – and the text is good for what a
person does with it: without its commas it is read back as exactly the number
shown, numbers that are equal have the same text, and what was read back is shown
as the same text again. -/
theorem Decimal.grouped?_spec (x : Scaled) (grouping : Bool) :
    ∃ text, (Decimal.finite x).grouped? grouping = some text
      ∧ (∀ other : List Char, IsPlainText grouping (Scaled.atTenPlaces x.toRat) other
        ↔ other = text.toList)
      ∧ ((∃ n : ℤ, x.toRat = n / 10 ^ 10) → Scaled.atTenPlaces x.toRat = x.toRat)
      ∧ (∃ y : Scaled, Decimal.ofText? (String.ofList (text.toList.filter (· ≠ ',')))
          = some (.finite y)
        ∧ y.toRat = Scaled.atTenPlaces x.toRat
        ∧ (Decimal.finite y).grouped? grouping = some text)
      ∧ ∀ y : Scaled, y.toRat = x.toRat → (Decimal.finite y).grouped? grouping = some text := by
  have hplain := x.isPlainText_grouped grouping
  -- two plain texts of one number are the same, however the number is written
  have hsame (y : Scaled)
      (hy : Scaled.atTenPlaces y.toRat = Scaled.atTenPlaces x.toRat) :
      (Decimal.finite y).grouped? grouping = some (x.grouped grouping) :=
    congrArg some (String.toList_inj.mp ((hy ▸ y.isPlainText_grouped grouping).eq hplain))
  obtain ⟨y, hread, hy⟩ := hplain.filter_ne_comma.exists_ofText?
  refine ⟨x.grouped grouping, rfl, ?_, ?_, ⟨y, hread, hy, ?_⟩, ?_⟩
  · exact fun other => ⟨fun h => h.eq hplain, fun h => h ▸ hplain⟩
  · rintro ⟨n, hn⟩
    exact Scaled.atTenPlaces_of_eq hn
  · exact hsame y (hy ▸ Scaled.atTenPlaces_atTenPlaces x.toRat)
  · exact fun y hy => hsame y (congrArg Scaled.atTenPlaces hy)

example : (Decimal.finite ⟨true, 1234567250000000050, -12⟩).grouped? true
    = some "-1,234,567.25" := by cbv

end Reckoner
