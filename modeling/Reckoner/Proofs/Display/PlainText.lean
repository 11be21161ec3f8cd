import Mathlib.Data.Rat.Floor
import Mathlib.Tactic.FieldSimp
import Mathlib.Tactic.Positivity
import Reckoner.Display
import Reckoner.Proofs.Decimal.DigitText

/-!
# The one plain text of a number

A rational number that ten places suffice for has one plain text: a minus sign
if it lies below zero, its whole digits – in groups of three, if they are
wanted – and, unless it is an integer, a point and its places without a zero at
the end. `IsPlainText` says so in these words, and knows nothing of coefficients
and exponents.

There is no choice in it. The digits are determined by the absolute value
(`PlainDigits.eq`), and the groups by the digits (`IsGrouping.eq`), so that any
two texts of a number are the same (`IsPlainText.eq`).
-/

namespace Reckoner

/-! ## Groups of three -/

/-- **Digits in groups of three**: at most three in the first group, just three in
all the others, and a comma before each of these. -/
def IsGrouping (digits text : List Char) : Prop :=
  ∃ (first : List Char) (rest : List (List Char)),
    (1 ≤ first.length ∧ first.length ≤ 3) ∧ (∀ group ∈ rest, group.length = 3)
      ∧ digits = first ++ rest.flatten ∧ text = first ++ rest.flatMap (',' :: ·)

variable {digits text text' : List Char}

theorem length_flatten_of_three {rest : List (List Char)} (h : ∀ group ∈ rest, group.length = 3) :
    rest.flatten.length = 3 * rest.length := by
  induction rest with
  | nil => rfl
  | cons group rest ih =>
    obtain ⟨hgroup, hrest⟩ := List.forall_mem_cons.mp h
    rw [List.flatten_cons, List.length_append, hgroup, ih hrest, List.length_cons]
    ring

/-- **There is one way to put digits into groups of three.** -/
theorem IsGrouping.eq (h : IsGrouping digits text) (h' : IsGrouping digits text') :
    text = text' := by
  obtain ⟨first, rest, hfirst, hrest, hdigits, rfl⟩ := h
  obtain ⟨first', rest', hfirst', hrest', hdigits', rfl⟩ := h'
  have hsame := hdigits.symm.trans hdigits'
  have hcount := congrArg List.length hsame
  rw [List.length_append, List.length_append, length_flatten_of_three hrest,
    length_flatten_of_three hrest'] at hcount
  -- the number of digits, taken modulo three, decides how long the first group is
  obtain ⟨rfl, hflatten⟩ := List.append_inj hsame (by omega)
  have hlengths : rest.map List.length = rest'.map List.length := by
    rw [List.map_eq_replicate_iff.mpr hrest, List.map_eq_replicate_iff.mpr hrest']
    congr 1
    omega
  rw [List.eq_iff_flatten_eq.mpr ⟨hflatten, hlengths⟩]

/-- There is no comma among digits. -/
theorem IsDigits.filter_ne_comma (h : IsDigits digits) : digits.filter (· ≠ ',') = digits := by
  rw [List.filter_eq_self]
  intro c hc
  rw [decide_eq_true_eq]
  rintro rfl
  exact absurd (h ',' hc) (by decide)

/-- Without its commas a grouping is the row of digits again. -/
theorem IsGrouping.filter_ne_comma (h : IsGrouping digits text) (hdigits : IsDigits digits) :
    text.filter (· ≠ ',') = digits := by
  obtain ⟨first, rest, -, -, rfl, rfl⟩ := h
  obtain ⟨hfirst, hrest⟩ := isDigits_append.mp hdigits
  rw [List.filter_append, hfirst.filter_ne_comma]
  congr 1
  induction rest with
  | nil => rfl
  | cons group rest ih =>
    obtain ⟨hgroup, hrest⟩ := isDigits_append.mp hrest
    rw [List.flatMap_cons, List.filter_append, List.flatten_cons, List.filter_cons_of_neg (by simp),
      hgroup.filter_ne_comma, ih (isDigits_append.mpr ⟨hfirst, hrest⟩) hrest]

/-- **The calculator groups digits by threes.** -/
theorem isGrouping_groupThousands (hne : digits ≠ []) :
    IsGrouping digits (groupThousands digits) := by
  unfold groupThousands
  induction digits with
  | nil => exact absurd rfl hne
  | cons c cs ih =>
    rw [List.length_cons, Nat.add_sub_cancel, insertCommas]
    cases cs with
    | nil => exact ⟨[c], [], ⟨le_rfl, by norm_num⟩, nofun, rfl, rfl⟩
    | cons d ds =>
      obtain ⟨first, rest, hfirst, hrest, hdigits, htext⟩ := ih (List.cons_ne_nil d ds)
      have hlength := congrArg List.length hdigits
      rw [List.length_append, length_flatten_of_three hrest] at hlength
      rw [htext, hlength, hdigits]
      split
      · next hcomma =>
        -- the first group is full, and the new digit starts another one
        have hthree : first.length = 3 := by
          simp only [Bool.and_eq_true, decide_eq_true_eq] at hcomma
          omega
        exact ⟨[c], first :: rest, ⟨le_rfl, by norm_num⟩,
          List.forall_mem_cons.mpr ⟨hthree, hrest⟩, rfl, rfl⟩
      · next hcomma =>
        have hless : first.length < 3 := by
          simp only [Bool.and_eq_true, decide_eq_true_eq, bne_iff_ne, ne_eq, not_and, not_not]
            at hcomma
          omega
        exact ⟨c :: first, rest, ⟨Nat.succ_pos _, hless⟩, hrest, rfl, rfl⟩

/-! ## Digits of a number -/

/-- Digits behind a point stand for less than one. -/
theorem fraction_lt_one {fraction : List Char} (h : IsDigits fraction) :
    (digitsValue fraction : ℚ) / 10 ^ fraction.length < 1 := by
  rw [div_lt_one (by positivity)]
  exact_mod_cast digitsValue_lt h

/-- A number has places exactly if it is no integer. -/
theorem fraction_eq_nil_iff {r : ℚ} {n : ℕ} {fraction : List Char} (h : IsFraction fraction)
    (habs : |r| = n + digitsValue fraction / 10 ^ fraction.length) :
    fraction = [] ↔ r.den = 1 := by
  constructor
  · rintro rfl
    have habs : |r| = n := habs.trans (by simp [digitsValue])
    rcases abs_choice r with hr | hr
    · rw [← hr, habs, Rat.den_natCast]
    · rw [← Rat.den_neg_eq_den, ← hr, habs, Rat.den_natCast]
  · intro hden
    have hr : |r| = (r.num.natAbs : ℕ) := by
      rw [Nat.cast_natAbs, Int.cast_abs, Rat.den_eq_one_iff r |>.mp hden]
    -- `n ≤ |r| < n + 1`, so an integer is `n` itself and leaves nothing behind the point
    have hlt := fraction_lt_one h.digits
    have hnonneg : (0 : ℚ) ≤ digitsValue fraction / 10 ^ fraction.length := by positivity
    have hle : n ≤ r.num.natAbs := by
      exact_mod_cast (by linarith : (n : ℚ) ≤ (r.num.natAbs : ℕ))
    have hge : r.num.natAbs < n + 1 := by
      exact_mod_cast (by push_cast; linarith : ((r.num.natAbs : ℕ) : ℚ) < (n + 1 : ℕ))
    have hzero : (digitsValue fraction : ℚ) / 10 ^ fraction.length = 0 := by
      have : (n : ℚ) = (r.num.natAbs : ℕ) := by exact_mod_cast (by omega : n = r.num.natAbs)
      linarith
    rw [div_eq_zero_iff, or_iff_left (by positivity)] at hzero
    exact h.eq_nil_of_digitsValue (by exact_mod_cast hzero)

/-- **The plain digits of a number**, without its sign: those before the point and
those behind it, of which there are none exactly if it is an integer. -/
structure PlainDigits (r : ℚ) where
  whole : List Char
  fraction : List Char
  isWhole : IsWhole whole
  isFraction : IsFraction fraction
  length_fraction_le : fraction.length ≤ 10
  fraction_eq_nil : fraction = [] ↔ r.den = 1
  abs_eq : |r| = digitsValue whole + digitsValue fraction / 10 ^ fraction.length

namespace PlainDigits

variable {r : ℚ} (d d' : PlainDigits r)

theorem digitsValue_whole : (digitsValue d.whole : ℤ) = ⌊|r|⌋ := by
  have hnonneg : (0 : ℚ) ≤ digitsValue d.fraction / 10 ^ d.fraction.length := by positivity
  have hlt := fraction_lt_one d.isFraction.digits
  refine (Int.floor_eq_iff.mpr ⟨?_, ?_⟩).symm
  · rw [d.abs_eq, Int.cast_natCast]
    linarith
  · rw [d.abs_eq, Int.cast_natCast]
    linarith

/-- **A number has one row of plain digits.** -/
protected theorem eq : d = d' := by
  have hwhole : digitsValue d.whole = digitsValue d'.whole := by
    exact_mod_cast d.digitsValue_whole.trans d'.digitsValue_whole.symm
  have hfraction : (digitsValue d.fraction : ℚ) / 10 ^ d.fraction.length
      = digitsValue d'.fraction / 10 ^ d'.fraction.length := by
    have := d.abs_eq.symm.trans d'.abs_eq
    rwa [hwhole, add_right_inj] at this
  rw [div_eq_div_iff (by positivity) (by positivity)] at hfraction
  have hw := d.isWhole.eq_of_digitsValue_eq d'.isWhole hwhole
  have hf := d.isFraction.eq_of_digitsValue_eq d'.isFraction (by exact_mod_cast hfraction)
  cases d
  cases d'
  cases hw
  cases hf
  rfl

end PlainDigits

/-! ## Texts of a number -/

/-- **The plain text of a number**: a minus sign exactly if it lies below zero, its
whole digits, in groups if these are wanted, and a point with its places exactly
if it is no integer. -/
def IsPlainText (grouping : Bool) (r : ℚ) (text : List Char) : Prop :=
  ∃ (d : PlainDigits r) (whole : List Char),
    (if grouping then IsGrouping d.whole whole else whole = d.whole)
      ∧ text = (if r < 0 then ['-'] else []) ++ whole
        ++ (if r.den = 1 then [] else '.' :: d.fraction)

/-- **A number has one plain text.** -/
theorem IsPlainText.eq {grouping : Bool} {r : ℚ} (h : IsPlainText grouping r text)
    (h' : IsPlainText grouping r text') : text = text' := by
  obtain ⟨d, whole, hwhole, rfl⟩ := h
  obtain ⟨d', whole', hwhole', rfl⟩ := h'
  obtain rfl := d.eq d'
  cases grouping with
  | false => rw [hwhole, hwhole']
  | true => rw [IsGrouping.eq hwhole hwhole']

/-- Without its commas a grouped text is an ungrouped one. -/
theorem IsPlainText.filter_ne_comma {grouping : Bool} {r : ℚ}
    (h : IsPlainText grouping r text) : IsPlainText false r (text.filter (· ≠ ',')) := by
  obtain ⟨d, whole, hwhole, rfl⟩ := h
  refine ⟨d, d.whole, rfl, ?_⟩
  have hwhole : whole.filter (· ≠ ',') = d.whole := by
    cases grouping with
    | false => rw [show whole = d.whole from hwhole, d.isWhole.digits.filter_ne_comma]
    | true => exact IsGrouping.filter_ne_comma hwhole d.isWhole.digits
  rw [List.filter_append, List.filter_append, hwhole]
  congr 1
  · split <;> rfl
  · split
    · rfl
    · rw [List.filter_cons_of_pos (by decide), d.isFraction.digits.filter_ne_comma]

end Reckoner
