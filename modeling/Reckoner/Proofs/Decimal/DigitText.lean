import Mathlib.Algebra.Order.Ring.Nat
import Mathlib.Tactic.Linarith
import Mathlib.Tactic.Ring
import Reckoner.Decimal.Digits

/-!
# Digits as text

A row of ASCII digits has a value, and two rows of the same length with the same
value are the same row (`eq_of_digitsValue_eq`). So what is needed to make a
number have one text only is a rule about zeros: none in front of the digits
before the point (`IsWhole`), none at the end of those behind it (`IsFraction`).

The digits that a natural number is written with are a whole number of that
value (`isWhole_digitChars`, `digitsValue_digitChars`).
-/

namespace Reckoner

/-- **A row of ASCII digits.** -/
def IsDigits (cs : List Char) : Prop := ∀ c ∈ cs, c.isDigit = true

/-- **Digits before a point**: at least one, and no zero in front of others. -/
structure IsWhole (cs : List Char) : Prop where
  digits : IsDigits cs
  ne_nil : cs ≠ []
  eq_zero_of_head : cs.head? = some '0' → cs = ['0']

/-- **Digits behind a point**: no zero at the end. -/
structure IsFraction (cs : List Char) : Prop where
  digits : IsDigits cs
  getLast?_ne : cs.getLast? ≠ some '0'

variable {a b cs : List Char}

/-! ## Values -/

theorem digitsValue_append (a b : List Char) :
    digitsValue (a ++ b) = digitsValue a * 10 ^ b.length + digitsValue b := by
  show Nat.ofDigitChars 10 (a ++ b) 0 = _
  rw [Nat.ofDigitChars_append, Nat.ofDigitChars_eq_ofDigitChars_zero, mul_comm]
  rfl

theorem digitsValue_cons (c : Char) (cs : List Char) :
    digitsValue (c :: cs) = (c.toNat - '0'.toNat) * 10 ^ cs.length + digitsValue cs := by
  rw [← List.singleton_append, digitsValue_append]
  congr 2
  exact Nat.zero_add _

theorem digitsValue_replicate_zero (k : ℕ) : digitsValue (List.replicate k '0') = 0 := by
  show Nat.ofDigitChars 10 _ 0 = 0
  rw [Nat.ofDigitChars_replicate_zero, mul_zero]

/-- A digit counts from zero to nine. -/
theorem digit_le_nine {c : Char} (h : c.isDigit = true) : c.toNat - '0'.toNat ≤ 9 := by
  have hle : c.toNat ≤ 57 := (Char.isDigit_iff_toNat.mp h).2
  show c.toNat - 48 ≤ 9
  omega

theorem digit_injective {c d : Char} (hc : c.isDigit = true) (hd : d.isDigit = true)
    (h : c.toNat - '0'.toNat = d.toNat - '0'.toNat) : c = d := by
  have hc : 48 ≤ c.toNat := (Char.isDigit_iff_toNat.mp hc).1
  have hd : 48 ≤ d.toNat := (Char.isDigit_iff_toNat.mp hd).1
  have h : c.toNat - 48 = d.toNat - 48 := h
  exact Char.toNat_inj.mp (by omega)

theorem isDigits_cons {c : Char} : IsDigits (c :: cs) ↔ c.isDigit = true ∧ IsDigits cs :=
  List.forall_mem_cons

theorem isDigits_append : IsDigits (a ++ b) ↔ IsDigits a ∧ IsDigits b :=
  List.forall_mem_append

theorem isDigits_replicate_zero (k : ℕ) : IsDigits (List.replicate k '0') := by
  intro c hc
  rw [List.eq_of_mem_replicate hc]
  rfl

/-- **A row of digits stays below the power of ten of its length.** -/
theorem digitsValue_lt (h : IsDigits cs) : digitsValue cs < 10 ^ cs.length := by
  induction cs with
  | nil => exact Nat.one_pos
  | cons c cs ih =>
    obtain ⟨hc, hcs⟩ := isDigits_cons.mp h
    rw [digitsValue_cons, List.length_cons, pow_succ]
    have hle := Nat.mul_le_mul_right (10 ^ cs.length) (digit_le_nine hc)
    have hlt := ih hcs
    omega

/-- **Rows of the same length with the same value are the same row.** -/
theorem eq_of_digitsValue_eq (ha : IsDigits a) (hb : IsDigits b) (hlength : a.length = b.length)
    (h : digitsValue a = digitsValue b) : a = b := by
  induction a generalizing b with
  | nil => exact (List.length_eq_zero_iff.mp hlength.symm).symm
  | cons c a ih =>
    cases b with
    | nil => cases hlength
    | cons d b =>
      obtain ⟨hc, ha⟩ := isDigits_cons.mp ha
      obtain ⟨hd, hb⟩ := isDigits_cons.mp hb
      have hlength : a.length = b.length := Nat.succ.inj hlength
      have hla := digitsValue_lt ha
      have hlb := digitsValue_lt hb
      rw [digitsValue_cons, digitsValue_cons, hlength] at h
      rw [hlength] at hla
      have hdigit : c.toNat - '0'.toNat = d.toNat - '0'.toNat := by
        have := congrArg (· / 10 ^ b.length) h
        simpa [Nat.mul_add_div, mul_comm _ (10 ^ b.length), Nat.div_eq_of_lt, hla, hlb] using this
      rw [hdigit] at h
      rw [digit_injective hc hd hdigit, ih ha hb hlength (Nat.add_left_cancel h)]

/-! ## Before the point -/

namespace IsWhole

/-- A whole number other than a lone zero has the size its length says. -/
theorem pow_le_digitsValue (h : IsWhole cs) (hne : cs ≠ ['0']) :
    10 ^ (cs.length - 1) ≤ digitsValue cs := by
  cases cs with
  | nil => exact absurd rfl h.ne_nil
  | cons c cs =>
    obtain ⟨hc, -⟩ := isDigits_cons.mp h.digits
    have hzero : c.toNat - '0'.toNat ≠ 0 := fun heq =>
      hne (h.eq_zero_of_head (congrArg some (digit_injective hc rfl (d := '0') heq)))
    rw [digitsValue_cons]
    exact (Nat.le_mul_of_pos_left _ (Nat.pos_of_ne_zero hzero)).trans (Nat.le_add_right _ _)

/-- Only the lone zero is zero. -/
theorem eq_zero_of_digitsValue (h : IsWhole cs) (hzero : digitsValue cs = 0) : cs = ['0'] := by
  by_contra hne
  have := h.pow_le_digitsValue hne
  rw [hzero] at this
  exact absurd this (Nat.not_le.mpr (by positivity))

theorem length_le (ha : IsWhole a) (hb : IsWhole b) (h : digitsValue a = digitsValue b)
    (hne : a ≠ ['0']) : a.length ≤ b.length := by
  have hlt : 10 ^ (a.length - 1) < 10 ^ b.length :=
    (ha.pow_le_digitsValue hne).trans_lt (h ▸ digitsValue_lt hb.digits)
  have := (Nat.pow_lt_pow_iff_right (by norm_num)).mp hlt
  omega

/-- **Whole numbers of the same value are written the same.** -/
theorem eq_of_digitsValue_eq (ha : IsWhole a) (hb : IsWhole b)
    (h : digitsValue a = digitsValue b) : a = b := by
  by_cases hzero : digitsValue a = 0
  · rw [ha.eq_zero_of_digitsValue hzero, hb.eq_zero_of_digitsValue (h ▸ hzero)]
  · have hane : a ≠ ['0'] := by
      rintro rfl
      exact hzero rfl
    have hbne : b ≠ ['0'] := by
      rintro rfl
      exact hzero h
    exact Reckoner.eq_of_digitsValue_eq ha.digits hb.digits
      (le_antisymm (ha.length_le hb h hane) (hb.length_le ha h.symm hbne)) h

/-- The first digits of a whole number are one. -/
theorem take (h : IsWhole cs) {k : ℕ} (hk : 0 < k) : IsWhole (cs.take k) where
  digits c hc := h.digits c (List.mem_of_mem_take hc)
  ne_nil := by
    rw [Ne, List.take_eq_nil_iff, not_or]
    exact ⟨hk.ne', h.ne_nil⟩
  eq_zero_of_head hzero := by
    rw [List.head?_take, if_neg hk.ne'] at hzero
    rw [h.eq_zero_of_head hzero]
    exact List.take_of_length_le hk

end IsWhole

/-! ## Behind the point -/

namespace IsFraction

theorem eq_of_length_le (ha : IsFraction a) (hb : IsFraction b) (hle : a.length ≤ b.length)
    (h : digitsValue a * 10 ^ b.length = digitsValue b * 10 ^ a.length) : a = b := by
  set k := b.length - a.length with hk
  have hlength : b.length = a.length + k := by omega
  have hpadded : a ++ List.replicate k '0' = b := by
    refine Reckoner.eq_of_digitsValue_eq ?_ hb.digits ?_ ?_
    · exact isDigits_append.mpr ⟨ha.digits, isDigits_replicate_zero k⟩
    · rw [List.length_append, List.length_replicate, hlength]
    · rw [digitsValue_append, digitsValue_replicate_zero, List.length_replicate, add_zero]
      rw [hlength, pow_add, mul_comm (10 ^ a.length), ← mul_assoc] at h
      exact Nat.eq_of_mul_eq_mul_right (by positivity) h
  cases hzero : k with
  | zero => rwa [hzero, List.replicate_zero, List.append_nil] at hpadded
  | succ k' =>
    refine absurd ?_ hb.getLast?_ne
    rw [← hpadded, hzero, List.replicate_succ', ← List.append_assoc, List.getLast?_concat]

/-- **Fractions of the same value are written the same**, a row of digits
standing for as many tenths, hundredths and so on as it is long. -/
theorem eq_of_digitsValue_eq (ha : IsFraction a) (hb : IsFraction b)
    (h : digitsValue a * 10 ^ b.length = digitsValue b * 10 ^ a.length) : a = b := by
  rcases le_total a.length b.length with hle | hle
  · exact ha.eq_of_length_le hb hle h
  · exact (hb.eq_of_length_le ha hle h.symm).symm

/-- Only an empty fraction is zero. -/
theorem eq_nil_of_digitsValue (h : IsFraction cs) (hzero : digitsValue cs = 0) : cs = [] :=
  h.eq_of_digitsValue_eq ⟨nofun, nofun⟩ (by rw [hzero, Nat.zero_mul]; exact (Nat.zero_mul _).symm)

end IsFraction

/-! ## The digits of a natural number -/

theorem digitChars_eq (n : ℕ) : digitChars n = Nat.toDigits 10 n := Nat.toList_repr

theorem digitsValue_digitChars (n : ℕ) : digitsValue (digitChars n) = n := by
  rw [digitChars_eq]
  exact Nat.ofDigitChars_ten_toDigits

theorem isDigits_digitChars (n : ℕ) : IsDigits (digitChars n) := by
  rw [digitChars_eq]
  exact fun c hc => Nat.isDigit_of_mem_toDigits (by norm_num) le_rfl hc

/-- **The digits of a natural number** have no zero in front. -/
theorem isWhole_digitChars (n : ℕ) : IsWhole (digitChars n) where
  digits := isDigits_digitChars n
  ne_nil := by
    rw [digitChars_eq]
    exact Nat.toDigits_ne_nil
  eq_zero_of_head h := by
    obtain ⟨rest, hrest⟩ := List.head?_eq_some_iff.mp h
    rw [hrest]
    by_contra hne
    have hpos : 0 < rest.length :=
      List.length_pos_iff.mpr fun hnil => hne (congrArg (List.cons '0') hnil)
    have hdigits := (isDigits_cons.mp (hrest ▸ isDigits_digitChars n)).2
    have hvalue : digitsValue rest = n := by
      rw [← digitsValue_digitChars n, hrest, digitsValue_cons]
      simp
    -- a number below the power of ten of the other digits is not written with more than those
    have hle : (digitChars n).length ≤ rest.length := by
      rw [digitChars_eq, Nat.length_toDigits_le_iff (by norm_num) hpos]
      exact hvalue ▸ digitsValue_lt hdigits
    rw [hrest, List.length_cons] at hle
    omega

end Reckoner
