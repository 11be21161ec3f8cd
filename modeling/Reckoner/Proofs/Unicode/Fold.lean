import Reckoner.Proofs.Unicode.Ascii

/-!
# Words where letter case is ignored

Words are recognised in two ways. A name is put in lower case as a whole and compared then. A
search compares character by character, each with the letter it counts as (`foldChar`). The two
do not agree on every text: the long s counts as an `s`, and is its own small letter.

They agree where it matters. A character that is not ASCII has no ASCII letter as its small
letter, but for the Kelvin sign, and this counts as a `k` (`foldChar_lowerChar`). So what is an
ASCII word in lower case is found as this word by a search (`map_foldChar_of_lower_eq`). And a
search takes nothing for an ASCII letter that could not stand in a name
(`isLetter_of_foldChar`).
-/

namespace Reckoner.Unicode

variable {c d : Char} {cs word : List Char}

/-! ## Small letters -/

/-- The row of the Kelvin sign. -/
def CaseRow.IsKelvin (row : CaseRow) : Prop := row.first = 0x212A ∧ row.last = 0x212A

instance (row : CaseRow) : Decidable row.IsKelvin :=
  inferInstanceAs (Decidable (row.first = 0x212A ∧ row.last = 0x212A))

/-- Every row leads from ASCII to ASCII, or to small letters that are not ASCII, but for the
Kelvin sign. -/
theorem forall_caseRows : ∀ row ∈ caseRows,
    row.last < 128 ∨ row.IsKelvin ∨ 128 ≤ (row.first : ℤ) + row.offset := by
  decide +kernel

/-- **The Kelvin sign** is the only character that is not ASCII and has a small letter that is. -/
theorem le_lowerIn {rows : List CaseRow} (hrows : ∀ row ∈ rows,
      row.last < 128 ∨ row.IsKelvin ∨ 128 ≤ (row.first : ℤ) + row.offset)
    {n : ℕ} (hn : 128 ≤ n) (hkelvin : n ≠ 0x212A) : 128 ≤ lowerIn rows n := by
  induction rows with
  | nil => exact hn
  | cons row rest ih =>
    obtain ⟨hrow, hrest⟩ := List.forall_mem_cons.mp hrows
    unfold lowerIn
    split
    · exact hn
    · split
      · split
        · obtain hlast | ⟨hfirst, hlast⟩ | hoffset := hrow <;> omega
        · exact hn
      · exact ih hrest

/-- A letter from `a` to `z`, or from `A` to `Z`, is ASCII. -/
theorem toNat_of_isAlpha (h : c.isAlpha = true) : 0 < c.toNat ∧ c.toNat < 128 := by
  have hbounds {a d : Char} (hle : a ≤ c ∧ c ≤ d) (ha : 0 < a.toNat) (hd : d.toNat < 128) :
      0 < c.toNat ∧ c.toNat < 128 :=
    ⟨Nat.lt_of_lt_of_le ha (UInt32.le_iff_toNat_le.mp hle.1),
      Nat.lt_of_le_of_lt (UInt32.le_iff_toNat_le.mp hle.2) hd⟩
  rw [Char.isAlpha, Bool.or_eq_true] at h
  obtain hupper | hlower := h
  · exact hbounds (a := 'A') (d := 'Z') (of_decide_eq_true hupper) (by decide) (by decide)
  · obtain ⟨hle, hge⟩ := Bool.and_eq_true_iff.mp hlower
    exact hbounds (a := 'a') (d := 'z') ⟨of_decide_eq_true hle, of_decide_eq_true hge⟩
      (by decide) (by decide)

/-- **A small ASCII letter is what a character counts as.** -/
theorem foldChar_of_lowerChar (h : lowerChar c = d) (halpha : d.isAlpha = true) :
    foldChar c = d := by
  obtain ⟨hzero, hd⟩ := toNat_of_isAlpha halpha
  by_cases hascii : c.toNat < 128
  · have hfold : ∀ n < 128, foldChar (Char.ofNat n) = lowerChar (Char.ofNat n) := by
      decide +kernel
    rw [forall_ascii (P := fun c => foldChar c = lowerChar c) hfold hascii, h]
  · by_cases hkelvin : c.toNat = 0x212A
    · obtain rfl : c = '\u212A' := by
        rw [← Char.ofNat_toNat c, hkelvin]
      rw [← h]
      decide +kernel
    · have hle : 128 ≤ lowerIn caseRows c.toNat :=
        le_lowerIn forall_caseRows (by omega) hkelvin
      rw [← h, lowerChar, Char.toNat_ofNat] at hzero hd
      split_ifs at hzero hd <;> omega

/-- **An ASCII word in lower case** is found as this word by a search. -/
theorem map_foldChar_of_lower_eq (h : lower cs = word)
    (hword : ∀ d ∈ word, d.isAlpha = true) : cs.map foldChar = word := by
  have hafter (before cs : List Char) {word : List Char}
      (hword : ∀ d ∈ word, d.isAlpha = true) (h : lowerAfter before cs = word) :
      cs.map foldChar = word := by
    induction cs generalizing before word with
    | nil => exact h
    | cons c cs ih =>
      rw [lowerAfter] at h
      split at h
      · rw [← h] at hword
        exact absurd (hword '\u0307' (by simp)) (by decide)
      · split at h
        · rw [← h] at hword
          obtain ⟨hsmall, -⟩ := List.forall_mem_append.mp hword
          split at hsmall
          · exact absurd (hsmall 'ς' (by simp)) (by decide)
          · exact absurd (hsmall 'σ' (by simp)) (by decide)
        · rw [List.singleton_append] at h
          rw [← h, List.forall_mem_cons] at hword
          rw [List.map_cons, ← h, ih (c :: before) hword.2 rfl, foldChar_of_lowerChar rfl hword.1]
  exact hafter [] cs hword h

/-! ## Letters -/

/-- **What counts as an ASCII letter** is a letter, and no digit of any script. -/
theorem isLetter_of_foldChar (h : (foldChar c).isAlpha = true) :
    isLetter c = true ∧ isDecimal c = false := by
  unfold foldChar at h
  split at h
  · next heq => rw [heq]; decide +kernel
  split at h
  · next heq => rw [heq]; decide +kernel
  split at h
  · next heq =>
    rw [Bool.or_eq_true, decide_eq_true_iff, decide_eq_true_iff] at heq
    obtain rfl | rfl := heq <;> decide +kernel
  · have hascii : c.toNat < 128 := toNat_lt_of_toLower (toNat_of_isAlpha h).2
    rw [Char.isAlpha_toLower_eq_isAlpha] at h
    exact forall_ascii (P := fun c => c.isAlpha = true → isLetter c = true ∧ isDecimal c = false)
      (by decide +kernel) hascii h

end Reckoner.Unicode
