import Mathlib
import Reckoner.Unicode.Case
import Reckoner.Unicode.Numeral

/-!
# ASCII letters in either case

Among the first 128 characters, letter case is simple: every capital letter has one small
letter, and this is as good a part of a name as the capital one. The tables of all scripts
say the same there, which is seen by going through these characters (`forall_ascii`). So the
lower case of an ASCII text is taken letter by letter (`lower_eq_map_toLower`), and of two
texts that differ in letter case only (`SameLetters`) one has its characters in the same
classes as the other.
-/

namespace Reckoner.Unicode

variable {c d : Char} {cs ds : List Char}

/-- A text of **ASCII characters**. -/
def IsAscii (cs : List Char) : Prop := ∀ c ∈ cs, c.toNat < 128

/-- **Two texts with the same letters**, in whichever case they are. -/
def SameLetters (cs ds : List Char) : Prop := cs.map Char.toLower = ds.map Char.toLower

instance (cs : List Char) : Decidable (IsAscii cs) :=
  List.decidableBAll (fun c : Char => c.toNat < 128) cs

instance (cs ds : List Char) : Decidable (SameLetters cs ds) :=
  inferInstanceAs (Decidable (cs.map Char.toLower = ds.map Char.toLower))

/-! ## Characters -/

/-- What holds of the first 128 code points holds of the ASCII characters. -/
theorem forall_ascii {P : Char → Prop} (h : ∀ n < 128, P (Char.ofNat n)) (hc : c.toNat < 128) :
    P c := by
  have hn := h c.toNat hc
  rwa [Char.ofNat_toNat] at hn

theorem lowerChar_eq_toLower (hc : c.toNat < 128) : lowerChar c = c.toLower :=
  forall_ascii (P := fun c => lowerChar c = c.toLower) (by decide +kernel) hc

theorem toNat_toLower_lt (hc : c.toNat < 128) : c.toLower.toNat < 128 :=
  forall_ascii (P := fun c => c.toLower.toNat < 128) (by decide +kernel) hc

theorem isWordChar_toLower (hc : c.toNat < 128) : isWordChar c.toLower = isWordChar c :=
  forall_ascii (P := fun c => isWordChar c.toLower = isWordChar c) (by decide +kernel) hc

/-- A digit among the ASCII characters is no letter. -/
theorem isAlpha_of_isDecimal (hc : c.toNat < 128) : isDecimal c = true → c.isAlpha = false :=
  forall_ascii (P := fun c => isDecimal c = true → c.isAlpha = false) (by decide +kernel) hc

/-- Only an ASCII character has an ASCII character as its small letter. -/
theorem toNat_lt_of_toLower (h : c.toLower.toNat < 128) : c.toNat < 128 := by
  cases hc : c.isUpper with
  | false => rwa [Char.toLower_eq_of_not_isUpper (by simp [hc])] at h
  | true =>
    have hbounds := of_decide_eq_true hc
    exact Nat.lt_of_le_of_lt (UInt32.le_iff_toNat_le.mp hbounds.2) (by decide)

/-- What is no letter has no other case. -/
theorem eq_of_toLower_eq (hd : d.isAlpha = false) (h : c.toLower = d.toLower) : c = d := by
  have hc : c.isAlpha = false := by
    rw [← Char.isAlpha_toLower_eq_isAlpha, h, Char.isAlpha_toLower_eq_isAlpha, hd]
  have hself {e : Char} (he : e.isAlpha = false) : e.toLower = e := by
    refine Char.toLower_eq_of_not_isUpper fun hupper => ?_
    rw [Char.isAlpha, hupper, Bool.true_or] at he
    cases he
  rw [← hself hc, ← hself hd, h]

/-! ## Texts -/

/-- **The lower case of an ASCII text** is taken letter by letter. -/
theorem lower_eq_map_toLower (h : IsAscii cs) : lower cs = cs.map Char.toLower := by
  -- what stands before a letter matters to the capital sigma only
  have hafter (before : List Char) : lowerAfter before cs = cs.map Char.toLower := by
    induction cs generalizing before with
    | nil => rfl
    | cons c cs ih =>
      obtain ⟨hc, hcs⟩ := List.forall_mem_cons.mp h
      have hdotted : c ≠ 'İ' := by rintro rfl; exact absurd hc (by decide)
      have hsigma : c ≠ 'Σ' := by rintro rfl; exact absurd hc (by decide)
      rw [lowerAfter, if_neg hdotted, if_neg hsigma, lowerChar_eq_toLower hc, ih hcs]
      rfl
  exact hafter []

/-- A text and its lower case have the same letters. -/
theorem sameLetters_lower (h : IsAscii cs) : SameLetters (lower cs) cs := by
  rw [SameLetters, lower_eq_map_toLower h, List.map_map]
  exact List.map_congr_left fun c _ => c.toLower_toLower_eq_toLower

namespace SameLetters

theorem exists_mem (h : SameLetters cs ds) : ∀ c ∈ cs, ∃ d ∈ ds, d.toLower = c.toLower := by
  intro c hc
  have hmem : c.toLower ∈ ds.map Char.toLower := h ▸ List.mem_map_of_mem hc
  exact List.mem_map.mp hmem

theorem isAscii (h : SameLetters cs ds) (hds : IsAscii ds) : IsAscii cs := by
  intro c hc
  obtain ⟨d, hd, heq⟩ := h.exists_mem c hc
  exact toNat_lt_of_toLower (heq ▸ toNat_toLower_lt (hds d hd))

/-- **A class that is the same for a letter and its small letter** is that of the one text if
it is that of the other. -/
theorem forall_mem {p : Char → Bool} (h : SameLetters cs ds) (hds : IsAscii ds)
    (hp : ∀ c, c.toNat < 128 → p c.toLower = p c) (hall : ∀ d ∈ ds, p d = true) :
    ∀ c ∈ cs, p c = true := by
  intro c hc
  obtain ⟨d, hd, heq⟩ := h.exists_mem c hc
  rw [← hp c (h.isAscii hds c hc), ← heq, hp d (hds d hd), hall d hd]

/-- **Letter case is lost in lower case.** -/
theorem lower_eq (h : SameLetters cs ds) (hds : IsAscii ds) : lower cs = lower ds := by
  rw [lower_eq_map_toLower (h.isAscii hds), lower_eq_map_toLower hds]
  exact h

/-- A text without letters has no other case. -/
theorem eq_of_isAlpha (h : SameLetters cs ds) (hds : ∀ d ∈ ds, d.isAlpha = false) : cs = ds := by
  induction ds generalizing cs with
  | nil => exact List.map_eq_nil_iff.mp h
  | cons d ds ih =>
    obtain ⟨hd, hds⟩ := List.forall_mem_cons.mp hds
    obtain ⟨c, cs, rfl, hc, hcs⟩ := List.map_eq_cons_iff.mp h
    rw [eq_of_toLower_eq hd hc, ih hcs hds]

end SameLetters

end Reckoner.Unicode
