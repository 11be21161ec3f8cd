import Mathlib.Data.List.DropRight
import Reckoner.Unicode.Blank
import Reckoner.Unicode.Numeral

/-!
# Blanks at the ends of a text

A text is trimmed by taking blanks off its ends, one end after the other. What this
leaves is described by what it keeps: every character that is not blank is still
there, in its place among the others (`filter_trim`), and the text begins and ends
with such characters or is empty. The last character of a trimmed text is therefore
the last one that is not blank (`getLast?_trim`).

Blanks are also what words are told apart by: a word that ends before a blank is the
first one of its text (`firstWord?_append`).

No character is both a blank and part of a name, and a format character is neither. The
classes are tables of ranges from different sources, so this is a fact about the tables,
and it is settled by going through the blanks and the format characters, of which there
are few.
-/

namespace Reckoner.Unicode

/-! ## Classes apart from each other -/

/-- **The code points in ranges**, one after another. -/
def Ranges.points (ranges : Ranges) : List ℕ :=
  ranges.flatMap fun range => List.range' range.1 (range.2 + 1 - range.1)

/-- A code point in one of the ranges is one of their points. -/
theorem Ranges.mem_points {ranges : Ranges} {n : ℕ} (h : ranges.contains n = true) :
    n ∈ ranges.points := by
  induction ranges with
  | nil => cases h
  | cons range rest ih =>
    obtain ⟨low, high⟩ := range
    rw [points, List.flatMap_cons, List.mem_append, List.mem_range'_1]
    rw [contains] at h
    split at h
    · cases h
    · next hlow =>
      rcases Bool.or_eq_true_iff.mp h with hhigh | hrest
      · have hhigh : n ≤ high := of_decide_eq_true hhigh
        exact .inl (by omega)
      · exact .inr (ih hrest)

/-- No blank is in the tables of letters and numerals. -/
theorem forall_blank_points : ∀ n ∈ blankRanges.points,
    n ≠ '_'.toNat ∧ letterRanges.contains n = false ∧ decimalRanges.contains n = false
      ∧ otherNumeralRanges.contains n = false := by
  decide +kernel

variable {c : Char} {cs : List Char} {p : Char → Bool}

/-- **What may stand in a name is not blank.** -/
theorem isBlank_of_isWordChar (h : isWordChar c = true) : isBlank c = false := by
  by_contra hblank
  obtain ⟨hline, hletter, hdecimal, hother⟩ := forall_blank_points c.toNat
    (Ranges.mem_points (Bool.not_eq_false _ ▸ hblank))
  have hne : (c == '_') = false := beq_eq_false_iff_ne.mpr fun heq => hline (heq ▸ rfl)
  rw [isWordChar, hne, Bool.false_or, isAlphanumeric, isLetter, isDecimal, Ranges.hasChar,
    Ranges.hasChar, Ranges.hasChar, hletter, hdecimal, hother] at h
  cases h

/-- Whether no range of a table meets the one from `low` to `high`. -/
def Ranges.misses (ranges : Ranges) (low high : ℕ) : Bool :=
  ranges.all fun range => Nat.blt high range.1 || Nat.blt range.2 low

/-- A code point of the range is in none of the others. -/
theorem Ranges.contains_of_misses {ranges : Ranges} {low high n : ℕ}
    (h : ranges.misses low high = true) (hlow : low ≤ n) (hhigh : n ≤ high) :
    ranges.contains n = false := by
  induction ranges with
  | nil => rfl
  | cons range rest ih =>
    obtain ⟨first, last⟩ := range
    rw [misses, List.all_cons, Bool.and_eq_true, Bool.or_eq_true, Nat.blt_eq, Nat.blt_eq] at h
    obtain ⟨happart, hrest⟩ := h
    rw [contains, ih hrest, Bool.or_false]
    split
    · rfl
    · exact decide_eq_false (by omega)

/-- No format character is ASCII or in another table. -/
theorem forall_format_points : ∀ n ∈ formatRanges.points,
    128 ≤ n ∧ blankRanges.contains n = false ∧ letterRanges.contains n = false
      ∧ decimalRanges.contains n = false ∧ otherNumeralRanges.contains n = false := by
  -- there are more points than ranges, and the table of letters is long
  have hall : formatRanges.all (fun range => Nat.ble 128 range.1
      && blankRanges.misses range.1 range.2 && letterRanges.misses range.1 range.2
      && decimalRanges.misses range.1 range.2 && otherNumeralRanges.misses range.1 range.2)
        = true := by
    decide +kernel
  intro n hn
  obtain ⟨⟨low, high⟩, hrange, hn⟩ := List.mem_flatMap.mp hn
  rw [List.mem_range'_1] at hn
  have hmisses := List.all_eq_true.mp hall _ hrange
  simp only [Bool.and_eq_true, Nat.ble_eq] at hmisses
  obtain ⟨⟨⟨⟨hascii, hblank⟩, hletter⟩, hdecimal⟩, hother⟩ := hmisses
  have hhigh : n ≤ high := by omega
  exact ⟨hascii.trans hn.1, Ranges.contains_of_misses hblank hn.1 hhigh,
    Ranges.contains_of_misses hletter hn.1 hhigh, Ranges.contains_of_misses hdecimal hn.1 hhigh,
    Ranges.contains_of_misses hother hn.1 hhigh⟩

/-- **A format character** is not ASCII, and neither a blank nor part of a name. -/
theorem isFormat_spec (h : isFormat c = true) :
    128 ≤ c.toNat ∧ isBlank c = false ∧ isWordChar c = false := by
  obtain ⟨hascii, hblank, hletter, hdecimal, hother⟩ := forall_format_points c.toNat
    (Ranges.mem_points h)
  refine ⟨hascii, hblank, ?_⟩
  have hne : (c == '_') = false := beq_eq_false_iff_ne.mpr fun heq => by
    rw [heq] at hascii
    exact absurd hascii (by decide)
  rw [isWordChar, hne, Bool.false_or, isAlphanumeric, isLetter, isDecimal, Ranges.hasChar,
    Ranges.hasChar, Ranges.hasChar, hletter, hdecimal, hother]
  rfl

/-! ## Trimmed texts -/

/-- What is looked for among the characters that are not blank is not lost with
blanks at the start. -/
theorem filter_trimStart (h : ∀ c, isBlank c = true → p c = false) (cs : List Char) :
    (trimStart cs).filter p = cs.filter p := by
  have hblanks : (cs.takeWhile isBlank).filter p = [] := by
    rw [List.filter_eq_nil_iff]
    intro c hc
    rw [h c (List.mem_takeWhile_imp hc)]
    exact Bool.false_ne_true
  calc (trimStart cs).filter p
      = (cs.takeWhile isBlank).filter p ++ (cs.dropWhile isBlank).filter p := by
        rw [hblanks, List.nil_append, trimStart]
    _ = cs.filter p := by rw [← List.filter_append, List.takeWhile_append_dropWhile]

/-- **Trimming loses blanks and nothing else.** -/
theorem filter_trim (h : ∀ c, isBlank c = true → p c = false) (cs : List Char) :
    (trim cs).filter p = cs.filter p := by
  have hend := filter_trimStart h (trimStart cs).reverse
  rw [trimStart, List.filter_reverse, filter_trimStart h] at hend
  rw [trim, List.filter_reverse, hend, List.reverse_reverse]

/-- A trimmed text has no other characters than before. -/
theorem mem_of_mem_trim (h : c ∈ trim cs) : c ∈ cs := by
  have hend : trim cs <+: trimStart cs := List.rdropWhile_prefix isBlank _
  exact (List.dropWhile_sublist isBlank).subset (hend.subset h)

/-- A character that is not blank is still there. -/
theorem mem_trim (h : c ∈ cs) (hblank : isBlank c = false) : c ∈ trim cs := by
  have hfilter := filter_trim (p := (!isBlank ·)) (fun d hd => by rw [hd]; rfl) cs
  have hmem : c ∈ cs.filter (!isBlank ·) := List.mem_filter.mpr ⟨h, by rw [hblank]; rfl⟩
  rw [← hfilter] at hmem
  exact List.mem_of_mem_filter hmem

/-- **A trimmed text ends with the last character that is not blank.** -/
theorem getLast?_trim (cs : List Char) :
    (trim cs).getLast? = (cs.filter (!isBlank ·)).getLast? := by
  rw [← filter_trimStart (fun c hc => by rw [hc]; rfl) cs, trim, List.getLast?_reverse,
    ← List.find?_not_eq_head?_dropWhile, ← List.head?_filter, List.filter_reverse,
    List.head?_reverse]

/-- What does not begin with a blank is not changed at its start. -/
theorem trimStart_eq_self (h : ∀ c ∈ cs.head?, isBlank c = false) : trimStart cs = cs := by
  cases cs with
  | nil => rfl
  | cons c cs => exact List.dropWhile_cons_of_neg (by rw [h c rfl]; exact Bool.false_ne_true)

/-- **A text without blanks at its ends** is not changed by trimming. -/
theorem trim_eq_self (hfirst : ∀ c ∈ cs.head?, isBlank c = false)
    (hlast : ∀ c ∈ cs.getLast?, isBlank c = false) : trim cs = cs := by
  have hend : cs.reverse.dropWhile isBlank = cs.reverse :=
    trimStart_eq_self (by rwa [List.head?_reverse])
  rw [trim, trimStart_eq_self hfirst, hend, List.reverse_reverse]

/-- A trimmed text does not begin with a blank. -/
theorem isBlank_of_head?_trim (h : c ∈ (trim cs).head?) : isBlank c = false := by
  obtain ⟨tail, htail⟩ : trim cs <+: trimStart cs := List.rdropWhile_prefix isBlank _
  obtain ⟨ds, hds⟩ := List.head?_eq_some_iff.mp h
  rw [hds, List.cons_append] at htail
  have hfirst := List.head?_dropWhile_not isBlank cs
  rw [← trimStart, ← htail] at hfirst
  exact hfirst

/-- A trimmed text does not end with a blank. -/
theorem isBlank_of_getLast?_trim (h : c ∈ (trim cs).getLast?) : isBlank c = false := by
  rw [getLast?_trim] at h
  simpa using List.of_mem_filter (List.mem_of_mem_getLast? h)

/-- **A text that was trimmed is not trimmed further.** -/
theorem trim_trim (cs : List Char) : trim (trim cs) = trim cs :=
  trim_eq_self (fun _ => isBlank_of_head?_trim) fun _ => isBlank_of_getLast?_trim

/-- A trimmed text is empty if there were blanks only. -/
theorem trim_eq_nil_iff : trim cs = [] ↔ isBlankText cs = true := by
  rw [← List.getLast?_eq_none_iff, getLast?_trim, List.getLast?_eq_none_iff,
    List.filter_eq_nil_iff, isBlankText, List.all_eq_true]
  simp

/-- Blanks at the start of a text are passed over. -/
theorem trimStart_append_of_blank {blanks : List Char} (h : ∀ c ∈ blanks, isBlank c = true)
    (cs : List Char) : trimStart (blanks ++ cs) = trimStart cs :=
  List.dropWhile_append_of_pos h

/-- What begins with a character that is not blank stays at the start. -/
theorem trimStart_append_append (hne : cs ≠ []) (hfirst : ∀ c ∈ cs.head?, isBlank c = false)
    (before after : List Char) :
    trimStart (before ++ (cs ++ after)) = trimStart before ++ (cs ++ after) := by
  induction before with
  | nil =>
    obtain ⟨c, ds, rfl⟩ := List.exists_cons_of_ne_nil hne
    exact trimStart_eq_self fun d hd => Option.some.inj hd ▸ hfirst c rfl
  | cons b before ih =>
    rw [List.cons_append, trimStart, trimStart, List.dropWhile_cons, List.dropWhile_cons]
    split
    · exact ih
    · rfl

/-- **What stands in the middle** of a text and has no blanks at its ends is still there when the
text is trimmed. -/
theorem trim_append_append (hne : cs ≠ []) (hfirst : ∀ c ∈ cs.head?, isBlank c = false)
    (hlast : ∀ c ∈ cs.getLast?, isBlank c = false) (before after : List Char) :
    trim (before ++ (cs ++ after)) = trimStart before ++ (cs ++ after.rdropWhile isBlank) := by
  have hnotNil : cs.reverse ≠ [] := by simpa using hne
  have hend := trimStart_append_append hnotNil (by rwa [List.head?_reverse]) after.reverse
    (trimStart before).reverse
  rw [trim, trimStart_append_append hne hfirst, List.reverse_append, List.reverse_append,
    List.append_assoc]
  rw [trimStart] at hend
  rw [hend, List.reverse_append, List.reverse_append, List.reverse_reverse, List.reverse_reverse,
    List.append_assoc]
  rfl

/-- **What trimming takes off** a text are blanks before it and behind it. -/
theorem exists_append_trim_append (cs : List Char) : ∃ before after : List Char,
    (∀ c ∈ before, isBlank c = true) ∧ (∀ c ∈ after, isBlank c = true)
      ∧ cs = before ++ (trim cs ++ after) := by
  refine ⟨cs.takeWhile isBlank, (trimStart cs).rtakeWhile isBlank,
    fun c hc => List.mem_takeWhile_imp hc, fun c hc => List.mem_rtakeWhile_imp hc, ?_⟩
  have hend : trim cs ++ (trimStart cs).rtakeWhile isBlank = trimStart cs :=
    List.rdropWhile_append_rtakeWhile
  rw [hend, trimStart, List.takeWhile_append_dropWhile]

/-! ## Words -/

/-- **The first word** is what stands before the first blank. -/
theorem firstWord?_append {word : List Char} (hne : word ≠ [])
    (hword : ∀ d ∈ word, isBlank d = false) (hblank : isBlank c = true) :
    firstWord? (word ++ c :: cs) = some (word, trimStart cs) := by
  have hnot : ∀ d ∈ word, (!isBlank d) = true := fun d hd => by rw [hword d hd]; rfl
  have hstop : ¬ (!isBlank c) = true := by
    rw [hblank]
    exact Bool.false_ne_true
  have htake : (word ++ c :: cs).takeWhile (!isBlank ·) = word := by
    rw [List.takeWhile_append_of_pos hnot,
      List.takeWhile_cons_of_neg (p := (!isBlank ·)) hstop, List.append_nil]
  have hdrop : (word ++ c :: cs).dropWhile (!isBlank ·) = c :: cs := by
    rw [List.dropWhile_append_of_pos hnot,
      List.dropWhile_cons_of_neg (p := (!isBlank ·)) hstop]
  have hrest : trimStart (c :: cs) = trimStart cs := List.dropWhile_cons_of_pos hblank
  obtain ⟨d, ds, rfl⟩ := List.exists_cons_of_ne_nil hne
  have hstart : trimStart (d :: ds ++ c :: cs) = d :: (ds ++ c :: cs) :=
    trimStart_eq_self fun e he => Option.some.inj he ▸ hword d List.mem_cons_self
  rw [firstWord?, hstart]
  show some ((d :: ds ++ c :: cs).takeWhile (!isBlank ·),
    trimStart ((d :: ds ++ c :: cs).dropWhile (!isBlank ·))) = _
  rw [htake, hdrop, hrest]

end Reckoner.Unicode
