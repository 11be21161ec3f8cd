import Reckoner.Proofs.Search.Complete
import Reckoner.Proofs.Unicode.Fold

/-!
# The marks of a calculation

A text is taken for a calculation if it shows one of four marks at some place: an operator, a
parenthesis, the word for the last answer or a name behind a dollar sign, a number with a unit.
This module says for each of them where it is (`occursIn_fold_iff`, `refersToVariable_iff`,
`hasUnit_iff`), so that it can be found in the tokens of the text and the other way round.

Each mark has a character that is no digit and no point. So the test for a number alone, which is
made first, never hides one, and a text in which no item is named looks like a calculation exactly
if it has a mark (`looksLikeCalculation_iff`).
-/

namespace Reckoner.Search

open Unicode (foldChar isBlank isDecimal isLetter isWordChar trim trimStart)

variable {text word : List Char}

/-! ## Places in a text -/

theorem anywhere_append {p : List Char → Bool} {back : List Char} (h : p back = true)
    (front : List Char) : anywhere p (front ++ back) = true := by
  induction front with
  | nil =>
    cases back with
    | nil => exact h
    | cons c back => rw [List.nil_append, anywhere, h, Bool.true_or]
  | cons c front ih => rw [List.cons_append, anywhere, ih, Bool.or_true]

/-- **What holds at some place** holds of a part of the text that goes to its end. -/
theorem anywhere_iff {p : List Char → Bool} :
    anywhere p text = true ↔ ∃ front back, text = front ++ back ∧ p back = true := by
  refine ⟨exists_of_anywhere, ?_⟩
  rintro ⟨front, back, rfl, h⟩
  exact anywhere_append h front

/-- **A word occurs** where the text goes on with it. -/
theorem occursIn_iff :
    occursIn word text = true ↔ ∃ front back, text = front ++ (word ++ back) := by
  induction text with
  | nil =>
    rw [occursIn, List.isEmpty_iff]
    constructor
    · rintro rfl
      exact ⟨[], [], rfl⟩
    · rintro ⟨front, back, h⟩
      exact (List.append_eq_nil_iff.mp (List.append_eq_nil_iff.mp h.symm).2).1
  | cons c text ih =>
    rw [occursIn, Bool.or_eq_true, ih, List.isPrefixOf_iff_prefix]
    constructor
    · rintro (⟨back, h⟩ | ⟨front, back, rfl⟩)
      · exact ⟨[], back, h.symm⟩
      · exact ⟨c :: front, back, rfl⟩
    · rintro ⟨front, back, h⟩
      cases front with
      | nil => exact .inl ⟨back, h.symm⟩
      | cons d front =>
        obtain ⟨rfl, rfl⟩ := List.cons.inj h
        exact .inr ⟨front, back, rfl⟩

/-- **A word occurs in any letter case** where characters stand that count as its letters. -/
theorem occursIn_fold_iff : occursIn word (fold text) = true
    ↔ ∃ front letters back, text = front ++ (letters ++ back) ∧ fold letters = word := by
  rw [occursIn_iff]
  constructor
  · rintro ⟨front, back, h⟩
    obtain ⟨as, rest, rfl, rfl, hrest⟩ := List.map_eq_append_iff.mp h
    obtain ⟨letters, bs, rfl, hletters, rfl⟩ := List.map_eq_append_iff.mp hrest
    exact ⟨as, letters, bs, rfl, hletters⟩
  · rintro ⟨front, letters, back, rfl, rfl⟩
    exact ⟨fold front, fold back, by rw [fold, List.map_append, List.map_append]; rfl⟩

/-! ## Words that marks are made of -/

/-- **A word of small letters** other than `x`. Its letters stay together when a text is cut into
tokens. -/
def IsPlainWord (word : List Char) : Prop := ∀ d ∈ word, d.isAlpha = true ∧ d ≠ 'x'

instance (word : List Char) : Decidable (IsPlainWord word) :=
  List.decidableBAll (fun d : Char => d.isAlpha = true ∧ d ≠ 'x') word

theorem isPlainWord_ans : IsPlainWord "ans".toList := by decide +kernel

theorem isPlainWord_unit (u : UnitSuffix) : u.text.toList ≠ [] ∧ IsPlainWord u.text.toList := by
  cases u <;> decide +kernel

/-- **What counts as a letter of such a word** goes on with a name, and is no digit. -/
theorem IsPlainWord.of_fold {letters : List Char} (hword : IsPlainWord word)
    (h : fold letters = word) :
    ∀ c ∈ letters, isLetter c = true ∧ isDecimal c = false ∧ isBareChar c = true := by
  intro c hc
  obtain ⟨halpha, hne⟩ := hword (foldChar c) (h ▸ List.mem_map_of_mem hc)
  obtain ⟨hletter, hdecimal⟩ := Unicode.isLetter_of_foldChar halpha
  refine ⟨hletter, hdecimal, ?_⟩
  have htimes : isTimesLetter c = false := by
    by_contra htimes
    obtain rfl | rfl := isTimesLetter_iff.mp (Bool.not_eq_false _ ▸ htimes)
    · exact hne (by decide)
    · exact hne (by decide)
  rw [isBareChar, isWordChar_of_isLetter hletter, htimes]
  rfl

/-- What counts as the letters of a unit is not empty, and goes on with a name. -/
theorem letters_of_unit {letters : List Char} {u : UnitSuffix} (h : fold letters = u.text.toList) :
    letters ≠ []
      ∧ ∀ c ∈ letters, isLetter c = true ∧ isDecimal c = false ∧ isBareChar c = true := by
  obtain ⟨hne, hword⟩ := isPlainWord_unit u
  refine ⟨?_, hword.of_fold h⟩
  rintro rfl
  exact hne h.symm

/-! ## The four marks -/

/-- **The last answer or a variable** is referred to by its word, or behind a dollar sign. -/
theorem refersToVariable_iff : refersToVariable text = true
    ↔ (∃ front letters back, text = front ++ (letters ++ back) ∧ fold letters = "ans".toList)
      ∨ ∃ front c back, text = front ++ '$' :: c :: back ∧ isWordChar c = true := by
  rw [refersToVariable, Bool.or_eq_true, occursIn_fold_iff, anywhere_iff]
  refine or_congr_right ⟨?_, ?_⟩
  · rintro ⟨front, back, rfl, h⟩
    split at h
    · next c back => exact ⟨front, c, back, rfl, h⟩
    · cases h
  · rintro ⟨front, c, back, rfl, h⟩
    exact ⟨front, _, rfl, h⟩

/-- **A number with a unit**: a digit, blanks, and characters that count as the letters of a unit,
which may end there. -/
theorem hasUnit_iff : hasUnit text = true
    ↔ ∃ front d blanks letters back, text = front ++ d :: (blanks ++ (letters ++ back))
      ∧ isDecimal d = true ∧ (∀ b ∈ blanks, isBlank b = true)
      ∧ (∃ u : UnitSuffix, fold letters = u.text.toList) ∧ endsUnit back = true := by
  rw [hasUnit, anywhere_iff]
  constructor
  · rintro ⟨front, back, rfl, h⟩
    cases back with
    | nil => cases h
    | cons d rest =>
      obtain ⟨hd, hunit⟩ := Bool.and_eq_true_iff.mp h
      obtain ⟨u, -, hunit⟩ := List.any_eq_true.mp hunit
      obtain ⟨hletters, hends⟩ := Bool.and_eq_true_iff.mp hunit
      refine ⟨front, d, rest.takeWhile isBlank, (trimStart rest).take u.text.toList.length,
        (trimStart rest).drop u.text.toList.length, ?_, hd,
        fun b hb => List.mem_takeWhile_imp hb, ⟨u, eq_of_beq hletters⟩, hends⟩
      rw [List.take_append_drop, trimStart, List.takeWhile_append_dropWhile]
  · rintro ⟨front, d, blanks, letters, back, rfl, hd, hblanks, ⟨u, hu⟩, hends⟩
    obtain ⟨hne, hletters⟩ := letters_of_unit hu
    obtain ⟨hbegins, hdrop⟩ := beginsWith_append hu back
    obtain ⟨c, cs, rfl⟩ := List.exists_cons_of_ne_nil hne
    have hstart : trimStart (blanks ++ (c :: cs ++ back)) = c :: cs ++ back := by
      rw [Unicode.trimStart_append_of_blank hblanks]
      refine Unicode.trimStart_eq_self fun e he => ?_
      obtain rfl := Option.some.inj he
      exact Unicode.isBlank_of_isWordChar
        (isWordChar_of_isLetter (hletters c List.mem_cons_self).1)
    refine ⟨front, _, rfl, ?_⟩
    show (isDecimal d && beginsWithUnit (trimStart (blanks ++ (c :: cs ++ back)))) = true
    rw [hd, hstart, Bool.true_and, beginsWithUnit]
    refine List.any_eq_true.mpr ⟨u, by cases u <;> decide, ?_⟩
    show (beginsWith u.text.toList _ && endsUnit (List.drop u.text.toList.length _)) = true
    rw [hbegins, hdrop, hends]
    rfl

/-! ## Texts with a mark -/

/-- **Whether a text has a mark** of a calculation. -/
def hasMark (text : List Char) : Bool :=
  text.any isOperator || text.any isParenthesis || refersToVariable text || hasUnit text

/-- A number alone is made of digits and a point. -/
theorem isDecimal_of_isNumberOnly (h : isNumberOnly text = true) :
    ∀ c ∈ text, isDecimal c = true ∨ c = '.' := by
  rw [isNumberOnly, Bool.and_eq_true] at h
  obtain ⟨-, hrest⟩ := h
  rw [← List.takeWhile_append_dropWhile (p := isDecimal) (l := text), List.forall_mem_append]
  refine ⟨fun c hc => .inl (List.mem_takeWhile_imp hc), ?_⟩
  split at hrest
  · next places heq =>
    rw [heq, List.forall_mem_cons]
    exact ⟨.inr rfl, fun c hc => .inl (List.all_eq_true.mp hrest c hc)⟩
  · rw [List.isEmpty_iff.mp hrest]
    nofun

/-- **What is such a word in lower case** counts as this word. -/
theorem IsPlainWord.fold_eq {letters : List Char} (hword : IsPlainWord word)
    (h : Unicode.lower letters = word) : fold letters = word :=
  Unicode.map_foldChar_of_lower_eq h fun d hd => (hword d hd).1

/-- The letters of a word are no digits, and no points. -/
theorem IsPlainWord.exists_of_fold {letters : List Char} (hword : IsPlainWord word)
    (hne : word ≠ []) (h : fold letters = word) :
    ∃ c ∈ letters, isDecimal c = false ∧ c ≠ '.' := by
  obtain ⟨c, cs, rfl⟩ := List.exists_cons_of_ne_nil fun hnil : letters = [] =>
    hne (by rw [← h, hnil]; rfl)
  obtain ⟨hletter, hdecimal, -⟩ := hword.of_fold h c List.mem_cons_self
  refine ⟨c, List.mem_cons_self, hdecimal, ?_⟩
  rintro rfl
  exact absurd hletter (by decide)

/-- **Every mark** has a character that is no digit and no point. -/
theorem exists_of_hasMark (h : hasMark text = true) :
    ∃ c ∈ text, isDecimal c = false ∧ c ≠ '.' := by
  have hsign {p : Char → Bool} (hp : ∀ c, isPlain c = true → p c = false)
      (h : text.any p = true) : ∃ c ∈ text, isDecimal c = false ∧ c ≠ '.' := by
    obtain ⟨c, hc, hpc⟩ := List.any_eq_true.mp h
    have hplain : ¬ isPlain c = true := fun hplain => by
      rw [hp c hplain] at hpc
      cases hpc
    exact ⟨c, hc, Bool.eq_false_of_not_eq_true fun hdecimal =>
      hplain (isPlain_of_isDecimal (.inl hdecimal)), fun hpoint =>
      hplain (isPlain_of_isDecimal (.inr hpoint))⟩
  rw [hasMark, Bool.or_eq_true, Bool.or_eq_true, Bool.or_eq_true] at h
  obtain ((hoperator | hparenthesis) | hvariable) | hunit := h
  · exact hsign (fun c => isOperator_of_isPlain) hoperator
  · exact hsign (fun c => isParenthesis_of_isPlain) hparenthesis
  · obtain ⟨front, letters, back, rfl, h⟩ | ⟨front, c, back, rfl, -⟩ :=
      refersToVariable_iff.mp hvariable
    · obtain ⟨c, hc, hnot⟩ := isPlainWord_ans.exists_of_fold (by decide) h
      exact ⟨c, by simp [hc], hnot⟩
    · exact ⟨'$', by simp, by decide⟩
  · obtain ⟨front, d, blanks, letters, back, rfl, -, -, ⟨u, h⟩, -⟩ := hasUnit_iff.mp hunit
    obtain ⟨c, hc, hnot⟩ := (isPlainWord_unit u).2.exists_of_fold (isPlainWord_unit u).1 h
    exact ⟨c, by simp [hc], hnot⟩

/-- **A text in which no item is named** looks like a calculation exactly if it has a mark. -/
theorem looksLikeCalculation_iff (hitem : namesItem (trim text) = false) :
    looksLikeCalculation text = true ↔ hasMark (trim text) = true := by
  have hlooks : looksLikeCalculation text
      = if (trim text).isEmpty || isNumberOnly (trim text) then false
        else hasMark (trim text) := by
    rw [looksLikeCalculation]
    simp only [hitem, Bool.false_and, Bool.false_eq_true, if_false]
    rfl
  rw [hlooks]
  split
  · next hnone =>
    refine iff_of_false Bool.false_ne_true fun hmark => ?_
    obtain ⟨c, hc, hdecimal, hpoint⟩ := exists_of_hasMark hmark
    obtain hempty | hnumber := Bool.or_eq_true_iff.mp hnone
    · rw [List.isEmpty_iff.mp hempty] at hc
      cases hc
    · obtain h | h := isDecimal_of_isNumberOnly hnumber c hc
      · rw [hdecimal] at h
        cases h
      · exact hpoint h
  · exact Iff.rfl

end Reckoner.Search
