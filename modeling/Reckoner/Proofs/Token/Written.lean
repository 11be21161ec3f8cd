import Reckoner.Proofs.Decimal.DigitText
import Reckoner.Proofs.Decimal.Value
import Reckoner.Proofs.Token.Spelling

/-!
# A number that is written in a line

Texts that the calculator writes itself use ASCII digits, with at least one
before a point. Such a numeral is cut out of a line as one token, wherever it
stands, as long as neither a digit nor a point follows it
(`tokensFrom_numeral`). Its value is read off its digits in the usual way
(`Numeral.toRat_value`): the ASCII digits are one of the many rows of decimal
digits, with the same values. The shortest numeral is a one; it is what the text of
an operand comes down to, with parentheses around it (`exists_tokensFrom_one`).
-/

namespace Reckoner

open Unicode (isDecimal)

variable {c : Char} {cs : List Char}

/-! ## ASCII digits -/

/-- A code point in the first of the ranges is found there. -/
theorem contains_of_le_of_le {low high n : ℕ} (rest : Unicode.Ranges) (hlow : low ≤ n)
    (hhigh : n ≤ high) : Unicode.Ranges.contains ((low, high) :: rest) n = true := by
  rw [Unicode.Ranges.contains, if_neg (not_lt.mpr hlow), decide_eq_true hhigh, Bool.true_or]

/-- A digit of the first row counts from the start of it. -/
theorem rowValue_of_le_of_lt {low high n : ℕ} (rest : Unicode.Ranges) (hhigh : n ≤ high)
    (hrow : n < low + 10) : Unicode.rowValue ((low, high) :: rest) n = n - low := by
  rw [Unicode.rowValue, if_pos hhigh, Nat.mod_eq_of_lt (by omega)]

theorem isDecimal_of_isDigit (h : c.isDigit = true) : isDecimal c = true := by
  obtain ⟨hlow, hhigh⟩ := Char.isDigit_iff_toNat.mp h
  exact contains_of_le_of_le _ hlow hhigh

theorem decimalValue_of_isDigit (h : c.isDigit = true) :
    Unicode.decimalValue c = c.toNat - '0'.toNat := by
  have hhigh : c.toNat ≤ 57 := (Char.isDigit_iff_toNat.mp h).2
  exact rowValue_of_le_of_lt _ hhigh (Nat.lt_succ_of_le hhigh)

/-- Rows of ASCII digits have the value they have as digits of any script. -/
theorem IsDigits.digitsValue_eq (h : IsDigits cs) : Unicode.digitsValue cs = digitsValue cs := by
  refine List.foldl_ext _ _ 0 fun n c hc => ?_
  rw [decimalValue_of_isDigit (h c hc)]

/-! ## Numerals -/

/-- **A numeral of ASCII digits**, at least one of them before the point. -/
structure Numeral.IsAscii (n : Numeral) : Prop where
  ne_nil : n.whole ≠ []
  whole : IsDigits n.whole
  fraction : IsDigits (n.fraction.getD [])

namespace Numeral.IsAscii

variable {n : Numeral}

/-- **The value of a numeral** is that of its digits, those behind the point
standing for tenths, hundredths and so on. -/
theorem toRat_value (h : n.IsAscii) :
    n.value.toRat = digitsValue n.whole
      + (digitsValue (n.fraction.getD []) : ℚ) / 10 ^ (n.fraction.getD []).length := by
  have hdigits : Unicode.digitsValue (n.whole ++ n.fraction.getD [])
      = digitsValue (n.whole ++ n.fraction.getD []) :=
    (isDigits_append.mpr ⟨h.whole, h.fraction⟩).digitsValue_eq
  show (1 : ℚ) * (Unicode.digitsValue (n.whole ++ n.fraction.getD []) : ℕ)
    * 10 ^ (-((n.fraction.getD []).length : ℤ)) = _
  rw [hdigits, digitsValue_append, zpow_neg, zpow_natCast]
  push_cast
  field_simp

/-- A numeral begins with a digit. -/
theorem exists_chars (h : n.IsAscii) :
    ∃ c cs, n.chars = c :: cs ∧ c.isDigit = true := by
  obtain ⟨c, cs, hwhole⟩ := List.exists_cons_of_ne_nil h.ne_nil
  have hc : c.isDigit = true := h.whole c (hwhole ▸ List.mem_cons_self)
  unfold Numeral.chars
  rw [hwhole]
  cases n.fraction with
  | none => exact ⟨c, cs, rfl, hc⟩
  | some places => exact ⟨c, cs ++ '.' :: places, rfl, hc⟩

end Numeral.IsAscii

/-- **What may follow a number**: neither a digit nor a point, which would go on
with it. -/
def EndsNumber (tail : List Char) : Prop := ∀ d ∈ tail.head?, isDecimal d = false ∧ d ≠ '.'

theorem endsNumber_nil : EndsNumber [] := nofun

/-- Digits are taken as far as they go. -/
theorem takeWhile_digits_append {digits tail : List Char} (h : ∀ d ∈ digits, isDecimal d = true)
    (htail : ∀ d ∈ tail.head?, isDecimal d = false) :
    (digits ++ tail).takeWhile isDecimal = digits
      ∧ (digits ++ tail).dropWhile isDecimal = tail := by
  rw [List.takeWhile_append_of_pos h, List.dropWhile_append_of_pos h]
  cases tail with
  | nil => exact ⟨List.append_nil digits, rfl⟩
  | cons d tail =>
    have hd := htail d rfl
    rw [List.takeWhile_cons_of_neg (by simp [hd]), List.dropWhile_cons_of_neg (by simp [hd])]
    exact ⟨List.append_nil digits, rfl⟩

variable {n : Numeral} {tail : List Char}

theorem Numeral.IsAscii.isProper (h : n.IsAscii) : n.IsProper :=
  ⟨List.append_ne_nil_of_left_ne_nil h.ne_nil _, List.forall_mem_append.mpr
    ⟨fun d hd => isDecimal_of_isDigit (h.whole d hd),
      fun d hd => isDecimal_of_isDigit (h.fraction d hd)⟩⟩

/-- **A numeral is read whole**, whatever follows it. -/
theorem numeralAt_of_isProper (h : n.IsProper) (hchars : n.chars = c :: cs)
    (htail : EndsNumber tail) : numeralAt c (cs ++ tail) = .ok (.number n, cs.length) := by
  obtain ⟨hne, hdigits⟩ := h
  obtain ⟨hwhole, hfraction⟩ := List.forall_mem_append.mp hdigits
  have hdigit {d : Char} (hd : isDecimal d = true) : d ≠ '.' := by
    rintro rfl
    exact absurd hd (by decide)
  have hplaces {places : List Char} (hplaces : ∀ d ∈ places, isDecimal d = true) :
      (places ++ tail).takeWhile isDecimal = places :=
    (takeWhile_digits_append hplaces fun d hd => (htail d hd).1).1
  obtain ⟨whole, fraction⟩ := n
  cases whole with
  | nil =>
    cases fraction with
    | none => exact absurd rfl hne
    | some places =>
      obtain ⟨rfl, rfl⟩ := List.cons.inj hchars
      have hplaces : (places ++ tail).takeWhile isDecimal = places := hplaces hfraction
      rw [numeralAt, if_pos rfl]
      simp only [hplaces]
      exact if_neg (by simpa using hne)
  | cons first more =>
    obtain ⟨hfirst, hmore⟩ := List.forall_mem_cons.mp hwhole
    cases fraction with
    | none =>
      obtain ⟨rfl, rfl⟩ := List.cons.inj hchars
      obtain ⟨htake, hdrop⟩ := takeWhile_digits_append hmore fun d hd => (htail d hd).1
      rw [numeralAt, if_neg (hdigit hfirst), htake, hdrop]
      cases tail with
      | nil => rfl
      | cons d tail =>
        have hd := (htail d rfl).2
        split
        · next heq => exact absurd (List.cons.inj heq).1 hd
        · rfl
    | some places =>
      obtain ⟨rfl, rfl⟩ := List.cons.inj hchars
      have hends : ∀ d ∈ ('.' :: (places ++ tail)).head?, isDecimal d = false := by
        rintro _ ⟨⟩
        decide
      obtain ⟨htake, hdrop⟩ := takeWhile_digits_append hmore hends
      have hplaces : (places ++ tail).takeWhile isDecimal = places := hplaces hfraction
      show numeralAt first (more ++ '.' :: places ++ tail)
        = .ok (_, (more ++ '.' :: places).length)
      rw [List.append_assoc, List.cons_append, numeralAt, if_neg (hdigit hfirst), htake, hdrop]
      simp only [hplaces]
      rw [List.length_append, List.length_cons, Nat.add_assoc, Nat.add_comm 1]

/-- **A numeral is one token** of the line it stands in. -/
theorem tokensFrom_numeral (h : n.IsAscii) (htail : EndsNumber tail) (position : ℕ) (left : Left) :
    tokensFrom position left (n.chars ++ tail)
      = (tokensFrom (position + n.chars.length) ⟨n.chars.getLast?, some (.number n)⟩ tail).map
        fun tokens => ⟨.number n, n.chars, position⟩ :: tokens := by
  obtain ⟨c, cs, hchars, hc⟩ := h.exists_chars
  have hblank : Unicode.isBlank c = false :=
    Unicode.isBlank_of_isWordChar (isWordChar_of_isDecimal (isDecimal_of_isDigit hc))
  have hlexeme : lexemeAt left c (cs ++ tail) = .ok (.number n, cs.length) := by
    rw [lexemeAt, isDecimal_of_isDigit hc, Bool.true_or, if_pos rfl]
    exact numeralAt_of_isProper h.isProper hchars htail
  rw [hchars, List.cons_append, tokensFrom, hblank, if_neg Bool.false_ne_true, hlexeme]
  dsimp only
  rw [List.take_left, List.drop_left, List.length_cons, Nat.add_assoc]

/-! ## A one, and parentheses that are closed -/

theorem lexemeAt_closing (left : Left) (cs : List Char) :
    lexemeAt left ')' cs = .ok (.closing, 0) :=
  (Cut.closing rfl).lexemeAt_eq

/-- Closing parentheses are cut into as many tokens. -/
theorem exists_tokensFrom_closings (missing position : ℕ) (left : Left) :
    ∃ closings, tokensFrom position left (List.replicate missing ')') = .ok closings
      ∧ closings.length = missing ∧ ∀ closing ∈ closings, closing.lexeme = .closing := by
  induction missing generalizing position left with
  | zero => exact ⟨[], by rw [List.replicate_zero, tokensFrom], rfl, by simp⟩
  | succ missing ih =>
    obtain ⟨closings, htokens, hlength, hclosings⟩ :=
      ih (position + 0 + 1) ⟨[')'].getLast?, some .closing⟩
    refine ⟨⟨.closing, [')'], position⟩ :: closings, ?_, congrArg Nat.succ hlength,
      List.forall_mem_cons.mpr ⟨rfl, hclosings⟩⟩
    rw [List.replicate_succ, tokensFrom, if_neg (by decide), lexemeAt_closing]
    dsimp only
    rw [List.take_zero, List.drop_zero, htokens]
    rfl

/-- **A one with closing parentheses behind it** is cut into that many tokens, and one. -/
theorem exists_tokensFrom_one (missing position : ℕ) (left : Left) :
    ∃ (one : Token) (numeral : Numeral) (closings : List Token),
      tokensFrom position left ('1' :: List.replicate missing ')') = .ok (one :: closings)
        ∧ one.lexeme = .number numeral ∧ closings.length = missing
        ∧ ∀ closing ∈ closings, closing.lexeme = .closing := by
  have hone : (⟨['1'], none⟩ : Numeral).IsAscii :=
    ⟨List.cons_ne_nil _ _, List.forall_mem_singleton.mpr rfl, List.forall_mem_nil _⟩
  have hends : EndsNumber (List.replicate missing ')') := by
    intro d hd
    obtain rfl := List.eq_of_mem_replicate (List.mem_of_mem_head? hd)
    decide
  obtain ⟨closings, hclosings, hlength, hlexemes⟩ := exists_tokensFrom_closings missing
    (position + 1) ⟨some '1', some (.number ⟨['1'], none⟩)⟩
  refine ⟨⟨.number ⟨['1'], none⟩, ['1'], position⟩, _, closings, ?_, rfl, hlength, hlexemes⟩
  exact (tokensFrom_numeral hone hends position left).trans (congrArg (Except.map _) hclosings)

end Reckoner
