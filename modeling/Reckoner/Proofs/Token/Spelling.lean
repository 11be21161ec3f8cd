import Reckoner.Proofs.Token.Layout
import Reckoner.Proofs.Unicode.Blank

/-!
# The characters of a token

Operators and parentheses are *signs*: each is spelled with a character of its own,
or with the letter that multiplies. Every other token is a number or a name, and is
spelled with plain characters: letters, numerals and the low line, a point, a dollar
sign (`isPlain_of_tokenize`). No sign is plain, and no blank is. So which signs a
token has can be read off its lexeme, and no token has a blank in it: the characters
of a line that are not blank are those of its tokens
(`filter_not_isBlank_of_tokenize`). Invisible format characters are neither blank nor
in a token, so a line that holds one has no tokens at all (`isFormat_of_tokenize`).
-/

namespace Reckoner

open Unicode (isBlank isDecimal isWordChar)

/-- Whether a lexeme is an operator or a parenthesis. -/
def Lexeme.isSign : Lexeme → Bool
  | .operator _ | .opening | .closing => true
  | _ => false

/-- **Whether a character may stand in a number or a name.** -/
def isPlain (c : Char) : Bool := isWordChar c || c == '.' || c == '$'

theorem isPlain_of_isWordChar {c : Char} (h : isWordChar c = true) : isPlain c = true := by
  rw [isPlain, h]
  rfl

theorem isWordChar_of_isDecimal {c : Char} (h : isDecimal c = true) : isWordChar c = true := by
  rw [isWordChar, Unicode.isAlphanumeric, h, Bool.or_true, Bool.true_or, Bool.or_true]

theorem isWordChar_of_isLetter {c : Char} (h : Unicode.isLetter c = true) :
    isWordChar c = true := by
  rw [isWordChar, Unicode.isAlphanumeric, h, Bool.true_or, Bool.true_or, Bool.or_true]

/-- A plain character is not blank. -/
theorem isBlank_of_isPlain {c : Char} (h : isPlain c = true) : isBlank c = false := by
  rw [isPlain, Bool.or_eq_true, Bool.or_eq_true, beq_iff_eq, beq_iff_eq] at h
  obtain (hword | rfl) | rfl := h
  · exact Unicode.isBlank_of_isWordChar hword
  · decide
  · decide

/-- **The characters that signs are spelled with.** -/
def signChars : List Char := ['+', '-', '*', '/', '^', '%', 'x', 'X', '(', ')']

/-- No sign is blank. -/
theorem isBlank_of_mem_signChars {c : Char} (h : c ∈ signChars) : isBlank c = false := by
  have hall : signChars.all (!isBlank ·) = true := by decide
  simpa using List.all_eq_true.mp hall c h

/-- A sign is spelled with one character. -/
theorem Lexeme.IsSpelled.exists_signChar {answer : Decimal} {lexeme : Lexeme}
    {spelling : List Char} (h : lexeme.IsSpelled answer spelling) (hsign : lexeme.isSign = true) :
    ∃ d ∈ signChars, spelling = [d] := by
  cases lexeme with
  | operator op =>
    obtain rfl | ⟨-, rfl | rfl⟩ := h
    · exact ⟨op.symbol, by cases op <;> decide, rfl⟩
    · exact ⟨'x', by decide, rfl⟩
    · exact ⟨'X', by decide, rfl⟩
  | opening => exact ⟨'(', by decide, h⟩
  | closing => exact ⟨')', by decide, h⟩
  | _ => cases hsign

/-! ## One token -/

variable {left : Left} {c : Char} {cs : List Char} {lexeme : Lexeme} {more : Nat}

/-- A literal is written with digits and a point. -/
theorem IsLiteral.forall_mem {spelling : List Char} {x : Scaled} (h : IsLiteral spelling x) :
    ∀ d ∈ spelling, isDecimal d = true ∨ d = '.' := by
  obtain ⟨whole, places, hspelling, -, hdigits, -⟩ := h
  obtain ⟨hwhole, hplaces⟩ := List.forall_mem_append.mp hdigits
  obtain ⟨-, rfl⟩ | rfl := hspelling
  · exact fun d hd => .inl (hwhole d hd)
  · exact List.forall_mem_append.mpr ⟨fun d hd => .inl (hwhole d hd),
      List.forall_mem_cons.mpr ⟨.inr rfl, fun d hd => .inl (hplaces d hd)⟩⟩

/-- Digits and points are plain characters. -/
theorem isPlain_of_isDecimal {d : Char} (h : isDecimal d = true ∨ d = '.') : isPlain d = true := by
  obtain hdecimal | rfl := h
  · exact isPlain_of_isWordChar (isWordChar_of_isDecimal hdecimal)
  · rfl

/-- No token begins with a blank. -/
theorem Cut.isBlank_eq (h : Cut left c cs lexeme more) : isBlank c = false := by
  cases h with
  | numeral starts numeralAt_eq =>
    obtain hdecimal | rfl := starts
    · exact Unicode.isBlank_of_isWordChar (isWordChar_of_isDecimal hdecimal)
    · decide
  | @operator op symbol_eq =>
    rw [← symbol_eq]
    cases op <;> decide
  | times isTimes multiplies =>
    obtain rfl | rfl := isTimesLetter_iff.mp isTimes <;> decide
  | opening eq_opening => rw [eq_opening]; decide
  | closing eq_closing => rw [eq_closing]; decide
  | dollar eq_dollar => rw [eq_dollar]; decide
  | bare isLetter not_decimal not_times =>
    exact Unicode.isBlank_of_isWordChar (isWordChar_of_isLetter isLetter)

/-- **A number or a name is spelled with plain characters.** -/
theorem isPlain_of_lexemeAt (h : lexemeAt left c cs = .ok (lexeme, more))
    (hsign : lexeme.isSign = false) : ∀ d ∈ c :: cs.take more, isPlain d = true := by
  cases cut_of_lexemeAt h with
  | numeral starts numeralAt_eq =>
    obtain ⟨-, -, x, -, hliteral⟩ := isSpelled_of_numeralAt (.ofNat 0) starts numeralAt_eq
    exact fun d hd => isPlain_of_isDecimal (hliteral.forall_mem d hd)
  | dollar eq_dollar =>
    rw [take_length_takeWhile, eq_dollar]
    exact List.forall_mem_cons.mpr
      ⟨rfl, fun d hd => isPlain_of_isWordChar (List.mem_takeWhile_imp hd)⟩
  | bare isLetter not_decimal not_times =>
    rw [take_length_takeWhile]
    refine List.forall_mem_cons.mpr
      ⟨isPlain_of_isWordChar (isWordChar_of_isLetter isLetter), fun d hd => ?_⟩
    have hbare : isBareChar d = true := List.mem_takeWhile_imp hd
    exact isPlain_of_isWordChar (Bool.and_eq_true_iff.mp hbare).1
  | _ => cases hsign

/-! ## All tokens -/

variable {position : Nat} {line : List Char} {tokens : List Token}

theorem isPlain_of_tokensFrom (h : tokensFrom position left cs = .ok tokens) :
    ∀ token ∈ tokens, token.lexeme.isSign = false → ∀ d ∈ token.spelling, isPlain d = true := by
  fun_induction tokensFrom position left cs generalizing tokens with
  | case1 position left =>
    obtain rfl := Except.ok.inj h
    exact fun token htoken => absurd htoken List.not_mem_nil
  | case2 position left c cs hblank ih => exact ih h
  | case3 position left c cs hblank cause hlexeme => cases h
  | case4 position left c cs hblank lexeme more hlexeme spelling next =>
    rename_i ih
    obtain ⟨tokens, htokens, rfl⟩ := exists_of_map_eq_ok h
    exact List.forall_mem_cons.mpr ⟨isPlain_of_lexemeAt hlexeme, ih htokens⟩

/-- **The numbers and names of a line** are spelled with plain characters. -/
theorem isPlain_of_tokenize (h : tokenize line = .ok tokens) :
    ∀ token ∈ tokens, token.lexeme.isSign = false → ∀ d ∈ token.spelling, isPlain d = true :=
  isPlain_of_tokensFrom h

/-- A token has no blank in it. -/
theorem isBlank_of_mem_spelling (h : tokenize line = .ok tokens) :
    ∀ token ∈ tokens, ∀ d ∈ token.spelling, isBlank d = false := by
  intro token htoken
  cases hsign : token.lexeme.isSign with
  | false => exact fun d hd => isBlank_of_isPlain (isPlain_of_tokenize h token htoken hsign d hd)
  | true =>
    have hspelled := isSpelled_of_tokenize h token htoken
    obtain ⟨d, hd, hspelling⟩ := hspelled.exists_signChar hsign
    rw [hspelling, List.forall_mem_singleton]
    exact isBlank_of_mem_signChars hd

/-- **What is kept of a line**, blanks aside, is what is kept of its tokens. -/
theorem Layout.filter_eq {answer : Decimal} {p : Char → Bool}
    (h : Layout answer position cs tokens) (hp : ∀ c, isBlank c = true → p c = false) :
    cs.filter p = tokens.flatMap fun token => token.spelling.filter p := by
  induction h with
  | finished position => rfl
  | blank isBlank rest ih =>
    rw [List.filter_cons_of_neg (by rw [hp _ isBlank]; exact Bool.false_ne_true), ih]
  | token ne_nil isSpelled rest ih => rw [List.filter_append, List.flatMap_cons, ih]

/-- **The characters of a line that are not blank** are those of its tokens. -/
theorem filter_not_isBlank_of_tokenize (h : tokenize line = .ok tokens) :
    line.filter (!isBlank ·) = tokens.flatMap (·.spelling) := by
  rw [(layout_of_tokensFrom (.ofNat 0) h).filter_eq fun c hc => by rw [hc]; rfl]
  refine List.flatMap_congr fun token htoken => List.filter_eq_self.mpr fun d hd => ?_
  rw [isBlank_of_mem_spelling h token htoken d hd]
  rfl

/-- No sign is a format character. -/
theorem isFormat_of_mem_signChars {c : Char} (h : c ∈ signChars) :
    Unicode.isFormat c = false := by
  have hall : signChars.all (!Unicode.isFormat ·) = true := by decide
  simpa using List.all_eq_true.mp hall c h

/-- A plain character is no format character. -/
theorem isFormat_of_isPlain {c : Char} (h : isPlain c = true) : Unicode.isFormat c = false := by
  by_contra hformat
  obtain ⟨hascii, -, hword⟩ := Unicode.isFormat_spec (Bool.not_eq_false _ ▸ hformat)
  rw [isPlain, hword, Bool.false_or, Bool.or_eq_true, beq_iff_eq, beq_iff_eq] at h
  obtain rfl | rfl := h <;> exact absurd hascii (by decide)

/-- **A line with tokens** has no format character in it. -/
theorem isFormat_of_tokenize (h : tokenize line = .ok tokens) :
    ∀ c ∈ line, Unicode.isFormat c = false := by
  intro c hc
  by_contra hformat
  obtain ⟨-, hblank, -⟩ := Unicode.isFormat_spec (Bool.not_eq_false _ ▸ hformat)
  have hmem : c ∈ line.filter (!isBlank ·) := List.mem_filter.mpr ⟨hc, by rw [hblank]; rfl⟩
  rw [filter_not_isBlank_of_tokenize h, List.mem_flatMap] at hmem
  obtain ⟨token, htoken, hc⟩ := hmem
  cases hsign : token.lexeme.isSign with
  | false => exact hformat (isFormat_of_isPlain (isPlain_of_tokenize h token htoken hsign c hc))
  | true =>
    have hspelled := isSpelled_of_tokenize h token htoken
    obtain ⟨d, hd, hspelling⟩ := hspelled.exists_signChar hsign
    rw [hspelling, List.mem_singleton] at hc
    exact hformat (hc ▸ isFormat_of_mem_signChars hd)

/-- A blank line has no tokens. -/
theorem tokensFrom_of_isBlankText {line : List Char} (h : Unicode.isBlankText line = true)
    (position : Nat) (left : Left) : tokensFrom position left line = .ok [] := by
  induction line generalizing position left with
  | nil => rw [tokensFrom]
  | cons c cs ih =>
    rw [Unicode.isBlankText, List.all_cons, Bool.and_eq_true] at h
    rw [tokensFrom, if_pos h.1]
    exact ih h.2 (position + 1) { left with before := some c }

/-- **A line is blank** if it has no tokens, and only then. -/
theorem isBlankText_iff_of_tokenize (h : tokenize line = .ok tokens) :
    Unicode.isBlankText line = true ↔ tokens = [] := by
  refine ⟨fun hblank => ?_, ?_⟩
  · exact Except.ok.inj (h.symm.trans (tokensFrom_of_isBlankText hblank 0 .start))
  · rintro rfl
    refine List.all_eq_true.mpr fun c hc => ?_
    have hfilter : line.filter (!isBlank ·) = [] := filter_not_isBlank_of_tokenize h
    simpa using List.filter_eq_nil_iff.mp hfilter c hc

end Reckoner
