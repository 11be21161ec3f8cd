import Mathlib.Data.Nat.Notation
import Mathlib.Tactic.Common
import Reckoner.Token.Lexer

/-!
# The token at a place

`lexemeAt` tries one class of tokens after the other, by the first character. The classes
exclude each other, so the order in which they are tried does not matter, and a token can be
described by its own class alone: `Cut` has a constructor for each of them, with what the
class asks of the first character and of the left, what the token means, and how much it
takes of what follows. `lexemeAt_eq_ok_iff` says that this is the same.

What holds of every token is proved by going through these constructors.
-/

namespace Reckoner

open Unicode (isDecimal isLetter isWordChar)

variable {left : Left} {c : Char} {cs : List Char} {lexeme : Lexeme} {more : ℕ}

/-- What starts like a number is one. -/
theorem exists_numeral_of_numeralAt (h : numeralAt c cs = .ok (lexeme, more)) :
    ∃ numeral, lexeme = .number numeral := by
  unfold numeralAt at h
  dsimp only at h
  split at h
  · split at h
    · cases h
    · exact ⟨_, (Prod.mk.inj (Except.ok.inj h)).1.symm⟩
  · split at h
    · exact ⟨_, (Prod.mk.inj (Except.ok.inj h)).1.symm⟩
    · exact ⟨_, (Prod.mk.inj (Except.ok.inj h)).1.symm⟩

/-- What is found by its spelling has that spelling. -/
theorem Operator.symbol_of_ofChar? {op : Operator} (h : Operator.ofChar? c = some op) :
    op.symbol = c := by
  unfold Operator.ofChar? at h
  split at h <;> cases h <;> rfl

/-- The characters of a name without a dollar sign: it ends before an `x`. -/
def isBareChar (c : Char) : Bool := isWordChar c && !isTimesLetter c

/-- **The token that is cut off a text** which begins with `c`: what it means, and how many of
the characters `cs` it takes. -/
inductive Cut (left : Left) (c : Char) (cs : List Char) : Lexeme → ℕ → Prop
  | numeral {n : Numeral} {more : ℕ} (starts : isDecimal c = true ∨ c = '.')
      (numeralAt_eq : numeralAt c cs = .ok (.number n, more)) : Cut left c cs (.number n) more
  | operator {op : Operator} (symbol_eq : op.symbol = c) : Cut left c cs (.operator op) 0
  /-- The letter that multiplies. -/
  | times (isTimes : isTimesLetter c = true) (multiplies : left.multiplies = true) :
      Cut left c cs (.operator .multiply) 0
  | opening (eq_opening : c = '(') : Cut left c cs .opening 0
  | closing (eq_closing : c = ')') : Cut left c cs .closing 0
  /-- A name behind a dollar sign. -/
  | dollar (eq_dollar : c = '$') :
      Cut left c cs (nameLexeme left (cs.takeWhile isWordChar)) (cs.takeWhile isWordChar).length
  /-- A name without a dollar sign. -/
  | bare (isLetter : isLetter c = true) (not_decimal : isDecimal c = false)
      (not_times : isTimesLetter c = true → left.multiplies = false) :
      Cut left c cs (nameLexeme left (c :: cs.takeWhile isBareChar))
        (cs.takeWhile isBareChar).length

theorem cut_of_lexemeAt (h : lexemeAt left c cs = .ok (lexeme, more)) :
    Cut left c cs lexeme more := by
  unfold lexemeAt at h
  split at h
  next hnumber =>
    obtain ⟨n, rfl⟩ := exists_numeral_of_numeralAt h
    exact .numeral (by simpa using hnumber) h
  next hnumber =>
  split at h
  next op hop =>
    obtain ⟨rfl, rfl⟩ := Prod.mk.inj (Except.ok.inj h)
    exact .operator (Operator.symbol_of_ofChar? hop)
  next hop =>
  split at h
  next htimes =>
    obtain ⟨rfl, rfl⟩ := Prod.mk.inj (Except.ok.inj h)
    obtain ⟨hc, hleft⟩ := Bool.and_eq_true_iff.mp htimes
    exact .times hc hleft
  next htimes =>
  split at h
  next hopening =>
    obtain ⟨rfl, rfl⟩ := Prod.mk.inj (Except.ok.inj h)
    exact .opening hopening
  next hopening =>
  split at h
  next hclosing =>
    obtain ⟨rfl, rfl⟩ := Prod.mk.inj (Except.ok.inj h)
    exact .closing hclosing
  next hclosing =>
  split at h
  next hdollar =>
    obtain ⟨rfl, rfl⟩ := Prod.mk.inj (Except.ok.inj h)
    exact .dollar hdollar
  next hdollar =>
  split at h
  next hletter =>
    obtain ⟨rfl, rfl⟩ := Prod.mk.inj (Except.ok.inj h)
    have hdecimal : isDecimal c = false := by
      rw [Bool.or_eq_true, not_or, Bool.not_eq_true] at hnumber
      exact hnumber.1
    refine .bare hletter hdecimal fun hc => eq_false_of_ne_true fun hleft => htimes ?_
    rw [hc, hleft]
    rfl
  next hletter => cases h

/-- A letter that may multiply is an `x`. -/
theorem isTimesLetter_iff : isTimesLetter c = true ↔ c = 'x' ∨ c = 'X' := by
  rw [isTimesLetter, Bool.or_eq_true, beq_iff_eq, beq_iff_eq]

namespace Cut

/-- **A token is cut off by its class**, whichever is tried first. -/
theorem lexemeAt_eq (h : Cut left c cs lexeme more) :
    lexemeAt left c cs = .ok (lexeme, more) := by
  cases h with
  | numeral starts numeralAt_eq => rw [lexemeAt, if_pos (by simpa using starts), numeralAt_eq]
  | @operator op symbol_eq =>
    have hnumber : (isDecimal c || c = '.') = false := by
      rw [← symbol_eq]
      cases op <;> decide
    rw [lexemeAt, hnumber, if_neg Bool.false_ne_true, ← symbol_eq, op.ofChar?_symbol]
  | times isTimes multiplies =>
    have hplain : (isDecimal c || c = '.') = false ∧ Operator.ofChar? c = none := by
      obtain rfl | rfl := isTimesLetter_iff.mp isTimes <;> exact ⟨by decide, rfl⟩
    rw [lexemeAt, hplain.1, if_neg Bool.false_ne_true, hplain.2, isTimes, multiplies]
    rfl
  | opening eq_opening =>
    subst eq_opening
    rw [lexemeAt, if_neg (by decide)]
    rfl
  | closing eq_closing =>
    subst eq_closing
    rw [lexemeAt, if_neg (by decide)]
    rfl
  | dollar eq_dollar =>
    subst eq_dollar
    rw [lexemeAt, if_neg (by decide)]
    rfl
  | bare isLetter not_decimal not_times =>
    have hne (d : Char) (hd : Unicode.isLetter d = false) : c ≠ d := by
      rintro rfl
      exact Bool.false_ne_true (hd.symm.trans isLetter)
    have hoperator : Operator.ofChar? c = none := by
      refine Option.eq_none_iff_forall_ne_some.mpr fun op hop => ?_
      refine hne op.symbol ?_ (Operator.symbol_of_ofChar? hop).symm
      cases op <;> decide
    have htimes : (isTimesLetter c && left.multiplies) = false := by
      cases hc : isTimesLetter c with
      | false => rfl
      | true => exact not_times hc
    rw [lexemeAt, not_decimal, Bool.false_or, if_neg (by simpa using hne '.' (by decide)),
      hoperator, htimes]
    dsimp only
    rw [if_neg Bool.false_ne_true, if_neg (hne '(' (by decide)), if_neg (hne ')' (by decide)),
      if_neg (hne '$' (by decide)), if_pos isLetter]
    rfl

end Cut

/-- **The token at a place is the one cut off there.** -/
theorem lexemeAt_eq_ok_iff :
    lexemeAt left c cs = .ok (lexeme, more) ↔ Cut left c cs lexeme more :=
  ⟨cut_of_lexemeAt, Cut.lexemeAt_eq⟩

end Reckoner
