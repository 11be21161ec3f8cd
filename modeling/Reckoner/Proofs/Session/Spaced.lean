import Reckoner.Proofs.Grammar.Places
import Reckoner.Proofs.Session.Names
import Reckoner.Proofs.Token.Canonical

/-!
# Lines that are written back

What a line is worth depends on its lexemes, and on nothing else of it: two lines with the
same lexemes have the same value in every session, or fail for the same cause
(`Session.compute_congr`). An ASCII line that is written back by its tokens, with a blank
between two of them and the letters in any case, has the same lexemes, so this holds of the
two (`evaluates_spaced`).
-/

namespace Reckoner

open Unicode (IsAscii SameLetters)

variable {text text' : String} {tokens tokens' : List Token} {words : List (List Char)}

/-- **Lines with the same lexemes** are worth the same, or fail for the same cause. -/
theorem Session.compute_congr (s : Session) (h : tokenize text.toList = .ok tokens)
    (h' : tokenize text'.toList = .ok tokens')
    (hlexemes : tokens.map (·.lexeme) = tokens'.map (·.lexeme)) :
    (s.compute (some text)).mapError Fault.cause
      = (s.compute (some text')).mapError Fault.cause := by
  have hnil : tokens = [] ↔ tokens' = [] := by
    rw [← List.map_eq_nil_iff (f := Token.lexeme), hlexemes, List.map_eq_nil_iff]
  have hblank : Unicode.isBlankText text.toList = Unicode.isBlankText text'.toList := by
    rw [Bool.eq_iff_iff, isBlankText_iff_of_tokenize h, isBlankText_iff_of_tokenize h', hnil]
  have hcause (x : Except Failure Decimal) :
      (x.mapError Failure.toFault).mapError Fault.cause = x.mapError Failure.cause := by
    cases x <;> rfl
  rw [compute, compute, evaluateLine, evaluateLine, ← hblank, h, h']
  split
  · rfl
  · exact (hcause _).trans ((Expr.sameCause_ofTokens hlexemes _ _ _ _).trans (hcause _).symm)

/-- **An ASCII line that is written back** – its words by their tokens, in any letter case, and
a blank between two of them – has the same lexemes, and every session gives it the same value,
or puts its failure down to the same cause. -/
theorem evaluates_spaced (hascii : IsAscii text.toList) (h : tokenize text.toList = .ok tokens)
    (hwords : words.Forall₂ SameLetters (tokens.map (·.lexeme.written))) :
    ∃ tokens', tokenize (spaced words) = .ok tokens'
      ∧ tokens'.map (·.lexeme) = tokens.map (·.lexeme)
      ∧ ∀ s : Session,
        (s.serve (.evaluateQuietly (some (String.ofList (spaced words))))).1.mapError Fault.cause
          = (s.serve (.evaluateQuietly (some text))).1.mapError Fault.cause := by
  obtain ⟨tokens', htokens', hlexemes⟩ := exists_tokenize_spaced h hascii hwords
  refine ⟨tokens', htokens', hlexemes, fun s => ?_⟩
  have hspaced : tokenize (String.ofList (spaced words)).toList = .ok tokens' := by
    rw [String.toList_ofList, htokens']
  have hcompute := s.compute_congr hspaced h hlexemes
  have hmap (x : Except Fault Decimal) :
      (x.map some).mapError Fault.cause = (x.mapError Fault.cause).map some := by
    cases x <;> rfl
  rw [Session.serve_evaluateQuietly_fst, Session.serve_evaluateQuietly_fst, hmap, hmap, hcompute]

/-- A letter that multiplies becomes an asterisk, and the variable behind it keeps the `x` of
its name. -/
theorem evaluates_spaced_two_letters_x :
    IsAscii "2.5Kx$Ax".toList
      ∧ ∃ tokens tokens', tokenize "2.5Kx$Ax".toList = .ok tokens
        ∧ tokenize "2.5 k * $aX".toList = .ok tokens'
        ∧ tokens'.map (·.lexeme) = tokens.map (·.lexeme)
        ∧ ∀ s : Session,
          (s.serve (.evaluateQuietly (some "2.5 k * $aX"))).1.mapError Fault.cause
            = (s.serve (.evaluateQuietly (some "2.5Kx$Ax"))).1.mapError Fault.cause := by
  have hascii : IsAscii "2.5Kx$Ax".toList := by decide
  have htokens : tokenize "2.5Kx$Ax".toList = .ok
      [⟨.number ⟨['2'], some ['5']⟩, ['2', '.', '5'], 0⟩, ⟨.unit .thousand, ['K'], 3⟩,
        ⟨.operator .multiply, ['x'], 4⟩, ⟨.variable "ax", ['$', 'A', 'x'], 5⟩] := by cbv
  obtain ⟨tokens', htokens', hlexemes, hserve⟩ := evaluates_spaced hascii htokens
    (show List.Forall₂ SameLetters ["2.5".toList, "k".toList, "*".toList, "$aX".toList] _ from
      .cons (by decide) (.cons (by decide) (.cons (by decide) (.cons (by decide) .nil))))
  exact ⟨hascii, _, tokens', htokens, htokens', hlexemes, hserve⟩

end Reckoner
