import Mathlib.Data.Nat.Notation
import Mathlib.Tactic.Common
import Reckoner.Proofs.Grammar.Origin
import Reckoner.Proofs.Grammar.Reading
import Reckoner.Session.Basic

/-!
# What the value of a line depends on

The value of a line in a session is that of the expression its tokens are read as,
with the context of the session, its variables and its last answer
(`Session.compute_eq_eval`). Two facts about this are used wherever lines are
evaluated one after another.

A line that has a value is a sum of the grammar (`Session.exists_phrase_of_compute`).
And the last answer matters to no line but one that refers to it: another line has
the same value, or fails in the same way, whatever was evaluated in between
(`Session.compute_withAnswer`).
-/

namespace Reckoner

/-- **A line that refers to the last answer**: one of its tokens is the word for
it. -/
def RefersToAnswer (line : List Char) : Prop :=
  ∃ tokens, tokenize line = .ok tokens ∧ ∃ token ∈ tokens, token.lexeme = .answer

namespace Session

variable {s : Session} {text : String} {x : Decimal}

/-- The value of a line that is not blank is the value of its expression. -/
theorem compute_eq_eval (s : Session) {e : Expr}
    (hblank : Unicode.isBlankText text.toList = false)
    (he : (tokenize text.toList).map (Expr.ofTokens · text.toList.length) = .ok e) :
    s.compute (some text) = (e.eval s.context s.environment).mapError Failure.toFault := by
  obtain ⟨tokens, htokens, rfl⟩ := exists_of_map_eq_ok he
  rw [compute, evaluateLine, hblank, htokens]
  rfl

/-- **A line that has a value is a sum**, and the value is the one the sum means. -/
theorem exists_phrase_of_compute (h : s.compute (some text) = .ok x) :
    Unicode.isBlankText text.toList = false ∧ ∃ d : Phrase .sum,
      tokenize text.toList = .ok d.tokens ∧ d.eval s.context s.environment = .ok x := by
  rw [compute, evaluateLine] at h
  split at h
  · cases h
  · next hblank =>
    obtain ⟨tokens, htokens, heval⟩ := exists_of_bind_eq_ok h
    have heval := of_mapError_eq_ok heval
    obtain ⟨d, rfl⟩ := exists_phrase_of_ofTokens (Expr.isFaultless_of_eval heval)
    rw [d.ofTokens_tokens] at heval
    exact ⟨Bool.eq_false_of_not_eq_true hblank, d, htokens,
      (d.eval_toExpr s.context s.environment).symm.trans heval⟩

/-- **The last answer matters only to a line that refers to it.** -/
theorem compute_withAnswer (s : Session) (h : ¬ RefersToAnswer text.toList) (answer : Decimal) :
    compute { s with answer } (some text) = s.compute (some text) := by
  rw [compute, compute, evaluateLine, evaluateLine]
  cases htokens : tokenize text.toList with
  | error fault => rfl
  | ok tokens =>
    have heval : (Expr.ofTokens tokens text.toList.length).eval s.context
          (environment { s with answer })
        = (Expr.ofTokens tokens text.toList.length).eval s.context s.environment :=
      (isMadeOf_ofTokens tokens text.toList.length).eval_eq s.context (fun _ _ _ _ => rfl)
        fun token hmem hanswer => absurd ⟨tokens, htokens, token, hmem, hanswer⟩ h
    show (if _ then _ else Except.mapError Failure.toFault (Expr.eval s.context _ _)) = _
    rw [heval]
    rfl

end Session

end Reckoner
