import Mathlib
import Reckoner.Proofs.Expr.Effort
import Reckoner.Proofs.Grammar.Room
import Reckoner.Proofs.Session.Line
import Reckoner.Proofs.Token.Canonical
import Reckoner.Session.Machine

/-!
# Machines and the lines they can evaluate

Whether a machine can evaluate a line is found out by doing so, once with limited digits and once
with limited calls. Both come to the value that the session says the line has, if they come to an
end (`Machine.compute_of_evaluates`): a machine that is too small gives no wrong answers, it gives
none.

No line is too much for all machines. There is a size from which on every machine can evaluate it
and show its value (`Session.exists_shortage?_eq_none`). But there is no machine for all lines: it
need only be given a one in as many parentheses as it has calls (`Machine.evaluates_nested`).
-/

namespace Reckoner

/-- **A machine of at least some size**, in both respects. -/
def Machine.HasSize (machine : Machine) (size : ℕ) : Prop :=
  size ≤ machine.calls ∧ size ≤ machine.digits

variable {machine : Machine} {s : Session} {line : String} {tokens : List Token}

theorem Machine.HasSize.mono {size size' : ℕ} (h : machine.HasSize size') (hle : size ≤ size') :
    machine.HasSize size :=
  ⟨hle.trans h.1, hle.trans h.2⟩

namespace Walk

/-- A walk that has ended has ended with what it reaches. -/
theorem Reaches.eq_of_hasEnded {α : Type} {n limit : ℕ} {walk : ℕ → Walk α}
    {outcome : Except Failure α} (h : Reaches n walk outcome)
    (hended : (walk limit).hasEnded = true) : walk limit = .ofOutcome outcome :=
  Abridges.eq_of_hasEnded (h.pending_or limit) hended

end Walk

namespace Machine

/-- A line with tokens is evaluated in both ways. -/
theorem evaluates_eq (hblank : Unicode.isBlankText line.toList = false)
    (htokens : tokenize line.toList = .ok tokens) :
    machine.evaluates s line
      = (((Expr.ofTokens tokens line.toList.length).evalWithin machine.digits s.context
            s.environment).hasEnded
        && ((Row.ofTokens s.answer tokens line.toList.length).valueWithin s.context s.environment
            machine.calls).hasEnded) := by
  rw [evaluates, hblank, htokens]
  rfl

/-- **A machine that can evaluate a line finds its value**, or the fault that it has, in either
way. -/
theorem compute_of_evaluates (h : machine.evaluates s line = true)
    (hblank : Unicode.isBlankText line.toList = false)
    (htokens : tokenize line.toList = .ok tokens) :
    ∃ outcome : Except Failure Decimal,
      (Expr.ofTokens tokens line.toList.length).evalWithin machine.digits s.context s.environment
        = .ofOutcome outcome
      ∧ (Row.ofTokens s.answer tokens line.toList.length).valueWithin s.context s.environment
          machine.calls = .ofOutcome outcome
      ∧ s.compute (some line) = outcome.mapError Failure.toFault := by
  rw [evaluates_eq hblank htokens, Bool.and_eq_true] at h
  obtain ⟨_, hdigits⟩ := Expr.exists_reaches_evalWithin s.context s.environment
    (Expr.ofTokens tokens line.toList.length)
  have hcalls := Row.reaches_valueWithin s.context s.environment tokens line.toList.length
  refine ⟨_, hdigits.eq_of_hasEnded h.1, hcalls.eq_of_hasEnded h.2, ?_⟩
  exact s.compute_eq_eval hblank (by rw [htokens]; rfl)

/-- **Parentheses that are opened take seven calls each**, and a machine that does not have them
cannot evaluate the line, whatever follows. -/
theorem evaluates_openings {n : ℕ} (hblank : Unicode.isBlankText line.toList = false)
    (htokens : tokenize line.toList = .ok tokens)
    (hopenings : ∀ j < n, ∃ token, tokens[j]? = some token ∧ token.lexeme = .opening)
    (hcalls : machine.calls < 7 * n) : machine.evaluates s line = false := by
  have hrow : ∀ j < n, ∃ item,
      (Row.ofTokens s.answer tokens line.toList.length)[j]? = some item
        ∧ item.kind = .opening := by
    intro j hj
    obtain ⟨token, htoken, hopening⟩ := hopenings j hj
    refine ⟨token.item s.answer, ?_, by rw [Token.item, hopening]; rfl⟩
    rw [Row.ofTokens, List.getElem?_append_left, List.getElem?_map, htoken]
    · rfl
    · simpa using (List.getElem?_eq_some_iff.mp htoken).1
  rw [evaluates_eq hblank htokens, Row.valueWithin_openings hrow hcalls]
  exact Bool.and_false _

end Machine

/-- **A one in parentheses**, `n` times. -/
def nested (n : ℕ) : List Char := List.replicate n '(' ++ '1' :: List.replicate n ')'

/-- Parentheses that are opened are tokens, and so is what is in them. -/
theorem exists_tokensFrom_openings {rest : List Char}
    (hrest : ∀ position left, ∃ tokens, tokensFrom position left rest = .ok tokens)
    (n position : ℕ) (left : Left) :
    ∃ tokens, tokensFrom position left (List.replicate n '(' ++ rest) = .ok tokens
      ∧ ∀ j < n, ∃ token, tokens[j]? = some token ∧ token.lexeme = .opening := by
  induction n generalizing position left with
  | zero =>
    obtain ⟨tokens, htokens⟩ := hrest position left
    exact ⟨tokens, htokens, nofun⟩
  | succ n ih =>
    have hcut : Cut left '(' ([] ++ (List.replicate n '(' ++ rest)) .opening 0 := .opening rfl
    obtain ⟨tokens, htokens, hopenings⟩ := ih (position + 1) ⟨some '(', some .opening⟩
    refine ⟨_, (tokensFrom_of_cut hcut position).trans (congrArg (Except.map _) htokens), ?_⟩
    intro j hj
    cases j with
    | zero => exact ⟨_, rfl, rfl⟩
    | succ j => exact hopenings j (Nat.lt_of_succ_lt_succ hj)

theorem exists_tokenize_nested (n : ℕ) :
    ∃ tokens, tokenize (nested n) = .ok tokens
      ∧ ∀ j < n, ∃ token, tokens[j]? = some token ∧ token.lexeme = .opening := by
  refine exists_tokensFrom_openings (fun position left => ?_) n 0 .start
  obtain ⟨one, numeral, closings, htokens, -⟩ := exists_tokensFrom_one n position left
  exact ⟨_, htokens⟩

/-- **A one in too many parentheses** cannot be evaluated: each of them takes seven calls. -/
theorem Machine.evaluates_nested {n : ℕ} (hcalls : machine.calls < 7 * n) :
    machine.evaluates s (String.ofList (nested n)) = false := by
  obtain ⟨tokens, htokens, hopenings⟩ := exists_tokenize_nested n
  rw [← String.toList_ofList (l := nested n)] at htokens
  refine evaluates_openings ?_ htokens hopenings hcalls
  obtain ⟨token, htoken, -⟩ := hopenings 0 (by omega)
  refine Bool.eq_false_of_not_eq_true fun hblank => ?_
  rw [(isBlankText_iff_of_tokenize htokens).mp hblank] at htoken
  cases htoken

namespace Session

/-- **Every line can be evaluated** by a machine that is large enough. -/
theorem exists_evaluates (s : Session) (line : String) :
    ∃ size, ∀ machine : Machine, machine.HasSize size → machine.evaluates s line = true := by
  cases hblank : Unicode.isBlankText line.toList with
  | true =>
    refine ⟨0, fun machine _ => ?_⟩
    rw [Machine.evaluates, hblank]
    rfl
  | false =>
    cases htokens : tokenize line.toList with
    | error fault =>
      refine ⟨0, fun machine _ => ?_⟩
      rw [Machine.evaluates, hblank, htokens]
      rfl
    | ok tokens =>
      obtain ⟨n, hdigits⟩ := Expr.exists_reaches_evalWithin s.context s.environment
        (Expr.ofTokens tokens line.toList.length)
      have hcalls := Row.reaches_valueWithin s.context s.environment tokens line.toList.length
      refine ⟨max n (2 * (6 * (tokens.length + 1) + 6)), fun machine hsize => ?_⟩
      have htree := hdigits.of_le machine.digits ((le_max_left _ _).trans hsize.2)
      have hrow := hcalls.of_le machine.calls ((le_max_right _ _).trans hsize.1)
      rw [Machine.evaluates_eq hblank htokens, htree]
      exact congrArg Walk.hasEnded hrow

theorem exists_shows (x : Decimal) :
    ∃ size, ∀ machine : Machine, machine.HasSize size → machine.shows x = true := by
  cases x with
  | finite a => exact ⟨_, fun machine hsize => decide_eq_true hsize.2⟩
  | infinite _ => exact ⟨0, fun _ _ => rfl⟩
  | nan _ _ _ => exact ⟨0, fun _ _ => rfl⟩

/-- **No line is too much for all machines**: one that is large enough evaluates it and shows its
value. -/
theorem exists_shortage?_eq_none (s : Session) (line : String) :
    ∃ size, ∀ machine : Machine, machine.HasSize size → machine.shortage? s line = none := by
  obtain ⟨n, hn⟩ := s.exists_evaluates line
  cases hx : s.compute (some line) with
  | error fault =>
    refine ⟨n, fun machine hsize => ?_⟩
    rw [Machine.shortage?, hn machine hsize, hx]
    rfl
  | ok x =>
    obtain ⟨m, hm⟩ := exists_shows x
    refine ⟨max n m, fun machine hsize => ?_⟩
    rw [Machine.shortage?, hn machine (hsize.mono (le_max_left n m)), hx]
    exact if_pos (hm machine (hsize.mono (le_max_right n m)))

end Session

end Reckoner
