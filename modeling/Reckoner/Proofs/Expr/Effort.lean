import Mathlib
import Reckoner.Expr.Effort
import Reckoner.Proofs.Grammar.RowReading

/-!
# Evaluating with a limited number of digits

With few digits an evaluation may not come to an end. If it does, it ends as it would with any
number of them, and with enough of them it always does: each operation takes a number of digits that
does not depend on how many there are, and an expression has finitely many operations
(`Expr.exists_reaches_evalWithin`).
-/

namespace Reckoner

namespace Walk

variable {α β : Type} {n : ℕ} {walk : ℕ → Walk α} {outcome : Except Failure α}

theorem Reaches.mono {m : ℕ} (h : Reaches n walk outcome) (hle : n ≤ m) : Reaches m walk outcome :=
  ⟨h.pending_or, fun limit hlimit => h.of_le limit (hle.trans hlimit)⟩

/-- **One evaluation after another** reaches what they do, with the larger of the limits. -/
theorem Reaches.exists_bind {next : ℕ → α → Walk β} {later : α → Except Failure β}
    (h : Reaches n walk outcome)
    (hnext : ∀ a, ∃ m, Reaches m (fun limit => next limit a) (later a)) :
    ∃ m, Reaches m (fun limit => walk limit >>= next limit) (outcome >>= later) := by
  cases outcome with
  | error failure => exact ⟨n, h.bind_error⟩
  | ok a =>
    obtain ⟨m, hm⟩ := hnext a
    exact ⟨max n m, (h.mono (le_max_left n m)).bind (hm.mono (le_max_right n m))⟩

/-- An operation is carried out from the number of digits on that it takes. -/
theorem reaches_withEffort (effort : ℕ) (operation : Unit → Except Failure Decimal) :
    Reaches effort (fun digits => withEffort digits effort operation) (operation ()) := by
  refine ⟨fun digits => ?_, fun digits hdigits => if_pos hdigits⟩
  by_cases hdigits : effort ≤ digits
  · exact .inr (if_pos hdigits)
  · exact .inl (if_neg hdigits)

end Walk

/-- **An expression has its value with enough digits**, and with fewer it has this one or none. -/
theorem Expr.exists_reaches_evalWithin (ctx : Context) (env : Environment) (e : Expr) :
    ∃ n, Walk.Reaches n (fun digits => e.evalWithin digits ctx env) (e.eval ctx env) := by
  have hends (outcome : Except Failure Decimal) :
      ∃ n, Walk.Reaches n (fun _ => .ofOutcome outcome) outcome :=
    ⟨0, Walk.reaches_ofOutcome 0 outcome⟩
  induction e with
  | number numeral => exact hends (.ok (.finite numeral.value))
  | answer => exact hends (.ok env.answer)
  | «variable» name position =>
    simp only [evalWithin, eval]
    cases env.lookup name with
    | none => exact hends (.error (.at (.undefinedVariable name) position))
    | some x => exact hends (.ok x)
  | negate operand ih =>
    obtain ⟨n, hn⟩ := ih
    exact hn.exists_bind fun x => hends (.ok x.negate)
  | binary op position left right ihleft ihright =>
    obtain ⟨n, hn⟩ := ihleft
    obtain ⟨m, hm⟩ := ihright
    exact hn.exists_bind fun x => hm.exists_bind fun y => ⟨_, Walk.reaches_withEffort _ _⟩
  | inUnit u position operand ih =>
    obtain ⟨n, hn⟩ := ih
    exact hn.exists_bind fun x => ⟨_, Walk.reaches_withEffort _ _⟩
  | call f position argument ih =>
    obtain ⟨n, hn⟩ := ih
    exact hn.exists_bind fun x => ⟨_, Walk.reaches_withEffort _ _⟩
  | missing cause position => exact hends (.error (.at cause position))
  | thenStray operand cause position ih =>
    obtain ⟨n, hn⟩ := ih
    exact hn.exists_bind fun _ => hends (.error (.at cause position))

end Reckoner
