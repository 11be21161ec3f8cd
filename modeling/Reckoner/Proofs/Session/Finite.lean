import Reckoner.Proofs.Expr.Finite
import Reckoner.Session.Basic

/-!
# Sessions of numbers

In a session whose last answer and variables are numbers, every line that can be
evaluated has a number as its value (`Session.isFinite_of_compute`). All that a
session ever stores are such values, so it stays one of numbers, and each of them
can be shown: only the special values have no text.
-/

namespace Reckoner

variable {x : Decimal} {name : String}

/-! ## Bindings -/

namespace Bindings

/-- A name that has a value is bound to it. -/
theorem mem_of_get? {bindings : Bindings} (h : bindings.get? name = some x) :
    (name, x) ∈ bindings := by
  induction bindings with
  | nil => cases h
  | cons pair rest ih =>
    obtain ⟨key, value⟩ := pair
    rw [get?] at h
    split at h
    · next hkey =>
      obtain rfl := Option.some.inj h
      rw [hkey]
      exact List.mem_cons_self
    · exact List.mem_cons_of_mem _ (ih h)

/-- Binding a name adds its value and no other. -/
theorem mem_set {bindings : Bindings} {pair : String × Decimal}
    (h : pair ∈ bindings.set name x) : pair = (name, x) ∨ pair ∈ bindings := by
  induction bindings with
  | nil => exact .inl (List.mem_singleton.mp h)
  | cons first rest ih =>
    obtain ⟨key, old⟩ := first
    rw [set] at h
    split at h
    · rcases List.mem_cons.mp h with h | h
      · exact .inl h
      · exact .inr (List.mem_cons_of_mem _ h)
    · split at h
      · rcases List.mem_cons.mp h with h | h
        · exact .inl h
        · exact .inr h
      · rcases List.mem_cons.mp h with h | h
        · exact .inr (h ▸ List.mem_cons_self)
        · exact (ih h).imp_right (List.mem_cons_of_mem _)

/-- What holds of all values holds of them still if it holds of the one that is
bound. -/
theorem forall_mem_set {P : Decimal → Prop} {bindings : Bindings}
    (h : ∀ pair ∈ bindings, P pair.2) (hx : P x) : ∀ pair ∈ bindings.set name x, P pair.2 := by
  intro pair hpair
  rcases mem_set hpair with rfl | hpair
  · exact hx
  · exact h pair hpair

end Bindings

/-! ## Sessions -/

namespace Session

/-- **A session of numbers**: the last answer, and the value of every variable. -/
structure IsFinite (s : Session) : Prop where
  answer : s.answer.IsFinite
  bindings : ∀ pair ∈ s.variables, pair.2.IsFinite

variable {s s' : Session} {line : Option String}

theorem isFinite_empty (context : Context) : (empty context).IsFinite :=
  ⟨.finite _, nofun⟩

theorem IsFinite.environment (h : s.IsFinite) : s.environment.IsFinite :=
  ⟨h.answer, fun _ _ hlookup => h.bindings _ (Bindings.mem_of_get? hlookup)⟩

/-- **The value of a line is a number.** -/
theorem isFinite_of_compute (h : s.IsFinite) (hx : s.compute line = .ok x) : x.IsFinite := by
  cases line with
  | none => cases hx
  | some line =>
    rw [compute, evaluateLine] at hx
    split at hx
    · cases hx
    · obtain ⟨tokens, -, heval⟩ := exists_of_bind_eq_ok hx
      exact Expr.isFinite_eval h.environment (of_mapError_eq_ok heval)

theorem isFinite_of_evaluateQuietly (h : s.IsFinite)
    (hx : s.evaluateQuietly line = .ok (x, s')) : x.IsFinite ∧ s'.IsFinite := by
  obtain ⟨y, hy, heq⟩ := exists_of_map_eq_ok hx
  obtain ⟨rfl, rfl⟩ := Prod.mk.inj heq
  have hfinite := isFinite_of_compute h hy
  exact ⟨hfinite, hfinite, h.bindings⟩

theorem isFinite_of_evaluate (h : s.IsFinite) (hx : s.evaluate line = .ok (x, s')) :
    x.IsFinite ∧ s'.IsFinite := by
  obtain ⟨⟨y, t⟩, hy, heq⟩ := exists_of_map_eq_ok hx
  obtain ⟨rfl, rfl⟩ := Prod.mk.inj heq
  obtain ⟨hfinite, ht⟩ := isFinite_of_evaluateQuietly h hy
  cases line with
  | none => exact ⟨hfinite, ht⟩
  | some text => exact ⟨hfinite, ht.answer, ht.bindings⟩

theorem IsFinite.assign (h : s.IsFinite) (hx : x.IsFinite) : (s.assign name x).IsFinite :=
  ⟨h.answer, Bindings.forall_mem_set h.bindings hx⟩

theorem isFinite_of_assignLine {text : String} (h : s.IsFinite)
    (hx : s.assignLine name text = .ok (x, s')) : x.IsFinite ∧ s'.IsFinite := by
  obtain ⟨⟨y, t⟩, hy, heq⟩ := exists_of_map_eq_ok hx
  obtain ⟨rfl, rfl⟩ := Prod.mk.inj heq
  obtain ⟨hfinite, ht⟩ := isFinite_of_evaluate h hy
  exact ⟨hfinite, ht.assign hfinite⟩

/-- **The variables can be listed** in a session of numbers. -/
theorem exists_describeVariables? (h : s.IsFinite) : ∃ text, s.describeVariables? = some text := by
  unfold describeVariables?
  split
  · exact ⟨_, rfl⟩
  · have hshown : ∀ pair ∈ s.variables, ∃ line, describeVariable pair = some line := by
      intro pair hpair
      obtain ⟨number, hnumber⟩ := (h.bindings pair hpair).exists_number
      rw [describeVariable, hnumber]
      exact ⟨_, rfl⟩
    obtain ⟨lines, hlines⟩ := exists_mapM_eq_some hshown
    rw [hlines]
    exact ⟨_, rfl⟩

end Session

end Reckoner
