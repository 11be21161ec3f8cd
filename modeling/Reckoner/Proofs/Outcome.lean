/-!
# Outcomes of steps that may fail

Most functions of the calculator end in a value or in a failure, and chain such
steps. What a chain that ends in a value says about its steps is stated here
once, so that no proof has to take a chain apart by hand.

Two runs are compared by `Agree`: they fail in the same way, or both end in
values, which are related. Chains of steps that agree agree.
-/

namespace Reckoner

variable {ε ε' α β α' β' γ : Type}

/-- A mapped outcome is a value only if the outcome is one. -/
theorem exists_of_map_eq_ok {f : α → β} {x : Except ε α} {y : β} (h : x.map f = .ok y) :
    ∃ a, x = .ok a ∧ f a = y := by
  cases x with
  | error fault => cases h
  | ok a => exact ⟨a, rfl, Except.ok.inj h⟩

/-- A mapped outcome fails only as the outcome does. -/
theorem of_map_eq_error {f : α → β} {x : Except ε α} {fault : ε} (h : x.map f = .error fault) :
    x = .error fault := by
  cases x with
  | error fault' => exact congrArg Except.error (Except.error.inj h)
  | ok a => cases h

/-- A chain of two steps ends in a value only if both do. -/
theorem exists_of_bind_eq_ok {x : Except ε α} {f : α → Except ε β} {y : β}
    (h : x >>= f = .ok y) : ∃ a, x = .ok a ∧ f a = .ok y := by
  cases x with
  | error fault => cases h
  | ok a => exact ⟨a, rfl, h⟩

/-- Naming the failures anew leaves the values as they are. -/
theorem of_mapError_eq_ok {f : ε → ε'} {x : Except ε α} {y : α} (h : x.mapError f = .ok y) :
    x = .ok y := by
  cases x with
  | error fault => cases h
  | ok a => exact congrArg Except.ok (Except.ok.inj h)

/-- **A chain of two steps fails in the first or in the second.** -/
theorem of_bind_eq_error {x : Except ε α} {f : α → Except ε β} {fault : ε}
    (h : x >>= f = .error fault) : x = .error fault ∨ ∃ a, x = .ok a ∧ f a = .error fault := by
  cases x with
  | error fault' => exact .inl (congrArg Except.error (Except.error.inj h))
  | ok a => exact .inr ⟨a, rfl, h⟩

/-- A failure under a new name has an old one. -/
theorem exists_of_mapError_eq_error {f : ε → ε'} {x : Except ε α} {fault : ε'}
    (h : x.mapError f = .error fault) : ∃ fault', x = .error fault' ∧ f fault' = fault := by
  cases x with
  | error fault' => exact ⟨fault', rfl, Except.error.inj h⟩
  | ok a => cases h

/-- A step that can be taken for every element can be taken for the list. -/
theorem exists_mapM_eq_some {f : α → Option β} {as : List α} (h : ∀ a ∈ as, ∃ b, f a = some b) :
    ∃ bs, as.mapM f = some bs := by
  induction as with
  | nil => exact ⟨[], rfl⟩
  | cons a as ih =>
    obtain ⟨b, hb⟩ := h a List.mem_cons_self
    obtain ⟨bs, hbs⟩ := ih fun a ha => h a (List.mem_cons_of_mem _ ha)
    rw [List.mapM_cons, hb, hbs]
    exact ⟨b :: bs, rfl⟩

/-! ## Two runs -/

/-- **Two outcomes agree** if they are the same failure, or values in relation. -/
inductive Agree (r : α → β → Prop) : Except ε α → Except ε β → Prop
  | ok {a : α} {b : β} (h : r a b) : Agree r (.ok a) (.ok b)
  | error (fault : ε) : Agree r (.error fault) (.error fault)

namespace Agree

variable {r : α → β → Prop} {s : α' → β' → Prop} {x : Except ε α} {y : Except ε β}

/-- **Chains of steps that agree agree.** -/
theorem bind {f : α → Except ε α'} {g : β → Except ε β'} (h : Agree r x y)
    (hstep : ∀ a b, r a b → Agree s (f a) (g b)) : Agree s (x >>= f) (y >>= g) := by
  cases h with
  | ok hab => exact hstep _ _ hab
  | error fault => exact .error fault

theorem map {f : α → α'} {g : β → β'} (h : Agree r x y) (hstep : ∀ a b, r a b → s (f a) (g b)) :
    Agree s (x.map f) (y.map g) := by
  cases h with
  | ok hab => exact .ok (hstep _ _ hab)
  | error fault => exact .error fault

theorem mapError {f : ε → ε'} (h : Agree r x y) : Agree r (x.mapError f) (y.mapError f) := by
  cases h with
  | ok hab => exact .ok hab
  | error fault => exact .error (f fault)

/-- Outcomes that a function makes equal agree up to that function. -/
theorem of_map_eq {f : α → γ} {g : β → γ} (h : x.map f = y.map g) :
    Agree (fun a b => f a = g b) x y := by
  cases x with
  | error fault =>
    cases y with
    | error fault' => exact Except.error.inj h ▸ .error fault
    | ok b => cases h
  | ok a =>
    cases y with
    | error fault => cases h
    | ok b => exact .ok (Except.ok.inj h)

end Agree

end Reckoner
