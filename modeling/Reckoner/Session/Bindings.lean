import Reckoner.Decimal.Basic

/-!
# Bindings of variables

The variables of a session, as pairs of a name and a value in the order of the names, by code point.
A name is bound at most once: binding it again replaces the value.
-/

namespace Reckoner

/-- **Names with their values**, in the order of the names. -/
abbrev Bindings := List (String × Decimal)

namespace Bindings

/-- The value a name is bound to. -/
def get? (name : String) : Bindings → Option Decimal
  | [] => none
  | (key, value) :: rest => if key = name then some value else get? name rest

/-- **Bind a name**, replacing the value it may have. -/
def set (name : String) (value : Decimal) : Bindings → Bindings
  | [] => [(name, value)]
  | (key, old) :: rest =>
    if key = name then (name, value) :: rest
    else if name < key then (name, value) :: (key, old) :: rest
    else (key, old) :: set name value rest

/-- The names in their order. -/
def names (bindings : Bindings) : List String := bindings.map (·.1)

@[simp] theorem get?_set_self (name : String) (value : Decimal) (bindings : Bindings) :
    (bindings.set name value).get? name = some value := by
  induction bindings with
  | nil => simp [set, get?]
  | cons pair rest ih =>
    obtain ⟨key, old⟩ := pair
    unfold set
    split
    · simp [get?]
    · split
      · simp [get?]
      · next hne _ => simp [get?, hne, ih]

theorem get?_set_of_ne {name other : String} (h : name ≠ other) (value : Decimal)
    (bindings : Bindings) : (bindings.set name value).get? other = bindings.get? other := by
  induction bindings with
  | nil => simp [set, get?, h]
  | cons pair rest ih =>
    obtain ⟨key, old⟩ := pair
    unfold set
    split
    · next hk =>
      subst hk
      simp [get?, h]
    · split
      · simp [get?, h]
      · simp [get?, ih]

end Bindings

end Reckoner
