/-!
# The history of a session

The lines that were calculated, the newest last. A line that repeats the newest entry is not written
down again, and only the newest fifteen are kept.
-/

namespace Reckoner

/-- The last `n` elements of a list. -/
def lastN {α : Type} (n : Nat) (entries : List α) : List α := entries.drop (entries.length - n)

/-- **The lines that were calculated**, the newest last. -/
abbrev History := List String

namespace History

/-- How many lines are kept. -/
def capacity : Nat := 15

/-- **Write a line down**, unless it repeats the newest entry. -/
def record (history : History) (line : String) : History :=
  if history.getLast? = some line then history else lastN capacity (history ++ [line])

end History

end Reckoner
