/-!
# Ranges of code points

A property of characters is given as a list of closed ranges of code points in ascending order. A
character is looked up from the front, and the search ends at the first range that begins above it,
so the frequent characters, which stand at the front, are found at once.
-/

namespace Reckoner.Unicode

/-- Ranges of code points, ends included, in ascending order and apart from each other. -/
abbrev Ranges := List (Nat × Nat)

/-- **Whether a code point lies in one of the ranges.** -/
def Ranges.contains : Ranges → Nat → Bool
  | [], _ => false
  | (low, high) :: rest, n => if n < low then false else n ≤ high || contains rest n

/-- Whether a character lies in one of the ranges. -/
def Ranges.hasChar (ranges : Ranges) (c : Char) : Bool := ranges.contains c.toNat

end Reckoner.Unicode
