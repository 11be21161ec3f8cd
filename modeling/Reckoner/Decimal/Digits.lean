/-!
# Decimal digits of natural numbers

Everything the arithmetic needs to know about a coefficient apart from its value: how many digits
it is written with, how many zeros it ends in, and how it grows when zeros are appended. The
counts work on blocks of sixteen digits, so that a coefficient of ten thousand digits is still
measured in a few hundred steps.
-/

namespace Reckoner

-- Powers are those of the core library, also where an algebra library is imported.
attribute [local instance (high)] instPowNat

/-- **The number of decimal digits** `n` is written with. Zero is written with one digit. -/
def digitCount (n : Nat) : Nat :=
  if n < 10 then 1
  else if n < 10 ^ (16 : Nat) then digitCount (n / 10) + 1
  else digitCount (n / 10 ^ (16 : Nat)) + 16
termination_by n

/-- **The number of zeros** at the end of the digits of `n`; none for zero itself, which has no
last digit other than zero. -/
def trailingZeros (n : Nat) : Nat :=
  if n = 0 then 0
  else if n % 10 = 0 then trailingZeros (n / 10) + 1
  else 0
termination_by n

/-- `n` with `k` zeros appended. Zero stays zero whatever `k` is, so no power of ten is formed for
it. -/
def appendZeros (n k : Nat) : Nat :=
  if n = 0 then 0 else n * 10 ^ k

theorem appendZeros_eq (n k : Nat) : appendZeros n k = n * 10 ^ k := by
  unfold appendZeros
  split
  · next h => simp [h]
  · rfl

/-- The natural number that ASCII digits stand for. -/
def digitsValue (digits : List Char) : Nat :=
  digits.foldl (fun n c => 10 * n + (c.toNat - '0'.toNat)) 0

/-- The most digits that an integer may be written with where it is read as one. -/
def maxIntegerDigits : Nat := 4300

/-- The digits of `n` as characters, the most significant first. -/
def digitChars (n : Nat) : List Char :=
  (toString n).toList

end Reckoner
