import Reckoner.Decimal.Text

/-!
# Showing a number

A result is shown in plain notation with at most ten places, its thousands separated by commas if
the settings ask for it, and followed by a **unit suggestion** where one fits: the size of a
container is named, a number from a thousand up is given in its largest unit with two places, and a
smaller one is counted in stacks of 64 if that comes out with at most two places.

Rounding happens in one place each (`Scaled.shown`, `Scaled.inUnit`, `Scaled.inStacks`); all that
follows is the layout of digits that are already final.
-/

namespace Reckoner

-- Powers are those of the core library, also where an algebra library is imported.
attribute [local instance (high)] instPowNat

/-- Digits with a comma before every third one from the right. The count is the number of digits
after the first. -/
def insertCommas : Nat → List Char → List Char
  | _, [] => []
  | following, c :: cs =>
    if following % 3 = 0 && following != 0 then c :: ',' :: insertCommas (following - 1) cs
    else c :: insertCommas (following - 1) cs

/-- **The digits of a whole number in groups of three.** -/
def groupThousands (digits : List Char) : List Char := insertCommas (digits.length - 1) digits

/-- Digits after the point without the zeros at their end. -/
def trimZeros (digits : List Char) : List Char :=
  (digits.reverse.dropWhile (· == '0')).reverse

namespace Scaled

/-- **The plain text** of a number, without exponent and without zeros at the end of its places. -/
def plainText (x : Scaled) (grouping : Bool) : String :=
  let (whole, fraction) := x.plainDigits
  x.signText ++ joinPoint (if grouping then groupThousands whole else whole, trimZeros fraction)

/-- How many places are shown. -/
def shownPlaces : Nat := 10

/-- **The number that is shown for `x`**: `x` itself if ten places suffice, otherwise rounded
half-even to ten places. A zero is shown without a sign. -/
def shown (x : Scaled) : Scaled :=
  let y := if x.exponent < -shownPlaces then x.withExponent .halfEven (-shownPlaces) else x
  if y.isZero then y.abs else y

/-- **The grouped text** of a number. -/
def grouped (x : Scaled) (grouping : Bool) : String := x.shown.plainText grouping

/-! ## Unit suggestions -/

/-- The numbers of items that fill a container, with its name. -/
def containers : List (Nat × String) :=
  [(2880, "1 ender chest"), (3456, "1 double chest"), (1728, "1 shulker box")]

/-- The powers of ten that have a unit letter, the largest first. -/
def magnitudes : List (Nat × String) := [(12, "t"), (9, "b"), (6, "m"), (3, "k")]

/-- The number in units of `10 ^ power`, rounded to two places with ties away from zero. -/
def inUnit (x : Scaled) (power : Nat) : Scaled :=
  ({ x with exponent := x.exponent - power } : Scaled).withExponent .halfUp (-2)

/-- How many items make a stack. -/
def stackSize : Nat := 64

/-- The number in stacks, rounded to ten places with ties away from zero. A stack is a power of
two, so the quotient is a product with `0.015625`. -/
def inStacks (x : Scaled) : Scaled :=
  (⟨x.negative, x.coefficient * 15625, x.exponent - 6⟩ : Scaled).withExponent .halfUp (-shownPlaces)

/-- The suggestion in stacks: a count with at most two places. -/
def stackSuggestion (x : Scaled) : Option String :=
  let count := x.inStacks.reduce
  if count = ofNat 1 then some "1 stack"
  else if -2 ≤ count.exponent then some (count.plainText false ++ " stacks")
  else none

/-- **The unit suggestion** for a number, if one fits. -/
def unitSuggestion (x : Scaled) : Option String :=
  match containers.find? fun c => x.hasMagnitude c.1 with
  | some (_, name) => some name
  | none =>
    match magnitudes.find? fun m => x.magnitudeAtLeast (10 ^ m.1) with
    | some (power, letter) => some ((x.inUnit power).plainText false ++ letter)
    | none =>
      if x.magnitudeAtLeast stackSize && !x.magnitudeAtLeast 10000 then x.stackSuggestion else none

/-- **The text a result is shown as**: grouped, with the suggestion in parentheses if there is one
and it is wanted. -/
def display (x : Scaled) (suggest grouping : Bool) : String :=
  let text := x.grouped grouping
  match if suggest then x.unitSuggestion else none with
  | some unit => text ++ " (" ++ unit ++ ")"
  | none => text

end Scaled

namespace Decimal

/-- The grouped text of a decimal; special values have none. -/
def grouped? (x : Decimal) (grouping : Bool) : Option String :=
  x.toScaled?.map (·.grouped grouping)

/-- The text a decimal is shown as; special values have none. -/
def display? (x : Decimal) (suggest grouping : Bool) : Option String :=
  x.toScaled?.map (·.display suggest grouping)

end Decimal

end Reckoner
