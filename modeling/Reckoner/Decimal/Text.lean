import Reckoner.Decimal.Basic

/-!
# The text of a decimal

The *exact* text of a decimal shows coefficient, exponent and sign, so that reading it gives the
same decimal back: `5.00`, `-0`, `1E+3`, `0E-7`. A point is placed inside or before the digits as
long as the exponent is not positive and at most five zeros would follow the point; otherwise one
digit stands before the point and the exponent is written out.

The *plain* text never has an exponent. It is what a person is shown, after
`Reckoner.Display` has decided about rounding and grouping.
-/

namespace Reckoner

/-- The text of an integer with its sign always written. -/
def signedText (n : Int) : String :=
  (if n < 0 then "-" else "+") ++ toString n.natAbs

namespace Scaled

/-- The minus sign of a number, or nothing. -/
def signText (x : Scaled) : String := if x.negative then "-" else ""

/-- **The digits before and after the point** of a number whose exponent is written as zeros. Zero
has one digit before the point, whatever its exponent. -/
def plainDigits (x : Scaled) : List Char × List Char :=
  let digits := digitChars x.coefficient
  if 0 ≤ x.exponent then
    (if x.isZero then digits else digits ++ List.replicate x.exponent.toNat '0', [])
  else
    let places := (-x.exponent).toNat
    let padded := List.replicate (places + 1 - digits.length) '0' ++ digits
    padded.splitAt (padded.length - places)

/-- Digits before and after a point. Without digits after it there is no point. -/
def joinPoint : List Char × List Char → String
  | (whole, []) => String.ofList whole
  | (whole, fraction) => String.ofList (whole ++ '.' :: fraction)

/-- **The exact text** of a number. -/
def text (x : Scaled) : String :=
  if x.exponent ≤ 0 ∧ -6 ≤ x.adjusted then x.signText ++ joinPoint x.plainDigits
  else
    match digitChars x.coefficient with
    | [] => ""
    | first :: rest =>
      x.signText ++ joinPoint ([first], rest) ++ "E" ++ signedText x.adjusted

end Scaled

namespace Decimal

/-- **The exact text** of a decimal. -/
def text : Decimal → String
  | .finite x => x.text
  | .infinite s => (if s then "-" else "") ++ "Infinity"
  | .nan s signalling payload =>
    (if s then "-" else "") ++ (if signalling then "sNaN" else "NaN")
      ++ (if payload = 0 then "" else toString payload)

/-- The natural number written by ASCII digits, which must be all there is. -/
def readDigits? (cs : List Char) : Option Nat :=
  if cs.all Char.isDigit then some (digitsValue cs) else none

/-- The integer written as digits after an optional sign. -/
def readInteger? : List Char → Option Int
  | '-' :: cs => if cs.isEmpty then none else (readDigits? cs).map fun n => -(n : Int)
  | '+' :: cs => if cs.isEmpty then none else (readDigits? cs).map Int.ofNat
  | cs => if cs.isEmpty then none else (readDigits? cs).map Int.ofNat

/-- The number written by digits with at most one point among them. -/
def readPointed? (cs : List Char) : Option (Nat × Nat) :=
  let whole := cs.takeWhile (· != '.')
  let fraction := (cs.dropWhile (· != '.')).drop 1
  if whole.isEmpty && fraction.isEmpty then none
  else (readDigits? (whole ++ fraction)).map fun n => (n, fraction.length)

/-- An unsigned decimal of its text. -/
def readUnsigned? (negative : Bool) (cs : List Char) : Option Decimal :=
  let lower := String.ofList (cs.map Char.toLower)
  if lower = "infinity" || lower = "inf" then some (.infinite negative)
  else if lower.startsWith "nan" then (readDigits? (cs.drop 3)).map (.nan negative false)
  else if lower.startsWith "snan" then (readDigits? (cs.drop 4)).map (.nan negative true)
  else
    let isMark (c : Char) : Bool := c == 'e' || c == 'E'
    let mantissa := cs.takeWhile fun c => !isMark c
    match cs.dropWhile fun c => !isMark c with
    | [] => (readPointed? mantissa).map fun (n, places) => .finite ⟨negative, n, -places⟩
    | _ :: power =>
      match readPointed? mantissa, readInteger? power with
      | some (n, places), some e => some (.finite ⟨negative, n, e - places⟩)
      | _, _ => none

/-- **The decimal written by an exact text**, if it is one. -/
def ofText? (s : String) : Option Decimal :=
  match s.toList with
  | '-' :: cs => readUnsigned? true cs
  | '+' :: cs => readUnsigned? false cs
  | cs => readUnsigned? false cs

end Decimal

end Reckoner
