import Reckoner.Decimal.Basic
import Reckoner.Unicode.Numeral
import Reckoner.Vocabulary

/-!
# Tokens

A line is a sequence of tokens with blanks between them. What a token says is its `Lexeme`; a
`Token` adds how it is spelled in the line and where it stands. Lexeme and spelling differ where
the calculator reads more than one spelling as the same thing: an `x` between two numbers is the
operator `*`, and names are taken in lower case.

The word `ans` is a number like a written one – a unit may follow it – but which number is not
known before the line is evaluated, so its lexeme carries none.
-/

namespace Reckoner

/-- **A written number**: decimal digits with at most one point among them. At least one of the two
parts has a digit. -/
structure Numeral where
  /-- The digits before the point. -/
  whole : List Char
  /-- The digits after the point, if there is a point. -/
  fraction : Option (List Char)
deriving DecidableEq

namespace Numeral

/-- The characters of a numeral. -/
def chars (n : Numeral) : List Char :=
  match n.fraction with
  | none => n.whole
  | some digits => n.whole ++ '.' :: digits

/-- **The value of a numeral.** Every digit after the point counts as a place, zeros included. -/
def value (n : Numeral) : Scaled :=
  let places := n.fraction.getD []
  ⟨false, Unicode.digitsValue (n.whole ++ places), -places.length⟩

/-- Whether the numeral is a single ASCII zero. An `x` after it does not multiply, so that `0x10`
is not taken for a product. -/
def isLoneZero (n : Numeral) : Bool := n.chars == ['0']

end Numeral

/-- **What a token says.** -/
inductive Lexeme where
  | number (numeral : Numeral)
  | answer
  | operator (op : Operator)
  | opening
  | closing
  | function (f : Builtin)
  | unit (u : UnitSuffix)
  | variable (name : String)
deriving DecidableEq

namespace Lexeme

/-- The text of a lexeme, in the one spelling it is quoted with. -/
def text : Lexeme → String
  | .number numeral => String.ofList numeral.chars
  | .answer => "ans"
  | .operator op => op.symbol.toString
  | .opening => "("
  | .closing => ")"
  | .function f => f.text
  | .unit u => u.text
  | .variable name => name

/-- **The number a lexeme stands for**, if it is a number, when `answer` is the last answer. -/
def number? (answer : Decimal) : Lexeme → Option Decimal
  | .number numeral => some (.finite numeral.value)
  | .answer => some answer
  | _ => none

/-- Whether a unit may follow. -/
def takesUnit : Lexeme → Bool
  | .number _ | .answer => true
  | _ => false

end Lexeme

/-- **A token**: a lexeme, its spelling, and the number of characters before it. -/
structure Token where
  lexeme : Lexeme
  spelling : List Char
  position : Nat
deriving DecidableEq

end Reckoner
