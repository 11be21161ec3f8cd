import Reckoner.Decimal.Scaled

/-!
# Operators, units and functions

The fixed words of the calculator. Each kind is an enumeration with its spelling and its meaning
beside it, so that a token carries the operator, unit or function itself and not its name.
-/

namespace Reckoner

/-- **The operators.** -/
inductive Operator where
  | add
  | subtract
  | multiply
  | divide
  | power
  | remainder
deriving DecidableEq

namespace Operator

/-- The character an operator is written with. -/
def symbol : Operator → Char
  | add => '+'
  | subtract => '-'
  | multiply => '*'
  | divide => '/'
  | power => '^'
  | remainder => '%'

/-- The operator written with a character, if it is one. -/
def ofChar? : Char → Option Operator
  | '+' => some add
  | '-' => some subtract
  | '*' => some multiply
  | '/' => some divide
  | '^' => some power
  | '%' => some remainder
  | _ => none

theorem ofChar?_symbol (op : Operator) : ofChar? op.symbol = some op := by
  cases op <;> rfl

end Operator

/-- **The units** that may follow a number: multiples of currency, quantities of items, and
containers. -/
inductive UnitSuffix where
  | thousand
  | million
  | billion
  | trillion
  | stack
  | enchanted
  | shulkerBox
  | smallChest
  | doubleChest
  | enderChest
deriving DecidableEq

namespace UnitSuffix

/-- Every unit, in the order of the spellings. -/
def all : List UnitSuffix :=
  [billion, doubleChest, enchanted, enderChest, shulkerBox, thousand, million, stack, smallChest,
    trillion]

/-- The spelling of a unit. -/
def text : UnitSuffix → String
  | thousand => "k"
  | million => "m"
  | billion => "b"
  | trillion => "t"
  | stack => "s"
  | enchanted => "e"
  | shulkerBox => "h"
  | smallChest => "sc"
  | doubleChest => "dc"
  | enderChest => "eb"

/-- **How many a unit stands for.** -/
def size : UnitSuffix → Nat
  | thousand => 1000
  | million => 1000000
  | billion => 1000000000
  | trillion => 1000000000000
  | stack => 64
  | enchanted => 160
  | shulkerBox => 1728
  | smallChest => 1728
  | doubleChest => 3456
  | enderChest => 2880

/-- The unit with a spelling, if it is one. -/
def ofText? (s : String) : Option UnitSuffix := all.find? (·.text == s)

theorem ofText?_text (u : UnitSuffix) : ofText? u.text = some u := by
  cases u <;> rfl

end UnitSuffix

/-- **The functions** of one argument. -/
inductive Builtin where
  | sqrt
  | abs
  | floor
  | ceil
  | round
deriving DecidableEq

namespace Builtin

/-- Every function, in the order of the names. -/
def all : List Builtin := [abs, ceil, floor, round, sqrt]

/-- The name of a function. -/
def text : Builtin → String
  | sqrt => "sqrt"
  | abs => "abs"
  | floor => "floor"
  | ceil => "ceil"
  | round => "round"

/-- The function with a name, if it is one. -/
def ofText? (s : String) : Option Builtin := all.find? (·.text == s)

theorem ofText?_text (f : Builtin) : ofText? f.text = some f := by
  cases f <;> rfl

end Builtin

end Reckoner
