import Reckoner.Decimal.Digits
import Reckoner.Unicode.Blank
import Reckoner.Unicode.Numeral

/-!
# Arguments of the command line

The calculator is started with options: `--config` and `--precision`, each with a value, and
`--help`. A long option may be cut short as long as one option is meant, and its value may follow it
or be joined to it by an equals sign. Two dashes that are joined to an option are taken away, so that it
is given without a value. There is nothing else to give, so any other argument is refused.

An argument is classified by itself first (`Argument.ofText`): an option, a value, or an option that
does not exist. Then the options are taken from left to right. The first mistake on the way ends the
start, as does a call for help; arguments that are not understood are only refused if the end is
reached.
-/

namespace Reckoner.Launch

open Unicode

/-! ## Integers -/

/-- The digits of a number that may have single low lines between them, given whether a digit stands
before. It ends in a digit. -/
def readDigits? (afterDigit : Bool) : List Char → Option (List Char)
  | [] => if afterDigit then some [] else none
  | c :: rest =>
    if isDecimal c then (readDigits? true rest).map (c :: ·)
    else if c = '_' && afterDigit then readDigits? false rest
    else none

/-- The natural number written by digits of any script. -/
def readNatural? (cs : List Char) : Option Nat := do
  let digits ← readDigits? false cs
  if maxIntegerDigits < digits.length then none else some (Unicode.digitsValue digits)

/-- Whether a character may stand around a number: a blank, but not one of the four separators among
the control characters. -/
def isMargin (c : Char) : Bool := isBlank c && !(0x1C ≤ c.toNat && c.toNat ≤ 0x1F)

/-- **The integer that an argument holds**: digits after an optional sign, blanks around both. -/
def readInteger? (s : String) : Option Int :=
  match ((s.toList.dropWhile isMargin).reverse.dropWhile isMargin).reverse with
  | '-' :: digits => (readNatural? digits).map fun n => -(n : Int)
  | '+' :: digits => (readNatural? digits).map Int.ofNat
  | digits => (readNatural? digits).map Int.ofNat

/-! ## Single arguments -/

/-- **The options.** -/
inductive Flag where
  | help
  | config
  | precision
deriving DecidableEq

namespace Flag

/-- The options by their long names. -/
def names : List (String × Flag) :=
  [("--help", help), ("--config", config), ("--precision", precision)]

/-- The options whose names begin with a text. -/
def beginningWith (start : String) : List Flag :=
  (names.filter fun n => start.toList.isPrefixOf n.1.toList).map (·.2)

end Flag

/-- **An argument by itself.** -/
inductive Argument where
  /-- A value for an option, or one too many. -/
  | value (text : String)
  /-- An option, with the value that is joined to it. -/
  | option (flag : Flag) (joined : Option String)
  /-- The short form of `--help`, with the letters that are joined to it. -/
  | shortHelp (letters : List Char)
  /-- An option that does not exist. -/
  | unknown
  /-- An option that more than one may be meant by. -/
  | ambiguous

namespace Argument

/-- The text before the first equals sign and the text after it, if there is one. -/
def splitEquals (s : String) : String × Option String :=
  let cs := s.toList
  match cs.dropWhile (· != '=') with
  | [] => (s, none)
  | _ :: rest => (String.ofList (cs.takeWhile (· != '=')), some (String.ofList rest))

/-- Whether a text looks like a negative number, which is a value though it begins with a dash. A
line break at the end does no harm. -/
def isNegativeNumber (s : String) : Bool :=
  match s.toList with
  | '-' :: cs =>
    let cs := if cs.getLast? == some '\n' then cs.dropLast else cs
    let rest := cs.dropWhile isDecimal
    match rest with
    | [] => !cs.isEmpty
    | '.' :: places => !places.isEmpty && places.all isDecimal
    | _ => false
  | _ => false

/-- An argument that begins with a dash and is no option: a value if it looks like one. -/
def dashed (s : String) : Argument :=
  if isNegativeNumber s || s.contains ' ' then .value s else .unknown

/-- **What an argument is by itself.** -/
def ofText (s : String) : Argument :=
  match s.toList with
  | '-' :: 'h' :: letters => .shortHelp letters
  | '-' :: '-' :: _ =>
    let (name, joined) := splitEquals s
    match Flag.names.lookup name with
    | some flag => .option flag joined
    | none =>
      match Flag.beginningWith name with
      | [] => dashed s
      | [flag] => .option flag joined
      | _ => .ambiguous
  | '-' :: _ :: _ => dashed s
  | _ => .value s

end Argument

/-! ## All arguments -/

/-- **What an option says**: nothing if it is not given, and `some none` if it is given without a
value. -/
abbrev Given (α : Type) := Option (Option α)

/-- **What the options say.** -/
structure Options where
  config : Given String := none
  precision : Given Int := none
deriving DecidableEq

/-- **Why the calculator does not start.** -/
inductive Stop where
  /-- Help was called for. -/
  | help
  /-- The arguments are not understood. -/
  | usage
deriving DecidableEq

/-- The code that a process ends with. -/
def Stop.exitCode : Stop → Nat
  | .help => 0
  | .usage => 2

/-- What the short form of a call for help does with the letters joined to it. It may only be
repeated; an equals sign may stand before the letters that repeat it. -/
def helpStop (letters : List Char) : Stop :=
  let repeated :=
    match letters with
    | '=' :: rest => !rest.isEmpty && rest.all (· == 'h')
    | letters => letters.all (· == 'h')
  if repeated then .help else .usage

namespace Options

/-- The options with a value set, if it is one. Two dashes leave no value, and help takes none. -/
def set? (options : Options) (flag : Flag) (text : String) : Except Stop Options :=
  match flag with
  | .help => .error .usage
  | .config => .ok { options with config := some (if text = "--" then none else some text) }
  | .precision =>
    if text = "--" then .ok { options with precision := some none }
    else
      match readInteger? text with
      | some n => .ok { options with precision := some (some n) }
      | none => .error .usage

/-- Take options from left to right. `stray` says whether something was not understood. -/
def take (options : Options) (stray : Bool) : List Argument → Except Stop Options
  | [] => if stray then .error .usage else .ok options
  | .value _ :: rest => take options true rest
  | .unknown :: rest => take options true rest
  | .ambiguous :: _ => .error .usage
  | .shortHelp letters :: _ => .error (helpStop letters)
  | .option .help none :: _ => .error .help
  | .option flag (some text) :: rest => do take (← options.set? flag text) stray rest
  | .option flag none :: .value text :: rest => do take (← options.set? flag text) stray rest
  | .option _ none :: _ => .error .usage

/-- **Read the arguments.** What follows two dashes is not understood, like the dashes themselves. -/
def ofArguments (arguments : List String) : Except Stop Options :=
  let before := arguments.takeWhile (· != "--")
  let classified := before.map Argument.ofText
  if classified.any (fun a => match a with | .ambiguous => true | _ => false) then .error .usage
  else if before.length < arguments.length then take {} false (classified ++ [.unknown])
  else take {} false classified

end Options

end Reckoner.Launch
