import Reckoner.Decimal.Binary
import Reckoner.Settings.File

/-!
# Generous validation

Loading leaves it open how the values in a document are understood (`Loader`). This is how the
program that is run does it. A document gives entries if it is an object whose members can be
understood. Members with other keys are ignored, and an entry without a member keeps its initial
value.

Values are understood generously. An integer may be written as a number without a fractional part,
as a text, or as a truth value; a truth value may be written as `0` or `1` or by one of the usual
words. What cannot be understood is a `Problem`, and all problems of a document are reported
together, in the order of the keys.
-/

namespace Reckoner

-- Powers are those of the core library, also where an algebra library is imported.
attribute [local instance (high)] instPowNat

/-- **What is wrong with a value.** -/
inductive Problem where
  /-- The document is no object. -/
  | notObject
  /-- The value is nothing an integer can be taken from. -/
  | notInteger
  /-- The text is not that of an integer. -/
  | integerText
  /-- The integer is too large to be read. -/
  | integerSize
  /-- The number has a fractional part. -/
  | fractional
  /-- The number is infinite or not a number. -/
  | notFinite
  /-- The text holds half of a surrogate pair. -/
  | brokenText
  /-- The value is nothing a truth value can be taken from. -/
  | notFlag
  /-- The number or text is not that of a truth value. -/
  | flagValue
deriving DecidableEq

namespace JsonValue

/-! ## Integers -/

/-- Whether a character is trimmed from the ends of a text that holds an integer: the characters
with the Unicode property White_Space. -/
def isSpace (c : Char) : Bool :=
  let n := c.toNat
  (9 ≤ n && n ≤ 13) || n == 0x20 || n == 0x85 || n == 0xA0 || n == 0x1680 ||
    (0x2000 ≤ n && n ≤ 0x200A) || n == 0x2028 || n == 0x2029 || n == 0x202F || n == 0x205F ||
    n == 0x3000

/-- A text without the spaces at its ends. -/
def trimSpaces (cs : List Char) : List Char :=
  ((cs.dropWhile isSpace).reverse.dropWhile isSpace).reverse

/-- A text without its plus sign. A minus sign must not follow it. -/
def dropPlus? (cs : List Char) : Option (List Char) :=
  match cs with
  | '+' :: '-' :: _ => none
  | '+' :: rest => some rest
  | cs => some cs

/-- What follows zeros and low lines at the front of a number, given the last of these. A minus sign
may follow them. -/
def afterZeros? (last : Char) : List Char → Option (List Char)
  | [] => some [last]
  | c :: cs =>
    if c = '0' || c = '_' then afterZeros? c cs
    else if c.isDigit || c = '-' then some (c :: cs)
    else if c = '.' then some (last :: c :: cs)
    else none

/-- A number without the zeros at its front. It has to begin with a digit. -/
def dropZeros? (cs : List Char) : Option (List Char) :=
  match cs with
  | [] => none
  | c :: rest =>
    if c = '0' then afterZeros? c rest
    else if c.isDigit then some cs
    else none

/-- A number without the zeros at its front, or after the minus sign at its front. -/
def dropSignedZeros? (cs : List Char) : Option (List Char) :=
  match cs with
  | '-' :: rest => (dropZeros? rest).map ('-' :: ·)
  | cs => dropZeros? cs

/-- A number without a point that only zeros follow. -/
def dropPoint (cs : List Char) : List Char :=
  let places := (cs.dropWhile (· != '.')).drop 1
  if !places.isEmpty && places.all (· == '0') then cs.takeWhile (· != '.') else cs

/-- Whether two low lines stand side by side. -/
def hasDoubleLine : List Char → Bool
  | '_' :: '_' :: _ => true
  | _ :: rest => hasDoubleLine rest
  | [] => false

/-- A number without low lines, which may stand singly between other characters. -/
def dropLines (cs : List Char) : List Char :=
  if cs.head? == some '_' || cs.getLast? == some '_' || hasDoubleLine cs then cs
  else cs.filter (· != '_')

/-- The natural number of digits that do not begin with a needless zero. -/
def plainNat? (digits : List Char) : Option Nat :=
  if digits.isEmpty || !digits.all Char.isDigit then none
  else if digits.head? == some '0' && digits.length != 1 then none
  else some (digitsValue digits)

/-- The integer of digits after an optional minus sign. -/
def plainInt? (cs : List Char) : Option Int :=
  match cs with
  | '-' :: digits => (plainNat? digits).map fun n => -(n : Int)
  | digits => (plainNat? digits).map Int.ofNat

/-- The length of the digits at the front of a number, if they do not begin with a zero. -/
def leadingLength (cs : List Char) : Nat :=
  if cs.head? == some '0' then 0 else (cs.takeWhile Char.isDigit).length

/-- Whether a number begins with more digits than are read. The minus sign counts as a digit, and
what follows the digits does not matter. -/
def isOversized (cs : List Char) : Bool :=
  match cs with
  | '-' :: rest => maxIntegerDigits < leadingLength rest + 1
  | cs => maxIntegerDigits < leadingLength cs

/-- **The integer that a text holds.** -/
def integerOfText (cs : List Char) : Except Problem Int :=
  match (dropPlus? (trimSpaces cs)).bind dropSignedZeros? with
  | none => .error .integerText
  | some cs =>
    let digits := dropLines (dropPoint cs)
    if isOversized digits then .error .integerSize
    else
      match plainInt? digits with
      | some n => .ok n
      | none => .error .integerText

/-- **The integer that a binary fraction is**, if it is one and has at most 63 bits. -/
def integerOfFraction (x : Decimal) : Except Problem Int :=
  match x with
  | .finite a =>
    match Binary.ofScaled? a with
    | none => .error .notFinite
    | some b =>
      match b.toNat? with
      | none => .error .fractional
      | some n =>
        if n < 2 ^ (63 : Nat) then .ok (if a.negative then -(n : Int) else n)
        else .error .integerSize
  | _ => .error .notFinite

/-- **An integer**, generously understood. -/
def toInteger : JsonValue → Except Problem Int
  | .integer n => .ok n
  | .flag b => .ok (if b then 1 else 0)
  | .fraction x => integerOfFraction x
  | .text (some s) => integerOfText s.toList
  | .text none => .error .brokenText
  | _ => .error .notInteger

/-! ## Truth values -/

/-- The words for true. -/
def trueWords : List String := ["1", "t", "true", "on", "y", "yes"]

/-- The words for false. -/
def falseWords : List String := ["0", "f", "false", "off", "n", "no"]

/-- The truth value of an integer. -/
def flagOfInteger (n : Int) : Except Problem Bool :=
  if n = 0 then .ok false else if n = 1 then .ok true else .error .flagValue

/-- **A truth value**, generously understood. Letter case does not matter in words. -/
def toFlag : JsonValue → Except Problem Bool
  | .flag b => .ok b
  | .integer n =>
    if -(2 ^ (63 : Nat)) ≤ n ∧ n < 2 ^ (63 : Nat) then flagOfInteger n else .error .notFlag
  | .fraction x =>
    match integerOfFraction x with
    | .ok n => flagOfInteger n
    | .error _ => .error .notFlag
  | .text (some s) =>
    let word := s.toLower
    if trueWords.contains word then .ok true
    else if falseWords.contains word then .ok false
    else .error .flagValue
  | .text none => .error .brokenText
  | _ => .error .notFlag

end JsonValue

/-! ## Entries -/

namespace Lax

/-- The member with a given key as `read` understands it, or the initial value. -/
def entry {α : Type} (members : List (Option String × JsonValue)) (key : String) (initial : α)
    (read : JsonValue → Except Problem α) : Except Problem α :=
  match JsonValue.member? key members with
  | none => .ok initial
  | some v => read v

/-- The problem of an entry, with its key. -/
def problemOf {α : Type} (key : String) : Except Problem α → List (Option String × Problem)
  | .ok _ => []
  | .error problem => [(some key, problem)]

/-- **The entries of a document**, or everything that is wrong with it. A problem with no key is one
of the whole document. -/
def read : JsonValue → Except (List (Option String × Problem)) Entries
  | .object members =>
    let precision := entry members "decimal_precision" Entries.initial.decimalPrecision
      JsonValue.toInteger
    let commas := entry members "enable_comma_formatting" Entries.initial.enableCommaFormatting
      JsonValue.toFlag
    let navigation := entry members "enable_history_navigation"
      Entries.initial.enableHistoryNavigation JsonValue.toFlag
    let inline := entry members "show_inline_results" Entries.initial.showInlineResults
      JsonValue.toFlag
    let suggestions := entry members "show_unit_suggestions" Entries.initial.showUnitSuggestions
      JsonValue.toFlag
    match precision, commas, navigation, inline, suggestions with
    | .ok decimalPrecision, .ok enableCommaFormatting, .ok enableHistoryNavigation,
        .ok showInlineResults, .ok showUnitSuggestions =>
      .ok { decimalPrecision, showUnitSuggestions, enableHistoryNavigation, showInlineResults,
            enableCommaFormatting }
    | _, _, _, _, _ =>
      .error (problemOf "decimal_precision" precision
        ++ problemOf "enable_comma_formatting" commas
        ++ problemOf "enable_history_navigation" navigation
        ++ problemOf "show_inline_results" inline
        ++ problemOf "show_unit_suggestions" suggestions)
  | _ => .error [(none, .notObject)]

/-- How deep arrays and objects of a settings file may be nested in each other. -/
def nesting : Nat := 980

/-- **The loader of the program.** -/
def loader : Loader := ⟨nesting, by decide, fun document => (read document).toOption⟩

end Lax

end Reckoner
