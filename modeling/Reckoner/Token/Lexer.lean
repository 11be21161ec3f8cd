import Reckoner.Fault
import Reckoner.Token.Basic
import Reckoner.Unicode.Blank
import Reckoner.Unicode.Case

/-!
# Cutting a line into tokens

At each place the longest token is read that starts there (`lexemeAt`), and reading goes on behind
it. A line that holds a character no token starts with, or a point without digits, has no tokens at
all: the first such place is reported.

Reading depends on what stands to the left in two ways, and `Left` keeps just that. A name is a
unit only right after a number. The letter `x` multiplies right after a digit, a closing parenthesis
or a unit, and is part of a name everywhere else. A bare name ends before an `x`, so that `10kx5` is
a product; after a dollar sign a name keeps every `x`.
-/

namespace Reckoner

/-- **What stands to the left** of a place: the character right before it, if any, and the last
token. -/
structure Left where
  before : Option Char
  last : Option Lexeme
deriving DecidableEq

namespace Left

/-- At the start of a line. -/
def start : Left := ⟨none, none⟩

/-- **Whether an `x` multiplies** here. -/
def multiplies (left : Left) : Bool :=
  match left.before with
  | none => false
  | some c =>
    if Unicode.isDecimal c then
      match left.last with
      | some (.number numeral) => !numeral.isLoneZero
      | _ => true
    else if c = ')' then true
    else
      match left.last with
      | some (.unit _) => true
      | _ => false

/-- Whether the last token is a number that a unit may follow. -/
def endsInNumber (left : Left) : Bool := left.last.any Lexeme.takesUnit

end Left

/-- Whether a character is one of the letters that may multiply. -/
def isTimesLetter (c : Char) : Bool := c == 'x' || c == 'X'

/-- The rest of a number that starts with the digit or point `c`, and how many of the following
characters it takes. -/
def numeralAt (c : Char) (cs : List Char) : Except Cause (Lexeme × Nat) :=
  if c = '.' then
    let places := cs.takeWhile Unicode.isDecimal
    if places.isEmpty then .error .invalidNumber
    else .ok (.number ⟨[], some places⟩, places.length)
  else
    let digits := cs.takeWhile Unicode.isDecimal
    match cs.dropWhile Unicode.isDecimal with
    | '.' :: rest =>
      let places := rest.takeWhile Unicode.isDecimal
      .ok (.number ⟨c :: digits, some places⟩, digits.length + 1 + places.length)
    | _ => .ok (.number ⟨c :: digits, none⟩, digits.length)

/-- **What a name means**: a function, a unit if it follows a number, the last answer, or a
variable. Letter case does not matter. -/
def nameLexeme (left : Left) (name : List Char) : Lexeme :=
  let text := String.ofList (Unicode.lower name)
  match Builtin.ofText? text with
  | some f => .function f
  | none =>
    match UnitSuffix.ofText? text with
    | some u => if left.endsInNumber then .unit u else .variable text
    | none => if text = "ans" then .answer else .variable text

/-- **The token that starts with `c`**, given what stands to its left and the characters `cs` after
it, and how many of these it takes. -/
def lexemeAt (left : Left) (c : Char) (cs : List Char) : Except Cause (Lexeme × Nat) :=
  if Unicode.isDecimal c || c = '.' then numeralAt c cs
  else
    match Operator.ofChar? c with
    | some op => .ok (.operator op, 0)
    | none =>
      if isTimesLetter c && left.multiplies then .ok (.operator .multiply, 0)
      else if c = '(' then .ok (.opening, 0)
      else if c = ')' then .ok (.closing, 0)
      else if c = '$' then
        let name := cs.takeWhile Unicode.isWordChar
        .ok (nameLexeme left name, name.length)
      else if Unicode.isLetter c then
        let more := cs.takeWhile fun d => Unicode.isWordChar d && !isTimesLetter d
        .ok (nameLexeme left (c :: more), more.length)
      else .error (.unexpectedCharacter c.toString)

/-- The tokens of the characters of a line from `position` on. -/
def tokensFrom (position : Nat) (left : Left) : List Char → Except Fault (List Token)
  | [] => .ok []
  | c :: cs =>
    if Unicode.isBlank c then tokensFrom (position + 1) { left with before := some c } cs
    else
      match lexemeAt left c cs with
      | .error cause => .error (.lexing cause position)
      | .ok (lexeme, more) =>
        let spelling := c :: cs.take more
        let next : Left := ⟨spelling.getLast?, some lexeme⟩
        (tokensFrom (position + more + 1) next (cs.drop more)).map
          fun tokens => ⟨lexeme, spelling, position⟩ :: tokens
termination_by cs => cs.length
decreasing_by
  · simp
  · simp only [List.length_drop, List.length_cons]
    omega

/-- **The tokens of a line.** -/
def tokenize (line : List Char) : Except Fault (List Token) := tokensFrom 0 .start line

/-! ## The end of a line -/

/-- **What reading comes upon** from left to right: a token, or the end of the line. -/
inductive Mark where
  | token (token : Token)
  | lineEnd (position : Nat)
deriving DecidableEq

/-- How many characters stand before a mark. -/
def Mark.position : Mark → Nat
  | .token t => t.position
  | .lineEnd position => position

/-- **The marks of a line**: its tokens, and its end behind them. -/
def marks (line : List Char) : Except Fault (List Mark) :=
  (tokenize line).map fun tokens => tokens.map .token ++ [.lineEnd line.length]

end Reckoner
