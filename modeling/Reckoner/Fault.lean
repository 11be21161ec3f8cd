import Reckoner.Decimal.Rounding
import Reckoner.Text.Quoted

/-!
# Faults

What can be wrong with a line is a `Cause`; a `Fault` says where. Positions count characters from
the start of the line.

Two kinds of trouble have to be told apart while a line is evaluated. A *fault* is found by the
calculator itself and is blamed on a token. A *signal* is raised inside decimal arithmetic, which
knows nothing of tokens. Both travel as `Failure`; only when the whole line has failed is a signal
turned into the fault it amounts to, placed at the start of the line (`Failure.toFault`).
-/

namespace Reckoner

/-- **What can be wrong with a line.** The text is the one that the message quotes. -/
inductive Cause where
  | emptyExpression
  | invalidNumber
  | unexpectedCharacter (char : String)
  | unfinishedExpression
  | divisionByZero
  | moduloByZero
  | exponentTooLarge
  | negativePower
  | undefinedVariable (name : String)
  | expectedParenthesis (function : String)
  | expectedClosingParen
  | unmatchedParenthesis
  | unexpectedToken (token : String)
  | unexpectedEnd
  | negativeSqrt
  | unknownFunction (name : String)
  | resultTooLarge
deriving DecidableEq

namespace Cause

/-- **The message** for a cause. -/
def message : Cause → String
  | emptyExpression => "Empty expression"
  | invalidNumber => "Invalid number"
  | unexpectedCharacter c => "Unexpected character '" ++ c ++ "'"
  | unfinishedExpression => "Unfinished expression"
  | divisionByZero => "Division by zero"
  | moduloByZero => "Modulo by zero"
  | exponentTooLarge => "Exponent too large (max 1000)"
  | negativePower => "Cannot raise to a non-integer power"
  | undefinedVariable name => "Undefined variable: " ++ name
  | expectedParenthesis function => "Expected '(' after " ++ function
  | expectedClosingParen => "Expected ')'"
  | unmatchedParenthesis => "Unmatched parenthesis"
  | unexpectedToken token => "Unexpected token '" ++ token ++ "'"
  | unexpectedEnd => "Unexpected end of expression"
  | negativeSqrt => "Cannot take square root of a negative number"
  | unknownFunction name => "Unknown function: " ++ name
  | resultTooLarge => "Result too large"

/-- **The code** of a cause, by which programs tell causes apart. -/
def code : Cause → String
  | emptyExpression => "empty_expression"
  | invalidNumber => "invalid_number"
  | unexpectedCharacter _ => "unexpected_character"
  | unfinishedExpression => "unfinished_expression"
  | divisionByZero => "division_by_zero"
  | moduloByZero => "modulo_by_zero"
  | exponentTooLarge => "exponent_too_large"
  | negativePower => "negative_power"
  | undefinedVariable _ => "undefined_variable"
  | expectedParenthesis _ => "expected_parenthesis"
  | expectedClosingParen => "expected_closing_paren"
  | unmatchedParenthesis => "unmatched_parenthesis"
  | unexpectedToken _ => "unexpected_token"
  | unexpectedEnd => "unexpected_end"
  | negativeSqrt => "negative_sqrt"
  | unknownFunction _ => "unknown_function"
  | resultTooLarge => "result_too_large"

/-- The name of a cause: its code in capitals. -/
def name (cause : Cause) : String := cause.code.toUpper

end Cause

/-- Where a fault is found: while the line is cut into tokens, or while these are evaluated. -/
inductive Phase where
  | lexing
  | evaluation
deriving DecidableEq

/-- **A fault**: what is wrong, and the position it is blamed on. -/
structure Fault where
  phase : Phase
  cause : Cause
  /-- How many characters stand before the place. -/
  position : Nat
deriving DecidableEq

namespace Fault

/-- A fault found while a line is cut into tokens. -/
def lexing (cause : Cause) (position : Nat) : Fault := ⟨.lexing, cause, position⟩

/-- A fault found while tokens are evaluated. -/
def evaluation (cause : Cause) (position : Nat) : Fault := ⟨.evaluation, cause, position⟩

/-- The message of the cause. -/
def message (fault : Fault) : String := fault.cause.message

end Fault

/-- **A fault in one line for logs**: name, quoted message and position. -/
def Cause.describe (cause : Cause) (position : Int) : String :=
  "CalculatorError(" ++ cause.name ++ ", " ++ Text.quoted cause.message ++ ", pos="
    ++ toString position ++ ")"

/-- **The cause a signal amounts to.** -/
def Signal.cause : Signal → Cause
  | .overflow => .resultTooLarge
  | .divisionByZero => .divisionByZero
  | _ => .invalidNumber

/-- **Why an evaluation fails**: a fault blamed on a token, or a signal of the arithmetic. -/
inductive Failure where
  | fault (fault : Fault)
  | signal (signal : Signal)
deriving DecidableEq

/-- The fault a failure is reported as. A signal is placed at the start of the line. -/
def Failure.toFault : Failure → Fault
  | .fault f => f
  | .signal s => .evaluation s.cause 0

end Reckoner
