import Reckoner.Display
import Reckoner.Expr.Parser
import Reckoner.Session.Bindings
import Reckoner.Session.History
import Reckoner.Token.Lexer

/-!
# Sessions

A session evaluates one line after another and keeps what later lines may refer to: the variables,
the last answer and the history. A line is evaluated *quietly* while it is being typed, and
*committed* when it is finished. Both set the last answer; only a committed line is written to the
history.

Every operation that may fail gives either a fault or a value with the session after it. There is no
session after a fault, so nothing can be changed by a line that fails.
-/

namespace Reckoner

-- Powers are those of the core library, also where an algebra library is imported.
attribute [local instance (high)] instPowNat

/-! ## Precision -/

/-- The number of digits that quotients and powers have at least. -/
def minPrecision : Nat := 50

/-- Why there is no context of some precision. -/
inductive PrecisionFault where
  /-- The precision is above the largest one. -/
  | aboveMaximum
  /-- The precision is no 64-bit integer. -/
  | aboveWord
deriving DecidableEq

/-- **The working context of a precision**, which is raised to `minPrecision` if it is lower. -/
def Context.ofPrecision (precision : Nat) : Except PrecisionFault Context :=
  let digits := max precision minPrecision
  if digits ≤ Context.maxPrecision then .ok (.working digits)
  else if digits < 2 ^ (63 : Nat) then .error .aboveMaximum
  else .error .aboveWord

/-! ## Evaluating a line -/

/-- **The value of a line**, given as the characters that were typed. -/
def evaluateLine (ctx : Context) (env : Environment) (line : List Char) : Except Fault Decimal :=
  if Unicode.isBlankText line then .error (.evaluation .emptyExpression 0)
  else do
    let tokens ← tokenize line
    ((Expr.ofTokens tokens line.length).eval ctx env).mapError Failure.toFault

/-! ## Sessions -/

/-- **A session.** -/
structure Session where
  /-- The context of quotients and powers. -/
  context : Context
  /-- The variables, by their names in lower case. -/
  «variables» : Bindings
  /-- The lines that were committed. -/
  history : History
  /-- The value of the last line that could be evaluated. -/
  answer : Decimal
deriving DecidableEq

namespace Session

/-- A session with nothing in it. -/
def empty (context : Context) : Session := ⟨context, [], [], .ofNat 0⟩

/-- A new session of a given precision. -/
def start (precision : Nat) : Except PrecisionFault Session :=
  (Context.ofPrecision precision).map empty

/-- What lines are evaluated with. -/
def environment (s : Session) : Environment := ⟨s.variables.get?, s.answer⟩

/-- **The value of a line** in a session. Without a line there is nothing to evaluate. -/
def compute (s : Session) : Option String → Except Fault Decimal
  | none => .error (.evaluation .emptyExpression 0)
  | some line => evaluateLine s.context s.environment line.toList

/-- **Evaluate a line quietly**: its value becomes the last answer. -/
def evaluateQuietly (s : Session) (line : Option String) : Except Fault (Decimal × Session) :=
  (s.compute line).map fun x => (x, { s with answer := x })

/-- Write a line to the history. -/
def record (s : Session) (line : String) : Session :=
  { s with history := History.record s.history line }

/-- **Evaluate and commit a line.** -/
def evaluate (s : Session) (line : Option String) : Except Fault (Decimal × Session) :=
  (s.evaluateQuietly line).map fun (x, s') =>
    (x, match line with
      | some text => s'.record text
      | none => s')

/-- **Bind a variable** to a value. Letter case does not matter in its name. -/
def assign (s : Session) (name : String) (value : Decimal) : Session :=
  { s with «variables» := s.variables.set (Unicode.lowerText name) value }

/-- **Bind a variable to the value of a line**, which is committed. -/
def assignLine (s : Session) (name line : String) : Except Fault (Decimal × Session) :=
  (s.evaluate (some line)).map fun (x, s') => (x, s'.assign name x)

/-- Forget the history. -/
def clearHistory (s : Session) : Session := { s with history := [] }

/-- Forget variables, history and last answer. -/
def reset (s : Session) : Session := .empty s.context

/-- The line that shows a variable; special values are not shown. -/
def describeVariable (binding : String × Decimal) : Option String :=
  (binding.2.grouped? true).map fun text => "  $" ++ binding.1 ++ " = " ++ text

/-- **The list of variables** with their values, if all of these can be shown. -/
def describeVariables? (s : Session) : Option String :=
  if s.variables.isEmpty then some "No variables defined"
  else
    (s.variables.mapM describeVariable).map fun lines =>
      "\n".intercalate (("Variables (" ++ toString s.variables.length ++ "):") :: lines)

end Session

end Reckoner
