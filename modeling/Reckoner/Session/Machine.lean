import Reckoner.Expr.Effort
import Reckoner.Session.Basic

/-!
# Machines

A session says what the value of a line is, however long the line and however large the numbers. The
machine that has to find the value is finite. Functions may call each other only so deep, and a
parenthesis that is opened takes seven calls; a number may have only so many digits, and a line of a
few characters can ask for more than any machine holds.

A line that is too much for its machine has no answer, not even a fault: the calculator is not
prepared for that. How much is too much is for the machine to say, so it is a parameter here, and
what is proved holds for all machines.
-/

namespace Reckoner

-- Powers are those of the core library, also where an algebra library is imported.
attribute [local instance (high)] instPowNat

/-- **A machine.** -/
structure Machine where
  /-- How deep functions may call each other while a line is evaluated. -/
  calls : Nat
  /-- How many digits may be written down for a number. -/
  digits : Nat

/-- **What a machine is too small for.** -/
inductive Shortage where
  /-- The line cannot be evaluated. -/
  | evaluating
  /-- The line is evaluated, and its value is too long to be shown. -/
  | showing
deriving DecidableEq

namespace Machine

/-- A usual machine: there may be a thousand calls, some of which have been made when a line comes
to be evaluated, and there is memory for ten billion digits. -/
def usual : Machine := ⟨990, 10 ^ (10 : Nat)⟩

/-- **Whether a machine can evaluate a line**, in a session. -/
def evaluates (machine : Machine) (s : Session) (line : String) : Bool :=
  let stop := line.toList.length
  if Unicode.isBlankText line.toList then true
  else
    match tokenize line.toList with
    | .error _ => true
    | .ok tokens =>
      ((Expr.ofTokens tokens stop).evalWithin machine.digits s.context s.environment).hasEnded
        && ((Row.ofTokens s.answer tokens stop).valueWithin s.context s.environment
          machine.calls).hasEnded

/-- **Whether a machine can show a value.** What is after the point is cut off, but what is before
it is written in full. A special value has no digits. -/
def shows (machine : Machine) : Decimal → Bool
  | .finite a => a.digitsAt (min 0 a.exponent) ≤ machine.digits
  | _ => true

/-- **What a machine is too small for**, if a line is to be evaluated and its value shown. -/
def shortage? (machine : Machine) (s : Session) (line : String) : Option Shortage :=
  if !machine.evaluates s line then some .evaluating
  else
    match s.compute (some line) with
    | .ok x => if machine.shows x then none else some .showing
    | .error _ => none

end Machine

end Reckoner
