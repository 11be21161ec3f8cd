import Reckoner.Session.Basic

/-!
# Requests to a session

A host keeps one session and makes requests to it, one after another. A request is carried out in
place, as a row of steps that read the session or change it. A fault stops the row where it stands:
what has been changed until then stays changed, nothing is taken back. That a request which fails
has changed nothing is therefore a matter of the order of its steps, and not of their form
(`Reckoner.Proofs.Session.InPlace`).
-/

namespace Reckoner.Session

/-- **What a variable is set to.** -/
inductive Assigned where
  /-- The value of a line, which is committed. -/
  | line (text : String)
  | decimal (value : Decimal)
  | integer (value : Int)

/-- **What a host may ask of a session.** -/
inductive Request where
  | evaluateQuietly (line : Option String)
  | evaluate (line : Option String)
  /-- Write a line to the history without evaluating it. -/
  | record (line : String)
  | setVariable (name : String) (value : Assigned)
  | clearHistory
  | reset

/-- How a request ends: with a fault, or with the value that was found, if one was looked for. -/
abbrev Outcome := Except Fault (Option Decimal)

/-! ## Steps -/

/-- **A row of steps** that read and change a session, and may be stopped by a fault. There is a
session after it in either case. -/
abbrev Steps := ExceptT Fault (StateM Session)

namespace Steps

/-- The value of a line becomes the last answer. -/
def compute (line : Option String) : Steps Decimal := do
  let s ← get
  let x ← liftExcept (s.compute line)
  modify fun s => { s with answer := x }
  return x

/-- A line is evaluated and then written to the history. -/
def commit (line : Option String) : Steps Decimal := do
  let x ← compute line
  if let some text := line then modify (·.record text)
  return x

/-- What a variable is set to becomes a value. -/
def valueOf : Assigned → Steps Decimal
  | .line text => commit (some text)
  | .decimal x => return x
  | .integer n => return .ofInt n

end Steps

/-- **The steps of a request.** -/
def Request.steps : Request → Steps (Option Decimal)
  | .evaluateQuietly line => some <$> Steps.compute line
  | .evaluate line => some <$> Steps.commit line
  | .record line => do
    modify (·.record line)
    return none
  | .setVariable name value => do
    let x ← Steps.valueOf value
    modify (·.assign name x)
    return some x
  | .clearHistory => do
    modify (·.clearHistory)
    return none
  | .reset => do
    modify (·.reset)
    return none

/-! ## Requests one after another -/

/-- **Carry out a request**: how it ends, and the session after it. -/
def serve (s : Session) (request : Request) : Outcome × Session := request.steps.run.run s

/-- **The session after requests**, whether they succeed or fail. -/
def after (s : Session) (requests : List Request) : Session :=
  requests.foldl (fun s request => (s.serve request).2) s

/-- **What has happened to a session**: a request was made, and has ended somehow. -/
structure Event where
  request : Request
  outcome : Outcome

/-- **What happens** when requests are made one after another. -/
def events (s : Session) : List Request → List Event
  | [] => []
  | request :: later => ⟨request, (s.serve request).1⟩ :: events (s.serve request).2 later

end Reckoner.Session
