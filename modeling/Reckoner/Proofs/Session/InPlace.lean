import Reckoner.Proofs.Outcome
import Reckoner.Session.Request

/-!
# Requests carried out in place

A request runs through its steps on the one session there is, and what a step has
changed stays changed if a later one fails. The operations of a session are
written in another way: they give a session only if there is a value. The two
agree (`Session.serve_evaluate` and its neighbours), because the only step that
can fail comes before the first one that changes anything.

`Session.Served` lists what a request can come to: a fault of its line, with the
session as it was, or one of eight changes. What holds of sessions that are used
for a while is proved by going through this list; what a request leaves as it was
is the first use of it.
-/

namespace Reckoner

/-- **The bindings of all names but one**, in their order. -/
def Bindings.others (name : String) (bindings : Bindings) : Bindings :=
  bindings.filter (·.1 ≠ name)

namespace Bindings

theorem others_cons_self (name : String) (x : Decimal) (rest : Bindings) :
    others name ((name, x) :: rest) = others name rest :=
  List.filter_cons_of_neg (by simp)

theorem others_cons_of_ne {name key : String} (h : key ≠ name) (x : Decimal) (rest : Bindings) :
    others name ((key, x) :: rest) = (key, x) :: others name rest :=
  List.filter_cons_of_pos (decide_eq_true h)

/-- Binding a name leaves the other bindings as they are. -/
theorem others_set (name : String) (x : Decimal) (bindings : Bindings) :
    (bindings.set name x).others name = bindings.others name := by
  induction bindings with
  | nil => exact others_cons_self name x []
  | cons pair rest ih =>
    obtain ⟨key, old⟩ := pair
    rw [set]
    split
    · next hkey => rw [hkey, others_cons_self, others_cons_self]
    · next hkey =>
      split
      · rw [others_cons_self]
      · rw [others_cons_of_ne hkey, others_cons_of_ne hkey, ih]

end Bindings

namespace Session

variable {s s' : Session} {request : Request} {outcome : Outcome}

/-! ## The steps that evaluate a line -/

/-- A line that is computed changes the last answer, or nothing. -/
theorem run_compute (s : Session) (line : Option String) :
    (Steps.compute line).run.run s
      = match s.compute line with
        | .ok x => (.ok x, { s with answer := x })
        | .error fault => (.error fault, s) := by
  have hsteps : (Steps.compute line).run.run s
      = (do
          let x ← liftExcept (s.compute line)
          modify fun s => { s with answer := x }
          return x : Steps Decimal).run.run s := rfl
  rw [hsteps]
  cases s.compute line <;> rfl

/-- A line that is committed changes the last answer and the history, or
nothing. -/
theorem run_commit (s : Session) (line : Option String) :
    (Steps.commit line).run.run s
      = match s.evaluate line with
        | .ok (x, s') => (.ok x, s')
        | .error fault => (.error fault, s) := by
  rw [Steps.commit, ExceptT.run_bind, StateT.run_bind, run_compute, evaluate, evaluateQuietly]
  cases s.compute line with
  | error fault => rfl
  | ok x => cases line <;> rfl

/-! ## Requests and operations -/

/-- **The end of an operation**, for a session that is changed in place: a fault
leaves it as it was. -/
def settle (s : Session) : Except Fault (Decimal × Session) → Outcome × Session
  | .ok (x, s') => (.ok (some x), s')
  | .error fault => (.error fault, s)

/-- **A quiet evaluation in place** is the operation `Session.evaluateQuietly`. -/
theorem serve_evaluateQuietly (s : Session) (line : Option String) :
    s.serve (.evaluateQuietly line) = s.settle (s.evaluateQuietly line) := by
  rw [serve, Request.steps, ExceptT.run_map, StateT.run_map, run_compute, evaluateQuietly]
  cases s.compute line <;> rfl

/-- **An evaluation in place** is the operation `Session.evaluate`. -/
theorem serve_evaluate (s : Session) (line : Option String) :
    s.serve (.evaluate line) = s.settle (s.evaluate line) := by
  rw [serve, Request.steps, ExceptT.run_map, StateT.run_map, run_commit]
  cases s.evaluate line <;> rfl

/-- **Binding a variable to a line in place** is the operation
`Session.assignLine`. -/
theorem serve_setVariable_line (s : Session) (name text : String) :
    s.serve (.setVariable name (.line text)) = s.settle (s.assignLine name text) := by
  rw [serve, Request.steps, Steps.valueOf, ExceptT.run_bind, StateT.run_bind, run_commit,
    assignLine]
  cases s.evaluate (some text) <;> rfl

/-! ## What a request comes to -/

/-- The line a request evaluates, if it evaluates one. -/
def Request.line? : Request → Option (Option String)
  | .evaluateQuietly line | .evaluate line => some line
  | .setVariable _ (.line text) => some (some text)
  | _ => none

/-- **What a request can come to**, as a relation between a session, the request,
its outcome and the session after it. -/
inductive Served (s : Session) : Request → Outcome → Session → Prop
  /-- The line has a fault, which is also the fault of the request. -/
  | refused {request : Request} {line : Option String} {fault : Fault}
      (hline : request.line? = some line) (hfault : s.compute line = .error fault) :
      Served s request (.error fault) s
  | quiet {line : Option String} {x : Decimal} (h : s.compute line = .ok x) :
      Served s (.evaluateQuietly line) (.ok (some x)) { s with answer := x }
  | committed {text : String} {x : Decimal} (h : s.compute (some text) = .ok x) :
      Served s (.evaluate (some text)) (.ok (some x)) (record { s with answer := x } text)
  | recorded (text : String) : Served s (.record text) (.ok none) (s.record text)
  | assignedLine {name text : String} {x : Decimal} (h : s.compute (some text) = .ok x) :
      Served s (.setVariable name (.line text)) (.ok (some x))
        ((record { s with answer := x } text).assign name x)
  | assignedDecimal (name : String) (x : Decimal) :
      Served s (.setVariable name (.decimal x)) (.ok (some x)) (s.assign name x)
  | assignedInteger (name : String) (n : Int) :
      Served s (.setVariable name (.integer n)) (.ok (some (.ofInt n)))
        (s.assign name (.ofInt n))
  | cleared : Served s .clearHistory (.ok none) s.clearHistory
  | reset : Served s .reset (.ok none) s.reset

/-- **Every request comes to one of these.** -/
theorem served (s : Session) (request : Request) :
    Served s request (s.serve request).1 (s.serve request).2 := by
  cases request with
  | evaluateQuietly line =>
    rw [serve_evaluateQuietly, evaluateQuietly]
    cases hline : s.compute line with
    | error fault => exact .refused rfl hline
    | ok x => exact .quiet hline
  | evaluate line =>
    rw [serve_evaluate, evaluate, evaluateQuietly]
    cases line with
    | none =>
      have hline : (Request.evaluate none).line? = some none := rfl
      exact .refused hline rfl
    | some text =>
      cases hline : s.compute (some text) with
      | error fault => exact .refused rfl hline
      | ok x => exact .committed hline
  | record line => exact .recorded line
  | setVariable name value =>
    cases value with
    | line text =>
      rw [serve_setVariable_line, assignLine, evaluate, evaluateQuietly]
      cases hline : s.compute (some text) with
      | error fault => exact .refused rfl hline
      | ok x => exact .assignedLine hline
    | decimal x => exact .assignedDecimal name x
    | integer n => exact .assignedInteger name n
  | clearHistory => exact .cleared
  | reset => exact .reset

/-! ## What a request leaves as it was -/

/-- **A request that fails changes nothing.** -/
theorem Served.eq_of_error {fault : Fault} (h : Served s request (.error fault) s') : s' = s := by
  cases h with
  | refused => rfl

theorem serve_eq_of_error {fault : Fault} (h : (s.serve request).1 = .error fault) :
    (s.serve request).2 = s :=
  Served.eq_of_error (h ▸ served s request)

/-- A quiet evaluation changes the last answer at most. -/
theorem Served.eq_of_evaluateQuietly {line : Option String}
    (h : Served s (.evaluateQuietly line) outcome s') : s' = { s with answer := s'.answer } := by
  cases h with
  | refused => rfl
  | quiet => rfl

/-- An evaluation changes the last answer and the history at most. -/
theorem Served.eq_of_evaluate {line : Option String} (h : Served s (.evaluate line) outcome s') :
    s' = { s with answer := s'.answer, history := s'.history } := by
  cases h with
  | refused => rfl
  | committed => rfl

/-- Binding a variable changes the last answer, the history, and this variable
at most. -/
theorem Served.eq_of_setVariable {name : String} {value : Assigned}
    (h : Served s (.setVariable name value) outcome s') :
    s' = { s with «variables» := s'.variables, history := s'.history, answer := s'.answer }
      ∧ s'.variables.others (Unicode.lowerText name)
        = s.variables.others (Unicode.lowerText name) := by
  cases h with
  | refused => exact ⟨rfl, rfl⟩
  | assignedLine => exact ⟨rfl, Bindings.others_set _ _ _⟩
  | assignedDecimal => exact ⟨rfl, Bindings.others_set _ _ _⟩
  | assignedInteger => exact ⟨rfl, Bindings.others_set _ _ _⟩

/-- Without a line there is neither a new answer nor a new entry of the
history. -/
theorem Served.eq_of_setVariable_value {name : String} {value : Assigned}
    (h : Served s (.setVariable name value) outcome s') (hvalue : ∀ text, value ≠ .line text) :
    s' = { s with «variables» := s'.variables } := by
  cases h with
  | refused => rfl
  | assignedLine => exact absurd rfl (hvalue _)
  | assignedDecimal => rfl
  | assignedInteger => rfl

end Session

end Reckoner
