import Mathlib
import Reckoner.Console.Basic
import Reckoner.Proofs.Session.InPlace

/-!
# What a failure leaves as it was

A line makes at most one request to the session of the console
(`Console.Line.request?`), and the console after it is the one with the session
after the request, whether the request succeeds or fails. The answer to a line is
a failure only if there is no request or the request has failed, and a failed
request changes nothing; so neither does the line.
-/

namespace Reckoner.Console

variable {console : Console} {text : String}

/-- **The request that a line makes to the session**, if it makes one. -/
def Line.request? : Line → Option Session.Request
  | .calculation text => some (.evaluate (some (String.ofList (Search.clean text.toList))))
  | .assign name text => some (.setVariable name (.line text))
  | .clearHistory => some .clearHistory
  | _ => none

/-- **The session after a line** is the one after its request. -/
def sessionAfter (console : Console) (line : Line) : Session :=
  match line.request? with
  | some request => (console.session.serve request).2
  | none => console.session

theorem sessionAfter_of_request? {line : Line} {request : Session.Request}
    (h : line.request? = some request) (console : Console) :
    console.sessionAfter line = (console.session.serve request).2 := by
  rw [sessionAfter, h]

/-- **What a line asks for is done by its request**: nothing else of the console
changes. -/
theorem perform_fst (console : Console) (line : Line) :
    (console.perform line).1 = { console with session := console.sessionAfter line } := by
  cases line with
  | calculation text =>
    rw [perform, calculate, sessionAfter_of_request? rfl, Session.serve_evaluate]
    cases console.session.evaluate _ <;> rfl
  | assign name text =>
    rw [perform, assign, sessionAfter_of_request? rfl, Session.serve_setVariable_line]
    cases console.session.assignLine name text <;> rfl
  | _ => rfl

/-- A value that is shown is no failure. -/
theorem showValue_ne_failed (console : Console) (name : String) (x : Decimal) :
    console.showValue name x ≠ failed text := by
  unfold showValue
  split
  · exact fun h => Bool.noConfusion (congrArg Reply.ok (Except.ok.inj h))
  · nofun

/-- **A line fails only with its request.** -/
theorem exists_fault_of_failed {line : Line} {request : Session.Request}
    (h : (console.perform line).2 = failed text) (hrequest : line.request? = some request) :
    ∃ fault, (console.session.serve request).1 = .error fault := by
  cases line with
  | calculation text =>
    obtain rfl := Option.some.inj hrequest
    rw [Session.serve_evaluate]
    rw [perform, calculate] at h
    cases hvalue : console.session.evaluate _ with
    | error fault => exact ⟨fault, rfl⟩
    | ok value =>
      rw [hvalue] at h
      exact absurd h (showValue_ne_failed _ _ _)
  | assign name text =>
    obtain rfl := Option.some.inj hrequest
    rw [Session.serve_setVariable_line]
    rw [perform, assign] at h
    cases hvalue : console.session.assignLine name text with
    | error fault => exact ⟨fault, rfl⟩
    | ok value =>
      rw [hvalue] at h
      exact absurd h (showValue_ne_failed _ _ _)
  | clearHistory => exact Bool.noConfusion (congrArg Reply.ok (Except.ok.inj h))
  | _ => cases hrequest

/-- **A line that fails changes nothing** in the console. -/
theorem perform_eq_of_failed {line : Line} (h : (console.perform line).2 = failed text) :
    (console.perform line).1 = console := by
  rw [perform_fst]
  cases hrequest : line.request? with
  | none => rw [sessionAfter, hrequest]
  | some request =>
    obtain ⟨fault, hfault⟩ := exists_fault_of_failed h hrequest
    rw [sessionAfter_of_request? hrequest, Session.serve_eq_of_error hfault]

/-- **Failures change nothing, and successes no more than they must.** A line of
the console that cannot be carried out leaves the console as it was. A request
that ends in a fault leaves the session as it was; a quiet evaluation changes at
most the last answer, an evaluation at most the last answer and the history, and
binding a variable at most the one binding of its name, with the last answer and
the history if it is bound to the value of a line. -/
theorem unchanged_of_failed :
    (∀ (console : Console) (line text : String),
      (console.answer line).2 = .ok ⟨false, text⟩ → (console.answer line).1 = console)
    ∧ ∀ s : Session,
      (∀ request fault, (s.serve request).1 = .error fault → (s.serve request).2 = s)
      ∧ (∀ line, ∃ answer, (s.serve (.evaluateQuietly line)).2 = { s with answer })
      ∧ (∀ line, ∃ answer history,
          (s.serve (.evaluate line)).2 = { s with answer, history })
      ∧ (∀ name text, ∃ «variables» answer history,
          (s.serve (.setVariable name (.line text))).2
              = { s with «variables», answer, history }
            ∧ variables.others (Unicode.lowerText name)
              = s.variables.others (Unicode.lowerText name))
      ∧ ∀ name value, (∀ text, value ≠ .line text) → ∃ «variables» : Bindings,
          (s.serve (.setVariable name value)).2 = { s with «variables» }
            ∧ variables.others (Unicode.lowerText name)
              = s.variables.others (Unicode.lowerText name) := by
  refine ⟨fun console line text h => perform_eq_of_failed h, fun s => ⟨?_, ?_, ?_, ?_, ?_⟩⟩
  · exact fun request fault h => Session.serve_eq_of_error h
  · exact fun line => ⟨_, (s.served _).eq_of_evaluateQuietly⟩
  · exact fun line => ⟨_, _, (s.served _).eq_of_evaluate⟩
  · intro name text
    obtain ⟨hsame, hothers⟩ := (s.served (.setVariable name (.line text))).eq_of_setVariable
    exact ⟨_, _, _, hsame, hothers⟩
  · intro name value hvalue
    have hserved := s.served (.setVariable name value)
    exact ⟨_, hserved.eq_of_setVariable_value hvalue, hserved.eq_of_setVariable.2⟩

/-- A session with a variable, a last answer and one line in its history. -/
def seven : Session := ⟨.working 50, [("a", .ofNat 7)], ["7"], .ofNat 7⟩

/-- Binding a variable anew fails at a division, after half of the line has been
computed; a colon without a command fails, too. -/
theorem unchanged_seven :
    (seven.serve (.setVariable "A" (.line "2+a/0"))).1
        = .error (.evaluation .divisionByZero 3)
      ∧ (seven.serve (.setVariable "A" (.line "2+a/0"))).2 = seven
      ∧ (answer ⟨.initial, seven⟩ ":").2
        = .ok ⟨false, "No command specified. Use :help for available commands."⟩
      ∧ (answer ⟨.initial, seven⟩ ":").1 = ⟨.initial, seven⟩ := by
  have hfault : (seven.serve (.setVariable "A" (.line "2+a/0"))).1
      = .error (.evaluation .divisionByZero 3) := by cbv
  have hfailed : (answer ⟨.initial, seven⟩ ":").2
      = .ok ⟨false, "No command specified. Use :help for available commands."⟩ := rfl
  obtain ⟨hanswer, hsession⟩ := unchanged_of_failed
  exact ⟨hfault, (hsession seven).1 _ _ hfault, hfailed, hanswer _ _ _ hfailed⟩

end Reckoner.Console
