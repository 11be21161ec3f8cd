import Reckoner.Console.Basic
import Reckoner.Proofs.Session.Finite

/-!
# The answer to a line

A line either leaves the console or is answered. `Console.leaves` tells which,
from the text alone; that a line is left without an answer because a value cannot
be shown does not happen in a session of numbers (`Console.answer_spec`), and
whatever the answer is, the session stays one.
-/

namespace Reckoner.Console

open Unicode

/-- **Whether a line leaves the console**: it is a command, and its first word is
`exit` or `quit` in any letter case. -/
def leaves (line : List Char) : Bool :=
  (trim line).head? == some ':' && (firstWord? (trim line).tail).any fun words =>
    lower words.1 == "exit".toList || lower words.1 == "quit".toList

/-! ## What a line asks for -/

/-- An assignment does not leave the console. -/
theorem Line.assignment_ne_leave (arguments : List Char) :
    Line.assignment arguments ≠ .leave := by
  unfold Line.assignment
  split
  · split <;> exact Line.noConfusion
  · exact Line.noConfusion

/-- Of the commands, only two leave the console. -/
theorem Line.ofCommand_eq_leave_iff (command arguments : List Char) :
    Line.ofCommand command arguments = .leave
      ↔ lower command = "exit".toList ∨ lower command = "quit".toList := by
  have hword (word : String) : String.ofList (lower command) = word ↔
      lower command = word.toList := by
    rw [← String.toList_inj, String.toList_ofList]
  rw [← hword, ← hword]
  unfold Line.ofCommand
  split
  · next heq => exact iff_of_true rfl (.inl heq)
  · next heq => exact iff_of_true rfl (.inr heq)
  · next heq => simp [heq]
  · next heq => simp [heq]
  · next heq => simp [heq]
  · next heq => simp [heq]
  · next heq => simp [heq]
  · next heq => simp [heq, Line.assignment_ne_leave]
  · next hexit hquit _ _ _ _ _ _ =>
    exact iff_of_false Line.noConfusion (not_or.mpr ⟨hexit, hquit⟩)

/-- **The lines that leave the console** are those that are read so. -/
theorem Line.ofText_eq_leave_iff (line : List Char) :
    Line.ofText line = .leave ↔ leaves line = true := by
  unfold leaves
  by_cases hcolon : (trim line).head? = some ':'
  · obtain ⟨rest, hrest⟩ := List.head?_eq_some_iff.mp hcolon
    rw [Line.ofText, hrest]
    simp only [List.head?_cons, List.tail_cons, beq_self_eq_true, Bool.true_and]
    cases firstWord? rest with
    | none => exact iff_of_false Line.noConfusion Bool.false_ne_true
    | some words =>
      simp only [Option.any_some, Bool.or_eq_true, beq_iff_eq]
      exact Line.ofCommand_eq_leave_iff words.1 words.2
  · have hstays : Line.ofText line ≠ .leave := by
      unfold Line.ofText
      split
      · next rest heq => exact absurd (congrArg List.head? heq) hcolon
      · split <;> exact Line.noConfusion
    refine iff_of_false hstays ?_
    rw [beq_false_of_ne hcolon, Bool.false_and]
    exact Bool.false_ne_true

/-! ## Answers -/

variable {console : Console}

theorem exists_done (text : String) : ∃ reply, done text = .ok reply := ⟨_, rfl⟩

theorem exists_failed (text : String) : ∃ reply, failed text = .ok reply := ⟨_, rfl⟩

theorem exists_showValue (console : Console) (name : String) {x : Decimal} (hx : x.IsFinite) :
    ∃ reply, console.showValue name x = .ok reply := by
  obtain ⟨number⟩ := hx
  exact ⟨_, rfl⟩

/-- **A calculation is answered**, and the session stays one of numbers. -/
theorem calculate_spec (h : console.session.IsFinite) (text : String) :
    (console.calculate text).1.session.IsFinite
      ∧ ∃ reply, (console.calculate text).2 = .ok reply := by
  unfold calculate
  dsimp only
  split
  · next x session hvalue =>
    obtain ⟨hx, hsession⟩ := Session.isFinite_of_evaluate h hvalue
    exact ⟨hsession, exists_showValue _ _ hx⟩
  · exact ⟨h, _, rfl⟩

/-- **An assignment is answered**, and the session stays one of numbers. -/
theorem assign_spec (h : console.session.IsFinite) (name text : String) :
    (console.assign name text).1.session.IsFinite
      ∧ ∃ reply, (console.assign name text).2 = .ok reply := by
  unfold assign
  split
  · next x session hvalue =>
    obtain ⟨hx, hsession⟩ := Session.isFinite_of_assignLine h hvalue
    exact ⟨hsession, exists_showValue _ _ hx⟩
  · exact ⟨h, _, rfl⟩

/-- **What a line asks for is done**, unless it asks to leave, and the session
stays one of numbers. -/
theorem perform_spec (h : console.session.IsFinite) {line : Line} (hline : line ≠ .leave) :
    (console.perform line).1.session.IsFinite
      ∧ ∃ reply, (console.perform line).2 = .ok reply := by
  cases line with
  | calculation text =>
    rw [perform]
    exact calculate_spec h text
  | noCommand => exact ⟨h, exists_failed _⟩
  | leave => exact absurd rfl hline
  | help page => exact ⟨h, exists_done (helpText page)⟩
  | showHistory => exact ⟨h, exists_done (historyText console.session.history)⟩
  | clearHistory => exact ⟨⟨h.answer, h.bindings⟩, exists_done _⟩
  | showVariables =>
    obtain ⟨text, htext⟩ := Session.exists_describeVariables? h
    refine ⟨h, ?_⟩
    rw [perform, htext]
    exact exists_done text
  | showSettings => exact ⟨h, exists_done console.settings.describe⟩
  | assign name text =>
    rw [perform]
    exact assign_spec h name text
  | badAssign => exact ⟨h, exists_done _⟩
  | unknown command => exact ⟨h, exists_done ("Unknown command: " ++ command)⟩

/-- **A line that leaves the console** changes nothing and has no answer. -/
theorem answer_of_leaves {line : String} (h : leaves line.toList = true) (console : Console) :
    console.answer line = (console, .error .leave) := by
  rw [answer, (Line.ofText_eq_leave_iff line.toList).mpr h]
  rfl

/-- **Every other line is answered**, and the session stays one of numbers. -/
theorem answer_spec (h : console.session.IsFinite) {line : String}
    (hline : leaves line.toList = false) :
    (console.answer line).1.session.IsFinite
      ∧ ∃ reply, (console.answer line).2 = .ok reply := by
  refine perform_spec h fun hleave => ?_
  rw [Line.ofText_eq_leave_iff, hline] at hleave
  exact Bool.false_ne_true hleave

end Reckoner.Console
