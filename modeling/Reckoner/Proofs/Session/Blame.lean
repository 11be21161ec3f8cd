import Reckoner.Proofs.Grammar.Blame
import Reckoner.Proofs.Token.Blame
import Reckoner.Session.Basic

/-!
# Where the faults of a session are found

A line that has no value in a session fails with one fault, and its place is right:
`Session.Blames` joins what is said about empty lines, about lines that cannot be cut
into tokens (`LexerBlames`) and about tokens that have no value
(`Environment.Blames`). The only faults without a place of their own are those that a
signal of the arithmetic amounts to (`Session.Signals`); they are put at the start of
the line.

`Session.blames_of_evaluateQuietly` is the statement for every line, whatever values
the session holds.
-/

namespace Reckoner

namespace Session

/-- **A signal of the arithmetic**, reported as a fault at the start of the line. -/
def Signals (s : Session) (line : Option String) (fault : Fault) : Prop :=
  ∃ (text : String) (tokens : List Token) (signal : Signal), line = some text
    ∧ tokenize text.toList = .ok tokens
    ∧ (Expr.ofTokens tokens text.toList.length).eval s.context s.environment
      = .error (.signal signal)
    ∧ fault = .evaluation signal.cause 0

/-- **Which faults a line may have in a session**, with the places they are found at. -/
inductive Blames (s : Session) : Option String → Fault → Prop
  | nothing : Blames s none (.evaluation .emptyExpression 0)
  | blank {text : String} (isBlank : Unicode.isBlankText text.toList = true) :
      Blames s (some text) (.evaluation .emptyExpression 0)
  | lexing {text : String} {fault : Fault} (blames : LexerBlames text.toList fault) :
      Blames s (some text) fault
  | evaluation {text : String} {tokens : List Token} {fault : Fault}
      (tokenize_eq : tokenize text.toList = .ok tokens)
      (blames : s.environment.Blames tokens text.toList.length fault) :
      Blames s (some text) fault

variable {s : Session} {line : Option String} {fault : Fault}

theorem signals_or_blames_of_compute (h : s.compute line = .error fault) :
    s.Signals line fault ∨ s.Blames line fault := by
  cases line with
  | none =>
    obtain rfl := Except.error.inj h
    exact .inr .nothing
  | some text =>
    rw [compute, evaluateLine] at h
    split at h
    · next hblank =>
      obtain rfl := Except.error.inj h
      exact .inr (.blank hblank)
    · obtain htokens | ⟨tokens, htokens, heval⟩ := of_bind_eq_error h
      · exact .inr (.lexing (lexerBlames_of_tokenize htokens))
      · obtain ⟨failure, hfailure, rfl⟩ := exists_of_mapError_eq_error heval
        cases failure with
        | signal signal => exact .inl ⟨text, tokens, signal, rfl, htokens, hfailure, rfl⟩
        | fault fault =>
          have hunits := unitsFollow_of_tokenize htokens
          exact .inr (.evaluation htokens
            (faultsIn_eval_ofTokens s.context s.environment hunits fault hfailure))

/-- No line is blamed for a function that does not exist. -/
theorem Blames.cause_ne_unknownFunction (h : s.Blames line fault) (name : String) :
    fault.cause ≠ .unknownFunction name := by
  intro hname
  cases h with
  | nothing | blank => cases hname
  | lexing blames => cases blames <;> cases hname
  | evaluation tokenize_eq blames =>
    cases blames with
    | operator mem lexeme_eq refuses =>
      obtain rfl : _ = Cause.unknownFunction name := hname
      cases refuses
    | function mem lexeme_eq refuses =>
      obtain rfl : _ = Cause.unknownFunction name := hname
      cases refuses
    | _ => cases hname

theorem Signals.cause_ne_unknownFunction (h : s.Signals line fault) (name : String) :
    fault.cause ≠ .unknownFunction name := by
  obtain ⟨text, tokens, signal, -, -, -, rfl⟩ := h
  cases signal <;> exact Cause.noConfusion

/-- **Every fault of a line is found where it belongs**, unless it is a signal of the
arithmetic; and no function is unknown. -/
theorem blames_of_evaluateQuietly (h : s.evaluateQuietly line = .error fault) :
    (s.Signals line fault ∨ s.Blames line fault)
      ∧ ∀ name, fault.cause ≠ .unknownFunction name := by
  have hblames := signals_or_blames_of_compute (of_map_eq_error h)
  refine ⟨hblames, fun name => ?_⟩
  cases hblames with
  | inl hsignal => exact hsignal.cause_ne_unknownFunction name
  | inr hblames => exact hblames.cause_ne_unknownFunction name

/-- The first of two parentheses is not closed, and is where the fault is found. -/
theorem blames_of_two_openings :
    (empty (.working 50)).evaluateQuietly (some "7+((2)") =
        .error (.evaluation .unmatchedParenthesis 2)
      ∧ ((empty (.working 50)).Signals (some "7+((2)") (.evaluation .unmatchedParenthesis 2)
        ∨ (empty (.working 50)).Blames (some "7+((2)") (.evaluation .unmatchedParenthesis 2))
      ∧ ∀ name, (Fault.evaluation .unmatchedParenthesis 2).cause ≠ .unknownFunction name := by
  have h : (empty (.working 50)).evaluateQuietly (some "7+((2)") =
      .error (.evaluation .unmatchedParenthesis 2) := by cbv
  exact ⟨h, blames_of_evaluateQuietly h⟩

end Session

end Reckoner
