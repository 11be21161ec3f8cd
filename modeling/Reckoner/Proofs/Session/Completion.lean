import Reckoner.Proofs.Grammar.Completion
import Reckoner.Proofs.Search.Complete
import Reckoner.Proofs.Token.Append
import Reckoner.Proofs.Token.Blame

/-!
# Unfinished lines are beginnings

A line is called unfinished while the user may still be typing it. That this is a fair name
is shown here: with a one behind it, and with a closing parenthesis for each that is open,
it is a line that has a value or fails for its arithmetic (`Session.isArithmetic_completed`).

The tokens of the line are the first ones of the completed line, since the last of them is
an operator. They are the beginning of a sum, and how many parentheses that sum lacks is
seen from the characters of the line, for the completed line closes what it opens.
-/

namespace Reckoner

open Search (openDepth? isParenthesis)

/-! ## The completed text -/

/-- **How many parentheses a text leaves open**, counting its characters. -/
def missingClosings (text : String) : ℕ := text.toList.count '(' - text.toList.count ')'

/-- **A text, completed**: a one stands behind it, and a closing parenthesis for each that it
leaves open. -/
def completed (text : String) : String :=
  text ++ String.ofList ('1' :: List.replicate (missingClosings text) ')')

/-! ## Its tokens -/

/-- **The tokens of a text that ends in an operator, with a one and closing parentheses
behind it.** -/
theorem exists_tokenize_completed {line : List Char} {tokens : List Token}
    (h : tokenize line = .ok tokens)
    (hlast : ∀ token ∈ tokens.getLast?, ∃ op, token.lexeme = .operator op) (missing : ℕ) :
    ∃ (one : Token) (numeral : Numeral) (closings : List Token),
      tokenize (line ++ '1' :: List.replicate missing ')') = .ok (tokens ++ one :: closings)
        ∧ one.lexeme = .number numeral ∧ closings.length = missing
        ∧ ∀ closing ∈ closings, closing.lexeme = .closing := by
  obtain ⟨position, left, htail⟩ := tokensFrom_append h hlast
  obtain ⟨one, numeral, closings, htokens, hone, hclosings⟩ :=
    exists_tokensFrom_one missing position left
  refine ⟨one, numeral, closings, ?_, hone, hclosings⟩
  rw [tokenize, htail, htokens]
  rfl

/-! ## Sessions -/

namespace Session

variable {s : Session} {text : String} {fault : Fault}

/-- **A line that is unfinished** has tokens that are the beginning of a sum. -/
theorem exists_isBeginning_of_compute (h : s.compute (some text) = .error fault)
    (hcause : fault.cause = .unfinishedExpression) :
    ∃ tokens, tokenize text.toList = .ok tokens
      ∧ s.environment.IsBeginning .sum tokens := by
  rw [compute, evaluateLine] at h
  split at h
  · obtain rfl := Except.error.inj h
    cases hcause
  · obtain htokens | ⟨tokens, htokens, heval⟩ := of_bind_eq_error h
    · cases lexerBlames_of_tokenize htokens <;> cases hcause
    · obtain ⟨failure, hfailure, hfault⟩ := exists_of_mapError_eq_error heval
      refine ⟨tokens, htokens, ?_⟩
      cases failure with
      | fault f =>
        obtain rfl : f = fault := hfault
        exact isBeginning_of_ofTokens ⟨f, hfailure, hcause⟩
      | signal signal =>
        rw [← hfault, Failure.toFault] at hcause
        have harithmetic := signal.isArithmetic_cause
        rw [show signal.cause = _ from hcause] at harithmetic
        cases harithmetic

/-- **A completed line** is a sum, and as many parentheses were missing as it seems from its
characters. -/
theorem exists_phrase_completed {tokens : List Token} {env : Environment}
    (htokens : tokenize text.toList = .ok tokens) (h : env.IsBeginning .sum tokens) :
    text.toList.count ')' ≤ text.toList.count '('
      ∧ ∃ d : Phrase .sum, tokenize (completed text).toList = .ok d.tokens
        ∧ ∀ token ∈ d.tokens, env.Binds token := by
  obtain ⟨missing, hmissing⟩ := h.exists_missing
  obtain ⟨last, op, hlast, hop⟩ := h.exists_last
  have hends : ∀ token ∈ tokens.getLast?, ∃ op, token.lexeme = .operator op := by
    intro token htoken
    obtain rfl := Option.mem_unique htoken hlast
    exact ⟨op, hop⟩
  obtain ⟨one, numeral, closings, hline, hone, hlength, hclosings⟩ :=
    exists_tokenize_completed htokens hends missing
  obtain ⟨d, hd⟩ := hmissing one numeral closings hone hlength hclosings
  rw [← hd] at hline
  -- the sum closes what it opens, so its parentheses can be counted
  have hdepth : openDepth? 0 (text.toList ++ '1' :: List.replicate missing ')') = some 0 := by
    rw [← openDepth?_filter, filter_isParenthesis_of_tokenize hline,
      ← List.append_nil (parentheses _), d.openDepth?_append]
    rfl
  have hcount : text.toList.count '(' = text.toList.count ')' + missing := by
    simpa [List.count_replicate] using (openDepth?_eq_some_iff.mp hdepth).2
  have hopen : missingClosings text = missing := by
    rw [missingClosings, hcount, Nat.add_sub_cancel_left]
  refine ⟨hcount ▸ Nat.le_add_right _ _, d, ?_, ?_⟩
  · rw [completed, String.toList_append, String.toList_ofList, hopen]
    exact hline
  · rw [hd, List.forall_mem_append, List.forall_mem_cons]
    exact ⟨h.binds, .of_lexeme hone (by simp),
      fun closing hclosing => .of_lexeme (hclosings closing hclosing) (by simp)⟩

/-- A line that is completed is not blank. -/
theorem isBlankText_completed (text : String) :
    Unicode.isBlankText (completed text).toList = false := by
  have hone : Unicode.isBlank '1' = false := by decide
  rw [completed, String.toList_append, String.toList_ofList, Unicode.isBlankText, List.all_append,
    List.all_cons, hone, Bool.false_and, Bool.and_false]

/-- **Unfinished lines are beginnings.** Where a line is called unfinished, it closes no more
parentheses than it opens. With a one behind it, and with a closing parenthesis for each that
is left open, it has a value, or fails for its arithmetic: it has no fault of the lexer, and
no fault of the grammar or of a name. -/
theorem isArithmetic_completed (h : s.evaluateQuietly (some text) = .error fault)
    (hcause : fault.cause = .unfinishedExpression) :
    text.toList.count ')' ≤ text.toList.count '('
      ∧ ∀ fault', s.evaluateQuietly (some (completed text)) = .error fault'
          ∨ s.evaluate (some (completed text)) = .error fault' →
        fault'.IsArithmetic := by
  obtain ⟨tokens, htokens, hbeginning⟩ :=
    exists_isBeginning_of_compute (of_map_eq_error h) hcause
  obtain ⟨hcount, d, hline, hbinds⟩ := exists_phrase_completed htokens hbeginning
  refine ⟨hcount, fun fault' hfault' => ?_⟩
  have hcompute : s.compute (some (completed text)) = .error fault' := by
    obtain hquiet | hcommitted := hfault'
    · exact of_map_eq_error hquiet
    · exact of_map_eq_error (of_map_eq_error hcommitted)
  have htree : (tokenize (completed text).toList).map
      (Expr.ofTokens · (completed text).toList.length) = .ok d.toExpr := by
    rw [hline, Except.map, d.ofTokens_tokens]
  rw [compute_eq_eval s (isBlankText_completed text) htree] at hcompute
  obtain ⟨failure, hfailure, rfl⟩ := exists_of_mapError_eq_error hcompute
  cases failure with
  | fault f => exact d.faultsIn_eval_toExpr hbinds f hfailure
  | signal signal => exact ⟨rfl, signal.isArithmetic_cause⟩

/-- A product whose second factor is under way. -/
theorem isArithmetic_completed_group :
    (empty (.working 50)).evaluateQuietly (some "2x(3-")
        = .error (.evaluation .unfinishedExpression 4)
      ∧ completed "2x(3-" = "2x(3-1)"
      ∧ ∀ fault, (empty (.working 50)).evaluateQuietly (some "2x(3-1)") = .error fault
          ∨ (empty (.working 50)).evaluate (some "2x(3-1)") = .error fault →
        fault.IsArithmetic := by
  have htree : (tokenize "2x(3-".toList).map (Expr.ofTokens · 5)
      = .ok (.binary .multiply 1 (.number ⟨['2'], none⟩)
          (.thenStray (unfinished .subtract 4 (.number ⟨['3'], none⟩))
            .unmatchedParenthesis 2)) := by cbv
  have hfault : (empty (.working 50)).evaluateQuietly (some "2x(3-")
      = .error (.evaluation .unfinishedExpression 4) := by
    rw [evaluateQuietly, compute_eq_eval _ (by decide) htree]
    rfl
  have hcompleted : completed "2x(3-" = "2x(3-1)" := by decide +kernel
  obtain ⟨-, harithmetic⟩ := isArithmetic_completed hfault rfl
  rw [hcompleted] at harithmetic
  exact ⟨hfault, hcompleted, harithmetic⟩

end Session

end Reckoner
