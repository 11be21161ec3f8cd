import Reckoner.Proofs.Session.InPlace
import Reckoner.Proofs.Session.Line
import Reckoner.Proofs.Token.Layout

/-!
# Names that are read as they were written

A variable is bound under the lower case of its whole name. It is read in a line,
where the name is cut out of the text and put in lower case there, and where the word
that comes out may turn out to be something else: a function, a unit, the last
answer. Behind a dollar sign both agree. The name is taken to its last character, no
`x` in it multiplies, and no unit may stand there, so that the words for functions and
for the last answer are the only ones that are no variables (`nameLexeme_of_variable`).

A binding stays until its name is bound again or the session is reset
(`Session.get?_after`), whatever else happens. `Session.serve_dollar_name` is the
two together: what was written is what is read, in any letter case, at any time.
-/

namespace Reckoner

open Unicode (isWordChar lowerText)

/-- **A name**: letters, numerals and low lines, or nothing at all. -/
def IsName (name : String) : Prop := ∀ c ∈ name.toList, isWordChar c = true

theorem IsName.of_all {name : String} (h : name.toList.all isWordChar = true) : IsName name :=
  List.all_eq_true.mp h

/-! ## A name in a line -/

section Line

variable {name : String} {stop : ℕ}

/-- **A name after the dollar sign is one token**, whatever characters it is of. -/
theorem tokenize_dollar (hname : IsName name) :
    tokenize ("$" ++ name).toList
      = .ok [⟨nameLexeme .start name.toList, '$' :: name.toList, 0⟩] := by
  have htake : name.toList.takeWhile isWordChar = name.toList :=
    List.takeWhile_eq_self_iff.mpr hname
  have hlexeme : lexemeAt .start '$' name.toList
      = .ok (nameLexeme .start name.toList, name.toList.length) := by
    rw [lexemeAt, if_neg (by decide), htake]
    rfl
  have hblank : Unicode.isBlank '$' = false := by decide
  rw [String.toList_append, tokenize]
  show tokensFrom 0 .start ('$' :: name.toList) = _
  rw [tokensFrom, hblank, if_neg Bool.false_ne_true, hlexeme]
  dsimp only
  rw [List.take_length, List.drop_length, tokensFrom]
  rfl

/-- A name at the start of a line that is the name of a function means the function. -/
theorem nameLexeme_of_function {f : Builtin} (h : lowerText name = f.text) :
    nameLexeme .start name.toList = .function f := by
  have hf : Builtin.ofText? (String.ofList (Unicode.lower name.toList)) = some f :=
    (congrArg Builtin.ofText? h).trans f.ofText?_text
  rw [nameLexeme, hf]

/-- The word for the last answer means the last answer. -/
theorem nameLexeme_of_answer (h : lowerText name = "ans") :
    nameLexeme .start name.toList = .answer := by
  have htext : String.ofList (Unicode.lower name.toList) = "ans" := h
  rw [nameLexeme, htext]
  rfl

/-- **Any other name at the start of a line is that of a variable**, also if it is
spelled like a unit. -/
theorem nameLexeme_of_variable (hfunction : ∀ f : Builtin, lowerText name ≠ f.text)
    (hanswer : lowerText name ≠ "ans") :
    nameLexeme .start name.toList = .variable (lowerText name) := by
  have hnone : Builtin.ofText? (lowerText name) = none :=
    Option.eq_none_iff_forall_ne_some.mpr fun f hf =>
      hfunction f (Builtin.text_of_ofText? hf).symm
  have htext : String.ofList (Unicode.lower name.toList) = lowerText name := rfl
  rw [nameLexeme, htext, hnone]
  cases UnitSuffix.ofText? (lowerText name) with
  | none => exact if_neg hanswer
  | some u => rfl

/-- A token alone is read as an atom, unless it is an operator. -/
theorem ofTokens_singleton {token : Token} {e : Expr}
    (hatom : (readAtom stop [token]).result = (e, []))
    (hoperator : ∀ op, token.lexeme ≠ .operator op) : Expr.ofTokens [token] stop = e := by
  have hoperand : (readOperand stop [token]).result = (e, []) :=
    readOperand_bare hatom (by simp)
  have hsigned : (readSigned stop [token]).result = (e, []) := by
    rw [readSigned_unsigned (by simp [hoperator]), hoperand]
  have hpower : (readPower stop [token]).result = (e, []) := readPower_plain hsigned (by simp)
  have hproduct : (readProduct stop [token]).result = (e, []) := by
    rw [readProduct_result hpower, readProductTail_end (by simp)]
  have hsum : (readSum stop [token]).result = (e, []) := by
    rw [readSum_result hproduct, readSumTail_end (by simp)]
  exact ofTokens_complete hsum

end Line

namespace Session

variable {s s' : Session} {name key : String} {request : Request} {outcome : Outcome}
  {x : Decimal}

/-- The value of a name after the dollar sign is that of what the name is read as. -/
theorem compute_dollar (s : Session) (hname : IsName name) {lexeme : Lexeme} {e : Expr}
    (hlexeme : nameLexeme .start name.toList = lexeme)
    (hatom : (readAtom ("$" ++ name).toList.length [⟨lexeme, '$' :: name.toList, 0⟩]).result
      = (e, []))
    (hoperator : ∀ op, lexeme ≠ .operator op) :
    s.compute (some ("$" ++ name))
      = (e.eval s.context s.environment).mapError Failure.toFault := by
  have hblank : Unicode.isBlankText ("$" ++ name).toList = false := by
    rw [String.toList_append]
    rfl
  refine s.compute_eq_eval hblank ?_
  rw [tokenize_dollar hname, hlexeme]
  exact congrArg Except.ok (ofTokens_singleton hatom hoperator)

/-- The name of a function after the dollar sign is the function, and it is not
called. -/
theorem compute_dollar_function (s : Session) (hname : IsName name) {f : Builtin}
    (hf : lowerText name = f.text) :
    s.compute (some ("$" ++ name)) = .error (.evaluation (.expectedParenthesis f.text) 0) := by
  refine s.compute_dollar hname (nameLexeme_of_function hf)
    (e := .missing (.expectedParenthesis f.text) 0) ?_ nofun
  rw [readAtom]
  rfl

/-- The word for the last answer means the same with the dollar sign. -/
theorem compute_dollar_answer (s : Session) (hname : IsName name)
    (hanswer : lowerText name = "ans") : s.compute (some ("$" ++ name)) = .ok s.answer :=
  s.compute_dollar hname (nameLexeme_of_answer hanswer) (readAtom_answer rfl) nofun

/-- **Any other name after the dollar sign is a variable**, be it spelled like a unit
or hold an `x`. -/
theorem compute_dollar_variable (s : Session) (hname : IsName name)
    (hfunction : ∀ f : Builtin, lowerText name ≠ f.text) (hanswer : lowerText name ≠ "ans")
    (hx : s.variables.get? (lowerText name) = some x) :
    s.compute (some ("$" ++ name)) = .ok x := by
  have hlookup : s.environment.lookup (lowerText name) = some x := hx
  rw [s.compute_dollar hname (nameLexeme_of_variable hfunction hanswer) (readAtom_named rfl)
    nofun, Expr.eval, hlookup]
  rfl

/-- A quiet evaluation ends as its line does. -/
theorem serve_evaluateQuietly_fst (s : Session) (line : Option String) :
    (s.serve (.evaluateQuietly line)).1 = (s.compute line).map some := by
  rw [serve_evaluateQuietly, evaluateQuietly]
  cases s.compute line <;> rfl

/-! ## A binding over a run -/

/-- **An event after which a name may have another value**: the session is reset, or
a variable with this name in lower case is bound. -/
def Event.Rebinds (key : String) : Event → Prop
  | ⟨.reset, _⟩ => True
  | ⟨.setVariable name _, .ok _⟩ => lowerText name = key
  | _ => False

/-- A variable that was set is bound to the value that was given back. -/
theorem Served.get?_of_setVariable {value : Assigned}
    (h : Served s (.setVariable name value) (.ok (some x)) s') :
    s'.variables.get? (lowerText name) = some x := by
  cases h with
  | assignedLine => exact Bindings.get?_set_self _ _ _
  | assignedDecimal => exact Bindings.get?_set_self _ _ _
  | assignedInteger => exact Bindings.get?_set_self _ _ _

/-- **A request leaves a name bound**, unless it binds the name again. -/
theorem Served.get?_of_not_rebinds (hserved : Served s request outcome s')
    (h : s.variables.get? key = some x) (hkeeps : ¬ Event.Rebinds key ⟨request, outcome⟩) :
    s'.variables.get? key = some x := by
  cases hserved with
  | assignedLine => exact (Bindings.get?_set_of_ne hkeeps _ _).trans h
  | assignedDecimal => exact (Bindings.get?_set_of_ne hkeeps _ _).trans h
  | assignedInteger => exact (Bindings.get?_set_of_ne hkeeps _ _).trans h
  | reset => exact absurd trivial hkeeps
  | _ => exact h

/-- **Requests leave a name bound**, unless one of them binds it again. -/
theorem get?_after {requests : List Request} (h : s.variables.get? key = some x)
    (hkeeps : ∀ event ∈ s.events requests, ¬ event.Rebinds key) :
    (s.after requests).variables.get? key = some x := by
  induction requests generalizing s with
  | nil => exact h
  | cons request later ih =>
    obtain ⟨hfirst, hlater⟩ := List.forall_mem_cons.mp hkeeps
    exact ih ((served s request).get?_of_not_rebinds h hfirst) hlater

/-- **What a variable was set to is what its name reads**, in every session. A name
that is no word of the calculator, bound to a value, gives this very value after a
dollar sign, however its letters are cased, and after any further requests, until one
of them resets the session or binds the name again. The name of the last answer gives
the last answer instead, and the name of a function a fault. -/
theorem serve_dollar_name (s : Session) :
    (∀ (name : String) (value : Assigned) (x : Decimal) (requests : List Request),
        lowerText name ≠ "ans" → (∀ f : Builtin, lowerText name ≠ f.text) →
        (s.serve (.setVariable name value)).1 = .ok (some x) →
        (∀ event ∈ (s.serve (.setVariable name value)).2.events requests,
          ¬ event.Rebinds (lowerText name)) →
        ∀ name' : String, IsName name' → lowerText name' = lowerText name →
          (((s.serve (.setVariable name value)).2.after requests).serve
            (.evaluateQuietly (some ("$" ++ name')))).1 = .ok (some x))
      ∧ (∀ name : String, IsName name → lowerText name = "ans" →
        (s.serve (.evaluateQuietly (some ("$" ++ name)))).1 = .ok (some s.answer))
      ∧ ∀ (name : String) (f : Builtin), IsName name → lowerText name = f.text →
        (s.serve (.evaluateQuietly (some ("$" ++ name)))).1
          = .error (.evaluation (.expectedParenthesis f.text) 0) := by
  refine ⟨?_, ?_, ?_⟩
  · intro name value x requests hanswer hfunction hset hkeeps name' hname' hsame
    have hbound : (s.serve (.setVariable name value)).2.variables.get? (lowerText name)
        = some x := (hset ▸ served s _).get?_of_setVariable
    have hafter := get?_after hbound hkeeps
    rw [← hsame] at hanswer hfunction hafter
    rw [serve_evaluateQuietly_fst, compute_dollar_variable _ hname' hfunction hanswer hafter]
    rfl
  · intro name hname hanswer
    rw [serve_evaluateQuietly_fst, compute_dollar_answer s hname hanswer]
    rfl
  · intro name f hname hf
    rw [serve_evaluateQuietly_fst, compute_dollar_function s hname hf]
    rfl

/-- A variable set by the name of the Kelvin sign is read by the letter that is also a
unit, after a line that uses the unit, another variable, and an attempt to bind it
again that fails. -/
theorem serve_dollar_kelvin :
    (((((empty (.working 50)).serve (.setVariable "\u212a" (.integer 7))).2.after
          [.evaluate (some "3k"), .setVariable "m" (.integer 1), .clearHistory,
            .setVariable "k" (.line "1/0")]).serve
        (.evaluateQuietly (some ("$" ++ "k")))).1 = .ok (some (.ofInt 7)))
      ∧ ((empty (.working 50)).serve (.evaluateQuietly (some ("$" ++ "ANS")))).1
        = .ok (some (.ofNat 0))
      ∧ ((empty (.working 50)).serve (.evaluateQuietly (some ("$" ++ "Floor")))).1
        = .error (.evaluation (.expectedParenthesis "floor") 0) := by
  have hkelvin : lowerText "\u212a" = "k" := by cbv
  have hk : lowerText "k" = "k" := by cbv
  have hm : lowerText "m" = "m" := by cbv
  have hfails (s : Session) :
      (s.serve (.setVariable "k" (.line "1/0"))).1 = .error (.evaluation .divisionByZero 1) := by
    have htree : (tokenize "1/0".toList).map (Expr.ofTokens · 3)
        = .ok (.binary .divide 1 (.number ⟨['1'], none⟩) (.number ⟨['0'], none⟩)) := by cbv
    rw [serve_setVariable_line, assignLine, evaluate, evaluateQuietly,
      compute_eq_eval s (by decide) htree]
    rfl
  obtain ⟨hread, hanswer, hfunction⟩ := serve_dollar_name (empty (.working 50))
  refine ⟨hread "\u212a" (.integer 7) _ _ ?_ ?_ rfl ?_ "k" (.of_all (by decide))
      (hk.trans hkelvin.symm), hanswer "ANS" (.of_all (by decide)) (by cbv),
    hfunction "Floor" .floor (.of_all (by decide)) (by cbv)⟩
  · rw [hkelvin]
    decide
  · rw [hkelvin]
    intro f
    cases f <;> decide
  · rw [hkelvin]
    refine List.forall_mem_cons.mpr ⟨id, List.forall_mem_cons.mpr ⟨?_, List.forall_mem_cons.mpr
      ⟨id, List.forall_mem_singleton.mpr ?_⟩⟩⟩
    · show ¬ lowerText "m" = "k"
      rw [hm]
      decide
    · rw [hfails]
      exact id

end Session

end Reckoner
