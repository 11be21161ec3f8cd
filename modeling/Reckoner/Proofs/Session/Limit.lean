import Mathlib
import Reckoner.Proofs.Expr.Limit
import Reckoner.Proofs.Grammar.Reading
import Reckoner.Proofs.Session.Finite
import Reckoner.Proofs.Session.InPlace

/-!
# Sessions within the limit

What a session stores, later lines may refer to, so the limit on digits holds of a
line only if it held of all lines before. `Session.IsWithinLimit` is what the
requests to a session keep up, as long as none of them lets a number beyond the
limit in (`Session.Admits`).

That condition cannot be dropped: the digits of a written number are not counted,
and a line of ten thousand and one of them is answered with its value
(`Session.compute_powerOfTen`).
-/

namespace Reckoner

variable {x : Decimal} {name : String}

namespace Session

/-! ## Lines without the limit -/

/-- **The value of a line without the limit on digits.** -/
def computeUnlimited (s : Session) : Option String → Except Fault Decimal
  | none => .error (.evaluation .emptyExpression 0)
  | some line =>
    if Unicode.isBlankText line.toList then .error (.evaluation .emptyExpression 0)
    else do
      let tokens ← tokenize line.toList
      ((Expr.ofTokens tokens line.toList.length).unlimited s.context s.environment).mapError
        Failure.toFault

/-- **The value of a line is too large**: beyond the limit, or even beyond what
the arithmetic can hold. -/
def IsTooLarge (s : Session) (line : Option String) : Prop :=
  match s.computeUnlimited line with
  | .ok x => ¬ x.IsWithinLimit
  | .error fault => ∃ position, fault = .evaluation .resultTooLarge position

/-- **A line keeps numbers beyond the limit out**: it writes none down and has no
function round to one. -/
def KeepsOut (s : Session) (line : Option String) : Prop :=
  ∀ text tokens, line = some text → tokenize text.toList = .ok tokens →
    ∀ part ∈ (Expr.ofTokens tokens text.toList.length).parts,
      ¬ part.Escapes s.context s.environment

/-- **The limit rejects lines and changes nothing else.** -/
theorem compute_eq_or_rejected (s : Session) (line : Option String) :
    (∃ position, s.compute line = .error (.evaluation .resultTooLarge position))
      ∨ s.compute line = s.computeUnlimited line := by
  cases line with
  | none => exact .inr rfl
  | some line =>
    rw [compute, evaluateLine, computeUnlimited]
    split
    · exact .inr rfl
    · cases tokenize line.toList with
      | error fault => exact .inr rfl
      | ok tokens =>
        rcases (Expr.ofTokens tokens line.toList.length).limits_eval s.context s.environment with
          ⟨failure, position, hfailure, hfault⟩ | heq
        · refine .inl ⟨position, ?_⟩
          show ((Expr.ofTokens tokens line.toList.length).eval s.context s.environment).mapError
            Failure.toFault = _
          rw [hfailure]
          exact congrArg Except.error hfault
        · refine .inr ?_
          show ((Expr.ofTokens tokens line.toList.length).eval s.context s.environment).mapError
            Failure.toFault = _
          rw [heq]
          rfl

/-! ## Sessions -/

/-- **A session within the limit**: the last answer, and the value of every
variable. -/
structure IsWithinLimit (s : Session) : Prop where
  answer : s.answer.IsWithinLimit
  bindings : ∀ pair ∈ s.variables, pair.2.IsWithinLimit

/-- **A request that lets no number beyond the limit in.** -/
def Admits (s : Session) : Request → Prop
  | .evaluateQuietly line | .evaluate line => s.KeepsOut line
  | .setVariable _ (.line text) => s.KeepsOut (some text)
  | .setVariable _ (.decimal x) => x.IsWithinLimit
  | .setVariable _ (.integer n) => n.natAbs < 10 ^ maxResultDigits
  | _ => True

/-- Requests of which none lets a number beyond the limit in when its turn
comes. -/
def Admitted (s : Session) : List Request → Prop
  | [] => True
  | request :: later => s.Admits request ∧ Admitted (s.serve request).2 later

variable {s s' : Session} {line : Option String} {request : Request} {outcome : Outcome}

theorem isWithinLimit_empty (context : Context) : (empty context).IsWithinLimit :=
  ⟨Decimal.isWithinLimit_ofNat (by positivity), nofun⟩

theorem IsWithinLimit.environment (h : s.IsWithinLimit) : s.environment.IsWithinLimit :=
  ⟨h.answer, fun _ _ hlookup => h.bindings _ (Bindings.mem_of_get? hlookup)⟩

/-- **The value of a line is within the limit.** -/
theorem isWithinLimit_of_compute (h : s.IsWithinLimit) (hline : s.KeepsOut line)
    (hx : s.compute line = .ok x) : x.IsWithinLimit := by
  cases line with
  | none => cases hx
  | some line =>
    rw [compute, evaluateLine] at hx
    split at hx
    · cases hx
    · obtain ⟨tokens, htokens, heval⟩ := exists_of_bind_eq_ok hx
      exact Expr.isWithinLimit_eval h.environment (hline line tokens rfl htokens)
        (of_mapError_eq_ok heval)

/-- **A line whose value is too large is rejected.** -/
theorem exists_rejected_of_isTooLarge (h : s.IsWithinLimit) (hline : s.KeepsOut line)
    (hlarge : s.IsTooLarge line) :
    ∃ position, s.compute line = .error (.evaluation .resultTooLarge position) := by
  rcases s.compute_eq_or_rejected line with hrejected | heq
  · exact hrejected
  · rw [IsTooLarge, ← heq] at hlarge
    cases hx : s.compute line with
    | ok x =>
      rw [hx] at hlarge
      exact absurd (isWithinLimit_of_compute h hline hx) hlarge
    | error fault =>
      rw [hx] at hlarge
      obtain ⟨position, rfl⟩ := hlarge
      exact ⟨position, rfl⟩

theorem IsWithinLimit.assign (h : s.IsWithinLimit) (hx : x.IsWithinLimit) :
    (s.assign name x).IsWithinLimit :=
  ⟨h.answer, Bindings.forall_mem_set h.bindings hx⟩

theorem isWithinLimit_ofInt {n : ℤ} (h : n.natAbs < 10 ^ maxResultDigits) :
    (Decimal.ofInt n).IsWithinLimit := by
  refine ⟨.ofInt n, rfl, ?_⟩
  rw [Scaled.abs_toRat, Scaled.ofInt, zpow_zero, mul_one]
  exact_mod_cast h

/-! ## A number that is written down -/

/-- One and a row of zeros. -/
def powerOfTen (n : ℕ) : List Char := '1' :: List.replicate n '0'

/-- Zeros multiply the number before them by ten. -/
theorem foldl_digits_replicate (n m : ℕ) :
    (List.replicate n '0').foldl (fun v c => 10 * v + Unicode.decimalValue c) m = m * 10 ^ n := by
  have hzero : Unicode.decimalValue '0' = 0 := by decide
  induction n generalizing m with
  | zero => exact (mul_one m).symm
  | succ n ih =>
    rw [List.replicate_succ, List.foldl_cons, ih, hzero, add_zero, pow_succ]
    ring

/-- **A one and zeros are the numeral of a power of ten.** -/
theorem toRat_powerOfTen (n : ℕ) :
    (⟨powerOfTen n, none⟩ : Numeral).value.toRat = 10 ^ n := by
  have hone : Unicode.decimalValue '1' = 1 := by decide
  have hvalue : Unicode.digitsValue (powerOfTen n ++ []) = 10 ^ n := by
    rw [List.append_nil, powerOfTen, Unicode.digitsValue, List.foldl_cons, hone,
      foldl_digits_replicate, mul_zero, zero_add, one_mul]
  show (1 : ℚ) * (Unicode.digitsValue (powerOfTen n ++ []) : ℕ) * 10 ^ (0 : ℤ) = 10 ^ n
  rw [hvalue, zpow_zero, mul_one, one_mul, Nat.cast_pow, Nat.cast_ofNat]

/-- A one and zeros are cut into one token. -/
theorem tokenize_powerOfTen (n : ℕ) :
    tokenize (powerOfTen n) = .ok [⟨.number ⟨powerOfTen n, none⟩, powerOfTen n, 0⟩] := by
  have hone : Unicode.isDecimal '1' = true := by decide
  have hzero : Unicode.isDecimal '0' = true := by decide
  have hblank : Unicode.isBlank '1' = false := by decide
  have htake : (List.replicate n '0').takeWhile Unicode.isDecimal = List.replicate n '0' := by
    simp [hzero]
  have hdrop : (List.replicate n '0').dropWhile Unicode.isDecimal = [] := by simp [hzero]
  have hlexeme : lexemeAt .start '1' (List.replicate n '0')
      = .ok (.number ⟨powerOfTen n, none⟩, (List.replicate n '0').length) := by
    rw [lexemeAt, hone, Bool.true_or, if_pos rfl, numeralAt, if_neg (by decide), htake, hdrop]
    rfl
  rw [tokenize, powerOfTen, tokensFrom, hblank, if_neg Bool.false_ne_true, hlexeme]
  dsimp only
  rw [List.take_length, List.drop_length, tokensFrom]
  rfl

/-- One number is read as that number. -/
theorem ofTokens_number (numeral : Numeral) (spelling : List Char) (position stop : ℕ) :
    Expr.ofTokens [⟨.number numeral, spelling, position⟩] stop = .number numeral :=
  Phrase.ofTokens_tokens (.sum (.product (.plain (.unsigned (.bare
    (.number ⟨.number numeral, spelling, position⟩ numeral rfl)))) .productEnd) .sumEnd) stop

/-- **A one and zeros are answered with the power of ten**, in every session. -/
theorem compute_powerOfTen (s : Session) (n : ℕ) :
    s.compute (some (String.ofList (powerOfTen n)))
      = .ok (.finite (⟨powerOfTen n, none⟩ : Numeral).value) := by
  have hblank : Unicode.isBlankText (powerOfTen n) = false := by
    rw [Unicode.isBlankText, powerOfTen, List.all_cons, (by decide : Unicode.isBlank '1' = false),
      Bool.false_and]
  rw [compute, evaluateLine, String.toList_ofList, hblank, if_neg Bool.false_ne_true,
    tokenize_powerOfTen]
  show ((Expr.ofTokens _ _).eval s.context s.environment).mapError Failure.toFault = _
  rw [ofTokens_number]
  rfl

/-- A one and zeros keep within the limit if there are few enough of them. -/
theorem keepsOut_powerOfTen (s : Session) {n : ℕ} (hn : n < maxResultDigits) :
    s.KeepsOut (some (String.ofList (powerOfTen n))) := by
  rintro _ tokens ⟨⟩ htokens
  rw [String.toList_ofList, tokenize_powerOfTen] at htokens
  obtain rfl := Except.ok.inj htokens
  rw [ofTokens_number, Expr.parts, List.forall_mem_singleton, Expr.Escapes, toRat_powerOfTen,
    not_le, abs_of_pos (by positivity)]
  exact pow_lt_pow_right₀ (by norm_num) hn

/-- A one and too many zeros are beyond the limit. -/
theorem not_isWithinLimit_powerOfTen {n : ℕ} (hn : maxResultDigits ≤ n) :
    ¬ (Decimal.finite (⟨powerOfTen n, none⟩ : Numeral).value).IsWithinLimit := by
  rintro ⟨y, hy, hlt⟩
  rw [← Decimal.finite.inj hy, toRat_powerOfTen, abs_of_pos (by positivity)] at hlt
  exact absurd hlt (not_lt.mpr (pow_le_pow_right₀ (by norm_num) hn))

/-! ## One request and many -/

/-- What holds of the value that is given holds of every value that is. -/
theorem forall_eq_ok_some {P : Decimal → Prop} (h : P x) :
    ∀ y, (Except.ok (some x) : Outcome) = .ok (some y) → P y := by
  rintro _ ⟨⟩
  exact h

/-- **A request keeps a session within the limit**, and gives a value within it. -/
theorem IsWithinLimit.step (h : s.IsWithinLimit) (hadmits : s.Admits request)
    (hserved : Served s request outcome s') :
    s'.IsWithinLimit ∧ ∀ x, outcome = .ok (some x) → x.IsWithinLimit := by
  cases hserved with
  | refused => exact ⟨h, nofun⟩
  | quiet hx =>
    have hvalue := isWithinLimit_of_compute h hadmits hx
    exact ⟨⟨hvalue, h.bindings⟩, forall_eq_ok_some hvalue⟩
  | committed hx =>
    have hvalue := isWithinLimit_of_compute h hadmits hx
    exact ⟨⟨hvalue, h.bindings⟩, forall_eq_ok_some hvalue⟩
  | recorded text => exact ⟨⟨h.answer, h.bindings⟩, nofun⟩
  | assignedLine hx =>
    have hvalue := isWithinLimit_of_compute h hadmits hx
    exact ⟨IsWithinLimit.assign ⟨hvalue, h.bindings⟩ hvalue, forall_eq_ok_some hvalue⟩
  | assignedDecimal name x => exact ⟨h.assign hadmits, forall_eq_ok_some hadmits⟩
  | assignedInteger name n =>
    have hvalue := isWithinLimit_ofInt hadmits
    exact ⟨h.assign hvalue, forall_eq_ok_some hvalue⟩
  | cleared => exact ⟨⟨h.answer, h.bindings⟩, nofun⟩
  | reset => exact ⟨isWithinLimit_empty _, nofun⟩

/-- **Requests keep a session within the limit**, and every value they give is. -/
theorem IsWithinLimit.run {requests : List Request} (h : s.IsWithinLimit)
    (hadmitted : s.Admitted requests) :
    (s.after requests).IsWithinLimit
      ∧ ∀ event ∈ s.events requests, ∀ x, event.outcome = .ok (some x) → x.IsWithinLimit := by
  induction requests generalizing s with
  | nil => exact ⟨h, fun _ hevent => absurd hevent List.not_mem_nil⟩
  | cons request later ih =>
    obtain ⟨hadmits, hlater⟩ := hadmitted
    obtain ⟨hnext, hvalue⟩ := h.step hadmits (served s request)
    obtain ⟨hafter, hevents⟩ := ih hnext hlater
    exact ⟨hafter, List.forall_mem_cons.mpr ⟨hvalue, hevents⟩⟩

/-- A request fails with the fault of its line. -/
theorem Served.outcome_eq_error {fault : Fault} (hserved : Served s request outcome s')
    (hline : request.line? = some line) (h : s.compute line = .error fault) :
    outcome = .error fault := by
  cases hserved with
  | refused hline' hfault =>
    obtain rfl := Option.some.inj (hline.symm.trans hline')
    exact congrArg Except.error (Except.error.inj (hfault.symm.trans h))
  | quiet hx =>
    obtain rfl := Option.some.inj hline
    exact absurd (hx.symm.trans h) nofun
  | committed hx =>
    obtain rfl := Option.some.inj hline
    exact absurd (hx.symm.trans h) nofun
  | assignedLine hx =>
    obtain rfl := Option.some.inj hline
    exact absurd (hx.symm.trans h) nofun
  | _ => cases hline

/-- **Nothing beyond the limit on digits comes out of a session** unless it was let
in. In a new session, after requests that let no number of more than ten thousand
digits before the point in, every value that was given, the last answer and every
variable are within the limit; and a line whose value is too large is rejected for
that reason. -/
theorem isWithinLimit_of_admitted (context : Context) {requests : List Request}
    (h : (empty context).Admitted requests) :
    (∀ event ∈ (empty context).events requests, ∀ x, event.outcome = .ok (some x) →
        x.IsWithinLimit)
      ∧ ((empty context).after requests).IsWithinLimit
      ∧ ∀ request line, request.line? = some line →
        ((empty context).after requests).KeepsOut line →
        ((empty context).after requests).IsTooLarge line →
        ∃ position, (((empty context).after requests).serve request).1
          = .error (.evaluation .resultTooLarge position) := by
  obtain ⟨hafter, hevents⟩ := (isWithinLimit_empty context).run h
  refine ⟨hevents, hafter, fun request line hline hkeeps hlarge => ?_⟩
  obtain ⟨position, hrejected⟩ := exists_rejected_of_isTooLarge hafter hkeeps hlarge
  exact ⟨position, (served _ request).outcome_eq_error hline hrejected⟩

/-- A session with a variable of ten thousand digits and the last answer ten. -/
def longest : Session := ⟨.working 50, [("a", .finite ⟨false, 1, 9999⟩)], ["10"], .ofNat 10⟩

/-- The last answer times a variable, as it is read. -/
theorem exists_tokenize_product :
    ∃ tokens, tokenize "ans*a".toList = .ok tokens
      ∧ Expr.ofTokens tokens 5 = .binary .multiply 3 .answer (.variable "a" 4) :=
  ⟨[⟨.answer, "ans".toList, 0⟩, ⟨.operator .multiply, ['*'], 3⟩, ⟨.variable "a", ['a'], 4⟩],
    by cbv, by cbv⟩

/-- A line that only refers to numbers keeps other numbers out. -/
theorem keepsOut_product (s : Session) : s.KeepsOut (some "ans*a") := by
  rintro _ _ ⟨⟩ htokens
  obtain ⟨tokens, htokens', hexpr⟩ := exists_tokenize_product
  obtain rfl := Except.ok.inj (htokens'.symm.trans htokens)
  show ∀ part ∈ (Expr.ofTokens tokens 5).parts, _
  rw [hexpr]
  simp [Expr.parts, Expr.Escapes]

/-- Ten times a number of ten thousand digits has one digit more. -/
theorem isTooLarge_longest : longest.IsTooLarge (some "ans*a") := by
  obtain ⟨tokens, htokens, hexpr⟩ := exists_tokenize_product
  have hvalue : longest.computeUnlimited (some "ans*a") = .ok (.finite ⟨false, 10, 9999⟩) := by
    rw [computeUnlimited, if_neg (by decide), htokens]
    show ((Expr.ofTokens tokens 5).unlimited _ _).mapError Failure.toFault = _
    rw [hexpr]
    decide +kernel
  rw [IsTooLarge, hvalue]
  rintro ⟨y, ⟨⟩, hlt⟩
  refine absurd hlt (not_lt.mpr ?_)
  rw [Scaled.abs_toRat]
  show _ ≤ ((10 : ℕ) : ℚ) * 10 ^ (9999 : ℤ)
  rw [Nat.cast_ofNat, ← zpow_one_add₀ (by norm_num), ← zpow_natCast]
  exact zpow_le_zpow_right₀ (by norm_num) (by decide)

/-- A number of ten thousand digits is let in, and kept next to another one. Their
product, which has one digit more, is rejected. -/
theorem isWithinLimit_longest :
    (empty (.working 50)).Admitted
        [.setVariable "a" (.decimal (.finite ⟨false, 1, 9999⟩)), .evaluate (some "10")]
      ∧ (empty (.working 50)).after
        [.setVariable "a" (.decimal (.finite ⟨false, 1, 9999⟩)), .evaluate (some "10")] = longest
      ∧ longest.IsWithinLimit
      ∧ longest.KeepsOut (some "ans*a") ∧ longest.IsTooLarge (some "ans*a")
      ∧ ∃ position, (longest.serve (.evaluate (some "ans*a"))).1
        = .error (.evaluation .resultTooLarge position) := by
  have hlongest : (Decimal.finite ⟨false, 1, 9999⟩).IsWithinLimit := by
    refine ⟨_, rfl, ?_⟩
    rw [Scaled.abs_toRat, Nat.cast_one, one_mul, ← zpow_natCast]
    exact zpow_lt_zpow_right₀ (by norm_num) (by decide)
  have hadmitted : (empty (.working 50)).Admitted
      [.setVariable "a" (.decimal (.finite ⟨false, 1, 9999⟩)), .evaluate (some "10")] :=
    ⟨hlongest, keepsOut_powerOfTen _ (by decide : 1 < maxResultDigits), trivial⟩
  have hafter : (empty (.working 50)).after
      [.setVariable "a" (.decimal (.finite ⟨false, 1, 9999⟩)), .evaluate (some "10")]
      = longest := by cbv
  obtain ⟨-, hwithin, hrejects⟩ := isWithinLimit_of_admitted (.working 50) hadmitted
  rw [hafter] at hwithin hrejects
  have hkeeps := keepsOut_product longest
  exact ⟨hadmitted, hafter, hwithin, hkeeps, isTooLarge_longest,
    hrejects _ _ rfl hkeeps isTooLarge_longest⟩

/-- **One digit more is answered, too**: the value of ten thousand and one digits is
given, and becomes the last answer. -/
theorem exists_value_of_digits :
    ∃ x, ((empty (.working 50)).serve
          (.evaluate (some (String.ofList (powerOfTen 10000))))).1 = .ok (some x)
      ∧ ((empty (.working 50)).serve
          (.evaluate (some (String.ofList (powerOfTen 10000))))).2.answer = x
      ∧ ¬ x.IsWithinLimit := by
  refine ⟨.finite (⟨powerOfTen 10000, none⟩ : Numeral).value, ?_, ?_, ?_⟩
  · rw [serve_evaluate, evaluate, evaluateQuietly, compute_powerOfTen]
    rfl
  · rw [serve_evaluate, evaluate, evaluateQuietly, compute_powerOfTen]
    rfl
  · exact not_isWithinLimit_powerOfTen (by decide)

end Session

end Reckoner
