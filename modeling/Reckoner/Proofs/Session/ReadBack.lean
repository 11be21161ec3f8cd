import Reckoner.Proofs.Display.Grouped
import Reckoner.Proofs.Session.Exact
import Reckoner.Proofs.Token.Written

/-!
# Results can be typed in again

What the calculator shows without groups is a line that it evaluates, and the
value is the number that was shown (`Session.evaluateQuietly_grouped`). The text
is a plain text in the sense of `IsPlainText`: a minus sign or none, and digits
with at most one point. It is cut into a numeral with at most one token before
it (`IsPlainText.exists_tokens`), and such a row of tokens is an operand of the
grammar under at most one sign, whose value is that of the operand, negated where
there is a sign (`Session.exists_compute_signed`).

Both statements leave open what follows the digits, so that they serve for a
number with a unit as well.
-/

namespace Reckoner

variable {r : ℚ} {text tail : List Char}

/-! ## The tokens of a plain text -/

/-- **The numeral of plain digits.** -/
def PlainDigits.numeral (d : PlainDigits r) : Numeral :=
  ⟨d.whole, if d.fraction = [] then none else some d.fraction⟩

namespace PlainDigits

variable (d : PlainDigits r)

theorem getD_fraction_numeral : d.numeral.fraction.getD [] = d.fraction := by
  unfold numeral
  split
  · next h => exact h.symm
  · rfl

theorem isAscii_numeral : d.numeral.IsAscii where
  ne_nil := d.isWhole.ne_nil
  whole := d.isWhole.digits
  fraction := d.getD_fraction_numeral ▸ d.isFraction.digits

theorem toRat_value_numeral : d.numeral.value.toRat = |r| := by
  rw [d.isAscii_numeral.toRat_value, d.getD_fraction_numeral, d.abs_eq]
  rfl

theorem chars_numeral :
    d.numeral.chars = d.whole ++ (if r.den = 1 then [] else '.' :: d.fraction) := by
  simp only [← d.fraction_eq_nil, Numeral.chars, numeral]
  by_cases h : d.fraction = []
  · rw [if_pos h, if_pos h, List.append_nil]
  · rw [if_neg h, if_neg h]

end PlainDigits

/-- **The sign of a number**, as tokens: a minus sign below zero, and nothing
else. -/
def IsMinus (r : ℚ) (tokens : List Token) : Prop :=
  tokens.map Token.lexeme = if r < 0 then [.operator .subtract] else []

/-- **A plain text is cut into a sign and a numeral**, whatever may follow a
number. -/
theorem IsPlainText.exists_tokens (h : IsPlainText false r text) :
    ∃ (minus : List Token) (n : Numeral) (position : ℕ), IsMinus r minus ∧ n.value.toRat = |r|
      ∧ ∀ tail, EndsNumber tail → tokenize (text ++ tail)
        = (tokensFrom text.length ⟨n.chars.getLast?, some (.number n)⟩ tail).map
          fun tokens => minus ++ ⟨.number n, n.chars, position⟩ :: tokens := by
  obtain ⟨d, whole, hwhole, rfl⟩ := h
  obtain rfl : whole = d.whole := hwhole
  rw [List.append_assoc, ← d.chars_numeral]
  have hnumeral {tail : List Char} (htail : EndsNumber tail) :=
    tokensFrom_numeral d.isAscii_numeral htail
  by_cases hr : r < 0
  · rw [if_pos hr]
    refine ⟨[⟨.operator .subtract, ['-'], 0⟩], d.numeral, 1, ?_, d.toRat_value_numeral, ?_⟩
    · rw [IsMinus, if_pos hr]
      rfl
    · intro tail htail
      have hblank : Unicode.isBlank '-' = false := by decide
      have hlexeme (cs : List Char) : lexemeAt .start '-' cs = .ok (.operator .subtract, 0) := by
        rw [lexemeAt, if_neg (by decide)]
        rfl
      rw [List.singleton_append, List.cons_append, tokenize, tokensFrom, hblank,
        if_neg Bool.false_ne_true, hlexeme]
      dsimp only
      rw [List.drop_zero, hnumeral htail, List.length_cons, Nat.add_comm d.numeral.chars.length]
      cases tokensFrom _ _ tail <;> rfl
  · rw [if_neg hr]
    refine ⟨[], d.numeral, 0, ?_, d.toRat_value_numeral, fun tail htail => ?_⟩
    · rw [IsMinus, if_neg hr]
      rfl
    · rw [List.nil_append, tokenize, hnumeral htail, Nat.zero_add]
      rfl

/-! ## The value of an operand under a sign -/

/-- **A line whose tokens are a sum has the value the sum means.** -/
theorem Session.compute_of_eval {s : Session} {text : String} {x : Decimal} (d : Phrase .sum)
    (htokens : tokenize text.toList = .ok d.tokens)
    (hd : d.eval s.context s.environment = .ok x) : s.compute (some text) = .ok x := by
  have hblank : Unicode.isBlankText text.toList = false := by
    refine Bool.eq_false_of_not_eq_true fun hblank => ?_
    have hnil := Except.ok.inj (htokens.symm.trans (tokensFrom_of_isBlankText hblank 0 .start))
    exact d.tokens_ne_nil nofun nofun hnil
  have heval : d.toExpr.eval s.context s.environment = .ok x :=
    (d.eval_toExpr s.context s.environment).trans hd
  rw [compute, evaluateLine, hblank, htokens]
  show ((Expr.ofTokens d.tokens text.toList.length).eval _ _).mapError Failure.toFault = _
  rw [d.ofTokens_tokens, heval]
  rfl

/-- **An operand under the sign of a number**: where the operand is the absolute
value times `u`, the line is the number times `u`. -/
theorem Session.exists_compute_signed {s : Session} {text : String} {minus : List Token}
    (hminus : IsMinus r minus) (operand : Phrase .operand)
    (htokens : tokenize text.toList = .ok (minus ++ operand.tokens)) {a : Scaled} {u : ℚ}
    (ha : operand.eval s.context s.environment = .ok (.finite a)) (hvalue : a.toRat = |r| * u) :
    ∃ y : Scaled, s.compute (some text) = .ok (.finite y) ∧ y.toRat = r * u := by
  unfold IsMinus at hminus
  split at hminus
  · next hr =>
    obtain ⟨token, rfl, hlexeme⟩ := List.map_eq_singleton_iff.mp hminus
    refine ⟨a.negate, ?_, ?_⟩
    · refine compute_of_eval
        (.sum (.product (.plain (.minus token hlexeme (.unsigned operand))) .productEnd) .sumEnd)
        ?_ ?_
      · simpa [Phrase.tokens] using htokens
      · simp only [Phrase.eval, ha]
        rfl
    · rw [a.toRat_negate, hvalue, abs_of_neg hr, neg_mul, neg_neg]
  · next hr =>
    obtain rfl := List.map_eq_nil_iff.mp hminus
    refine ⟨a, ?_, ?_⟩
    · refine compute_of_eval
        (.sum (.product (.plain (.unsigned operand)) .productEnd) .sumEnd) ?_ ?_
      · simpa [Phrase.tokens] using htokens
      · simp only [Phrase.eval, ha]
        rfl
    · rw [hvalue, abs_of_nonneg (not_lt.mp hr)]

/-! ## What is shown is read -/

namespace Session

/-- **The ungrouped text of a result is a line with a value**, in every session:
the number that was shown, which is the result rounded half-even to ten places. -/
theorem evaluateQuietly_grouped (s : Session) (x : Scaled) :
    ∃ text y, (Decimal.finite x).grouped? false = some text
      ∧ s.evaluateQuietly (some text) = .ok (.finite y, { s with answer := .finite y })
      ∧ y.toRat = Scaled.atTenPlaces x.toRat := by
  obtain ⟨minus, n, position, hminus, hn, htokens⟩ := (x.isPlainText_grouped false).exists_tokens
  have htokens := htokens [] endsNumber_nil
  rw [List.append_nil, tokensFrom] at htokens
  obtain ⟨y, hy, hvalue⟩ := exists_compute_signed (s := s) (u := 1) hminus
    (.bare (.number ⟨.number n, n.chars, position⟩ n rfl)) htokens rfl (by rw [hn, mul_one])
  refine ⟨x.grouped false, y, rfl, ?_, by rw [hvalue, mul_one]⟩
  rw [evaluateQuietly, hy]
  rfl

end Session

end Reckoner
