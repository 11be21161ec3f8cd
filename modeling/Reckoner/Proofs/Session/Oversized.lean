import Mathlib
import Reckoner.Proofs.Expr.Overflow
import Reckoner.Proofs.Grammar.Origin
import Reckoner.Proofs.Session.Finite
import Reckoner.Proofs.Token.Blame

/-!
# Where a line is rejected as too large

A line is rejected as too large because of an operator or a unit in it, one that has been given
numbers and whose result is out of bounds (`Session.evaluateQuietly_tooLarge_iff`). Its position
is the one that is reported, with one exception: what is beyond the largest exponent, and no
power, is reported at the start of the line, whatever stands there
(`Session.evaluateQuietly_quotient_beyond`).

The way from a line to the tree of its expression loses nothing of this. Cutting the line into
tokens fails for other reasons, the grammar complains of other things
(`Course.resultTooLarge_notMem`), and what the tree applies is a token of the line
(`Expr.IsMadeOf.exists_token`).
-/

namespace Reckoner

variable {ctx : Context} {env : Environment} {tokens : List Token} {place position stop : ℕ}

/-! ## Trees that are read -/

/-- **What the grammar complains of is not the size of a result.** -/
theorem Course.resultTooLarge_notMem {c : Category} {ts rest : List Token} {e : c.Tree}
    (h : Course stop c ts e rest) : c.Gives (fun e => .resultTooLarge ∉ e.strayCauses) e := by
  -- an operand and what is blamed behind it
  have hstray {e : Expr} {cause : Cause} (he : .resultTooLarge ∉ e.strayCauses)
      (hcause : .resultTooLarge ≠ cause) (place : ℕ) :
      .resultTooLarge ∉ (Expr.thenStray e cause place).strayCauses :=
    List.not_mem_cons_of_ne_of_not_mem hcause he
  have hmissing {cause : Cause} (hcause : .resultTooLarge ≠ cause) (place : ℕ) :
      .resultTooLarge ∉ (Expr.missing cause place).strayCauses :=
    fun h => hcause (List.mem_singleton.mp h)
  have hbinary {left right : Expr} (hleft : .resultTooLarge ∉ left.strayCauses)
      (hright : .resultTooLarge ∉ right.strayCauses) (op : Operator) (place : ℕ) :
      .resultTooLarge ∉ (Expr.binary op place left right).strayCauses :=
    fun h => (List.mem_append.mp h).elim hleft hright
  have hunfinished {e : Expr} (he : .resultTooLarge ∉ e.strayCauses) (op : Operator) (place : ℕ) :
      .resultTooLarge ∉ (unfinished op place e).strayCauses :=
    hbinary he (hmissing Cause.noConfusion _) _ _
  induction h with
  | sum _ _ ihFirst ihTail => exact ihTail _ ihFirst
  | sumEnd => exact fun left hleft => hleft
  | sumUnfinished => exact fun left hleft => hunfinished hleft _ _
  | sumStep _ _ _ _ _ ihTerm ihTail => exact fun left hleft => ihTail _ (hbinary hleft ihTerm _ _)
  | product _ _ ihFirst ihTail => exact ihTail _ ihFirst
  | productEnd => exact fun left hleft => hleft
  | productUnfinished => exact fun left hleft => hunfinished hleft _ _
  | productStep _ _ _ _ _ ihFactor ihTail =>
    exact fun left hleft => ihTail _ (hbinary hleft ihFactor _ _)
  | plain _ _ ih => exact ih
  | powerUnfinished _ _ ih => exact hunfinished ih _ _
  | raised _ _ _ _ ihBase ihExponent => exact hbinary ihBase ihExponent _ _
  | minus _ _ ih => exact ih
  | plus _ _ ih => exact ih
  | unsigned _ _ ih => exact ih
  | bare _ _ ih => exact ih
  | inUnit _ _ ih => exact ih
  | number => exact List.not_mem_nil
  | answer => exact List.not_mem_nil
  | named => exact List.not_mem_nil
  | call _ _ _ _ ih => exact ih
  | callUnclosed _ _ _ _ ih => exact hstray ih Cause.noConfusion _
  | group _ _ _ ih => exact ih
  | groupUnclosed _ _ _ ih => exact hstray ih Cause.noConfusion _
  | unopened => exact hmissing Cause.noConfusion _
  | ended => exact hmissing Cause.noConfusion _
  | unexpected => exact hmissing Cause.noConfusion _

/-- What a line of tokens lacks, or has too much, is not blamed for the size of a result. -/
theorem resultTooLarge_notMem_ofTokens (tokens : List Token) (stop : ℕ) :
    .resultTooLarge ∉ (Expr.ofTokens tokens stop).strayCauses := by
  obtain ⟨e, rest, hcourse, hread⟩ := exists_course_readSum stop tokens
  have he : .resultTooLarge ∉ e.strayCauses := hcourse.resultTooLarge_notMem
  cases rest with
  | nil => exact ofTokens_complete hread ▸ he
  | cons token rest =>
    rw [ofTokens_stray hread]
    exact List.not_mem_cons_of_ne_of_not_mem Cause.noConfusion he

/-- **What is applied stands in the line**: each application is that of one of the tokens that a
tree is made of. -/
theorem Expr.IsMadeOf.exists_token {e : Expr} (h : e.IsMadeOf tokens) {a : Application}
    (hperforms : e.Performs ctx env place a) :
    ∃ token ∈ tokens, token.lexeme = a.lexeme ∧ token.position = place := by
  induction hperforms with
  | operator =>
    cases h with
    | binary mem lexeme_eq => exact ⟨_, mem, lexeme_eq, rfl⟩
  | unit =>
    cases h with
    | inUnit mem lexeme_eq => exact ⟨_, mem, lexeme_eq, rfl⟩
  | negate _ ih =>
    cases h with
    | negate operand_isMadeOf => exact ih operand_isMadeOf
  | left _ ih =>
    cases h with
    | binary _ _ left_isMadeOf _ => exact ih left_isMadeOf
  | right _ _ ih =>
    cases h with
    | binary _ _ _ right_isMadeOf => exact ih right_isMadeOf
  | inUnit _ ih =>
    cases h with
    | inUnit _ _ operand_isMadeOf => exact ih operand_isMadeOf
  | argument _ ih =>
    cases h with
    | call _ _ argument_isMadeOf => exact ih argument_isMadeOf
  | beforeStray _ ih =>
    cases h with
    | thenStray operand_isMadeOf => exact ih operand_isMadeOf

/-! ## Lines -/

namespace Session

variable {s : Session} {text : String}

/-- **What a line applies**: an operator or a unit, with the token that stands for it. -/
def Applies (s : Session) (text : String) (token : Token) (a : Application) : Prop :=
  ∃ tokens, tokenize text.toList = .ok tokens ∧ token ∈ tokens ∧ token.lexeme = a.lexeme
    ∧ (Expr.ofTokens tokens text.toList.length).Performs s.context s.environment token.position a

/-- **A line is rejected as too large if its expression is.** -/
theorem compute_tooLarge_iff :
    s.compute (some text) = .error (.evaluation .resultTooLarge position)
      ↔ ∃ tokens, tokenize text.toList = .ok tokens ∧ tokens ≠ [] ∧ IsRejectedAt position
        ((Expr.ofTokens tokens text.toList.length).eval s.context s.environment) := by
  rw [compute, evaluateLine]
  constructor
  · intro h
    split at h
    · cases Except.error.inj h
    · next hblank =>
      obtain htokens | ⟨tokens, htokens, heval⟩ := of_bind_eq_error h
      · cases lexerBlames_of_tokenize htokens
      · obtain ⟨failure, hfailure, hfault⟩ := exists_of_mapError_eq_error heval
        rw [isBlankText_iff_of_tokenize htokens] at hblank
        exact ⟨tokens, htokens, hblank, failure, hfailure, hfault⟩
  · rintro ⟨tokens, htokens, hne, failure, hfailure, hfault⟩
    rw [if_neg (mt (isBlankText_iff_of_tokenize htokens).mp hne), htokens]
    show ((Expr.ofTokens tokens text.toList.length).eval _ _).mapError Failure.toFault = _
    rw [hfailure]
    exact congrArg Except.error hfault

/-- **Where a line is rejected as too large**, and when. In a session of numbers, a line is
rejected so at a position if and only if it comes to apply an operator or a unit whose result is
too large, and the position is that of its token; or the result, which is no power, is beyond the
largest exponent, and the position is the start of the line. Nothing that is rejected is small: the
exact result has at least ten thousand digits before the point. -/
theorem evaluateQuietly_tooLarge_iff {precision : ℕ}
    (hctx : Context.ofPrecision precision = .ok s.context) (hs : s.IsFinite) (text : String)
    (position : ℕ) :
    (s.evaluateQuietly (some text) = .error (.evaluation .resultTooLarge position)
      ↔ ∃ token a, s.Applies text token a ∧ a.IsOversized s.context token.position position)
    ∧ ∀ token a, s.Applies text token a → a.IsOversized s.context token.position position →
      10 ^ (maxResultDigits - 1) ≤ |a.exactly| := by
  have hp := Context.one_le_precision_of_ofPrecision hctx
  have hmode : s.context.mode.ToNearest := Context.eq_working_of_ofPrecision hctx ▸ .halfUp
  refine ⟨⟨fun h => ?_, ?_⟩, fun token a _ hoversized => hoversized.le_abs_exactly hp hmode⟩
  · obtain ⟨tokens, htokens, -, hrejected⟩ := compute_tooLarge_iff.mp (of_map_eq_error h)
    obtain ⟨place, a, hperforms, hoversized⟩ := (Expr.isRejectedAt_eval_iff hp hs.environment
      (resultTooLarge_notMem_ofTokens tokens _)).mp hrejected
    obtain ⟨token, hmem, hlexeme, rfl⟩ := (isMadeOf_ofTokens tokens _).exists_token hperforms
    exact ⟨token, a, ⟨tokens, htokens, hmem, hlexeme, hperforms⟩, hoversized⟩
  · rintro ⟨token, a, ⟨tokens, htokens, hmem, -, hperforms⟩, hoversized⟩
    have hrejected := (Expr.isRejectedAt_eval_iff hp hs.environment
      (resultTooLarge_notMem_ofTokens tokens _)).mpr ⟨_, a, hperforms, hoversized⟩
    rw [evaluateQuietly,
      compute_tooLarge_iff.mpr ⟨tokens, htokens, List.ne_nil_of_mem hmem, hrejected⟩]
    rfl

/-- Ten times a number of ten thousand digits is rejected where the asterisk stands. -/
theorem evaluateQuietly_tooLarge_product :
    let s : Session := ⟨.working 50, [("a", .finite ⟨false, 1, 9999⟩)], [], .ofNat 0⟩
    Context.ofPrecision 50 = .ok s.context ∧ s.IsFinite
      ∧ s.evaluateQuietly (some "a*10") = .error (.evaluation .resultTooLarge 1)
      ∧ ∃ token a, s.Applies "a*10" token a ∧ a.IsOversized s.context token.position 1
        ∧ 10 ^ (maxResultDigits - 1) ≤ |a.exactly| := by
  intro s
  have hctx : Context.ofPrecision 50 = .ok s.context := rfl
  have hs : s.IsFinite := ⟨.finite _, List.forall_mem_singleton.mpr (.finite _)⟩
  have htree : Expr.ofTokens [⟨.variable "a", ['a'], 0⟩, ⟨.operator .multiply, ['*'], 1⟩,
      ⟨.number ⟨['1', '0'], none⟩, ['1', '0'], 2⟩] "a*10".toList.length
        = .binary .multiply 1 (.variable "a" 0) (.number ⟨['1', '0'], none⟩) := by cbv
  have heval : (Expr.binary .multiply 1 (.variable "a" 0) (.number ⟨['1', '0'], none⟩)).eval
      s.context s.environment = .error (.fault (.evaluation .resultTooLarge 1)) := by decide +kernel
  have h : s.evaluateQuietly (some "a*10") = .error (.evaluation .resultTooLarge 1) := by
    rw [evaluateQuietly, compute_tooLarge_iff.mpr
      ⟨_, by cbv, List.cons_ne_nil _ _, _, htree ▸ heval, rfl⟩]
    rfl
  obtain ⟨hiff, hlarge⟩ := evaluateQuietly_tooLarge_iff hctx hs "a*10" 1
  obtain ⟨token, a, happlies, hoversized⟩ := hiff.mp h
  exact ⟨hctx, hs, h, token, a, happlies, hoversized, hlarge token a happlies hoversized⟩

/-- One tenth, raised to the thousandth power `n` times, as it is read from a line where `.1` stands
behind seven characters. -/
def towerOfPowers : ℕ → Expr
  | 0 => .number ⟨[], some ['1']⟩
  | n + 1 => .binary .power (6 * n + 9) (towerOfPowers n) (.number ⟨"1000".toList, none⟩)

set_option maxRecDepth 100000 in
/-- **A quotient beyond the largest exponent is reported at the start of the line**, where a number
stands and no operator or unit. -/
theorem evaluateQuietly_quotient_beyond :
    let s := empty (.working 50)
    let text := "1/(((((.1^1000)^1000)^1000)^1000)^1000)^1000"
    Context.ofPrecision 50 = .ok s.context ∧ s.IsFinite
      ∧ s.evaluateQuietly (some text) = .error (.evaluation .resultTooLarge 0)
      ∧ ∃ tokens, tokenize text.toList = .ok tokens ∧ ∀ token ∈ tokens, token.position = 0 →
        (∀ op, token.lexeme ≠ .operator op) ∧ ∀ u, token.lexeme ≠ .unit u := by
  intro s text
  obtain ⟨tokens, htokens, hne, hfirst, htree⟩ : ∃ tokens, tokenize text.toList = .ok tokens
      ∧ tokens ≠ []
      ∧ (∀ token ∈ tokens, token.position = 0 → token.lexeme = .number ⟨['1'], none⟩)
      ∧ Expr.ofTokens tokens text.toList.length
        = .binary .divide 1 (.number ⟨['1'], none⟩) (towerOfPowers 6) :=
    ⟨_, by cbv, by decide, by decide, by cbv⟩
  have heval : (Expr.ofTokens tokens text.toList.length).eval s.context s.environment
      = .error (.signal .overflow) := by
    rw [htree]
    decide +kernel
  refine ⟨rfl, isFinite_empty _, ?_, tokens, htokens, fun token hmem hposition => ?_⟩
  · rw [evaluateQuietly, compute_tooLarge_iff.mpr ⟨tokens, htokens, hne, _, heval, rfl⟩]
    rfl
  · rw [hfirst token hmem hposition]
    exact ⟨fun _ => Lexeme.noConfusion, fun _ => Lexeme.noConfusion⟩

end Session

end Reckoner
