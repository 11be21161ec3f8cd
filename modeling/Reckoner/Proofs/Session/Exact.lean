import Reckoner.Proofs.Expr.Exact
import Reckoner.Proofs.Grammar.Reading
import Reckoner.Proofs.Token.Spelling
import Reckoner.Session.Basic

/-!
# Lines that are computed exactly

Whether a line is computed exactly can be seen from its tokens: division, power
and root are the only ones that round (`Token.MayRound`), and a phrase of the
grammar without them is an exact expression (`Phrase.isExact_toExpr`).

`Session.evaluateQuietly_exact` says that such a line either fails or has its
exact value, whatever the precision of the session. It does not fail where its
expression has an exact value and none of the parts is beyond a limit of the
calculator (`Session.exists_evaluateQuietly`).
-/

namespace Reckoner

/-! ## Tokens that do not round -/

/-- A token that may lead to rounding: division, power or root. -/
def Token.MayRound (token : Token) : Prop :=
  token.lexeme = .operator .divide ∨ token.lexeme = .operator .power
    ∨ token.lexeme = .function .sqrt

/-- The tree of a category is exact, for a tail where what stands on its left
is. -/
def Category.IsExact : (c : Category) → c.Tree → Prop
  | .sumTail, e | .productTail, e => ∀ left : Expr, left.IsExact → (e left).IsExact
  | .sum, e | .product, e | .power, e | .signed, e | .operand, e | .atom, e => Expr.IsExact e

/-- **The expression of a phrase is exact**, unless a token of it may round. -/
theorem Phrase.isExact_toExpr {c : Category} (d : Phrase c)
    (h : ∀ token ∈ d.tokens, ¬ token.MayRound) : c.IsExact d.toExpr := by
  induction d with
  | sum first tail ihFirst ihTail =>
    rw [tokens, List.forall_mem_append] at h
    exact ihTail h.2 first.toExpr (ihFirst h.1)
  | sumEnd => exact fun left hleft => hleft
  | sumStep token op lexeme_eq additive term tail ihTerm ihTail =>
    rw [tokens, List.forall_mem_cons, List.forall_mem_append] at h
    intro left hleft
    have hop : op ≠ .divide ∧ op ≠ .power := by
      constructor <;> rintro rfl <;> cases additive
    exact ihTail h.2.2 _ ⟨hop, hleft, ihTerm h.2.1⟩
  | product first tail ihFirst ihTail =>
    rw [tokens, List.forall_mem_append] at h
    exact ihTail h.2 first.toExpr (ihFirst h.1)
  | productEnd => exact fun left hleft => hleft
  | productStep token op lexeme_eq multiplicative factor tail ihFactor ihTail =>
    rw [tokens, List.forall_mem_cons, List.forall_mem_append] at h
    intro left hleft
    have hop : op ≠ .divide ∧ op ≠ .power := by
      refine ⟨fun hdivide => h.1 (.inl ?_), fun hpower => h.1 (.inr (.inl ?_))⟩
      · rw [lexeme_eq, hdivide]
      · rw [lexeme_eq, hpower]
    exact ihTail h.2.2 _ ⟨hop, hleft, ihFactor h.2.1⟩
  | plain base ih => exact ih h
  | raised base token lexeme_eq exponent =>
    rw [tokens, List.forall_mem_append, List.forall_mem_cons] at h
    exact absurd (.inr (.inl lexeme_eq)) h.2.1
  | minus token lexeme_eq operand ih =>
    rw [tokens, List.forall_mem_cons] at h
    exact ih h.2
  | plus token lexeme_eq operand ih =>
    rw [tokens, List.forall_mem_cons] at h
    exact ih h.2
  | unsigned operand ih => exact ih h
  | bare atom ih => exact ih h
  | inUnit atom token u lexeme_eq ih =>
    rw [tokens, List.forall_mem_append] at h
    exact ih h.1
  | number token numeral lexeme_eq => trivial
  | answer token lexeme_eq => trivial
  | named token name lexeme_eq => trivial
  | call token f lexeme_eq opening opens argument closing closes ih =>
    rw [tokens, List.forall_mem_cons, List.forall_mem_cons, List.forall_mem_append] at h
    refine ⟨fun hsqrt => h.1 (.inr (.inr ?_)), ih h.2.2.1⟩
    rw [lexeme_eq, hsqrt]
  | group opening opens inner closing closes ih =>
    rw [tokens, List.forall_mem_cons, List.forall_mem_append] at h
    exact ih h.2.1

/-- A line that has a value was read without a fault, and is exact unless a
token of it may round. -/
theorem Expr.isExact_ofTokens {ctx : Context} {env : Environment} {tokens : List Token}
    {stop : Nat} {x : Decimal} (h : (Expr.ofTokens tokens stop).eval ctx env = .ok x)
    (htokens : ∀ token ∈ tokens, ¬ token.MayRound) : (Expr.ofTokens tokens stop).IsExact := by
  obtain ⟨d, rfl⟩ := exists_phrase_of_ofTokens (Expr.isFaultless_of_eval h)
  rw [d.ofTokens_tokens]
  exact d.isExact_toExpr htokens

/-! ## Lines that have a value -/

/-- **A line has a value** where its expression has an exact one within the
limits. -/
theorem Session.exists_evaluateQuietly (s : Session) (hs : s.environment.IsFinite)
    {line : String} {tokens : List Token} (htokens : tokenize line.toList = .ok tokens) {q : ℚ}
    (hq : (Expr.ofTokens tokens line.toList.length).exact s.environment = some q)
    (hheld : (Expr.ofTokens tokens line.toList.length).IsHeld s.environment)
    (hfits : ∀ part ∈ (Expr.ofTokens tokens line.toList.length).parts, part.Fits s.environment) :
    ∃ y, s.evaluateQuietly (some line) = .ok (.finite y, { s with answer := .finite y })
      ∧ y.toRat = q := by
  obtain ⟨y, hy, hvalue⟩ := Expr.exists_eval hs hheld hfits hq
  refine ⟨y, ?_, hvalue⟩
  have hblank : Unicode.isBlankText line.toList = false := by
    by_contra hblank
    rw [Bool.not_eq_false] at hblank
    obtain rfl := Except.ok.inj (htokens.symm.trans (tokensFrom_of_isBlankText hblank 0 .start))
    -- what has a value is a phrase, and a sum has at least one token
    obtain ⟨d, hd⟩ := exists_phrase_of_ofTokens (Expr.isFaultless_of_eval hy)
    exact d.tokens_ne_nil nofun nofun hd
  rw [evaluateQuietly, compute, evaluateLine, hblank, htokens]
  show Except.map _ (((Expr.ofTokens tokens line.toList.length).eval s.context
    s.environment).mapError Failure.toFault) = _
  rw [hy]
  rfl

/-! ## Values without rounding -/

/-- **A line without division, power or root is never rounded**: either it
fails, or its value and the value of each of its parts are the exact ones. This
holds for sessions of any precision whose variables and last answer are numbers,
as long as the context of exact arithmetic holds the intermediate results. -/
theorem Session.evaluateQuietly_exact (s : Session) (hs : s.environment.IsFinite)
    (line : String)
    (hline : ∀ tokens, tokenize line.toList = .ok tokens →
      (∀ token ∈ tokens, ¬ token.MayRound)
        ∧ (Expr.ofTokens tokens line.toList.length).IsHeld s.environment) :
    (∃ fault, s.evaluateQuietly (some line) = .error fault)
      ∨ ∃ tokens y, tokenize line.toList = .ok tokens
        ∧ s.evaluateQuietly (some line) = .ok (.finite y, { s with answer := .finite y })
        ∧ (Expr.ofTokens tokens line.toList.length).exact s.environment = some y.toRat
        ∧ ∀ part ∈ (Expr.ofTokens tokens line.toList.length).parts,
          part.IsComputed s.context s.environment := by
  cases h : s.evaluateQuietly (some line) with
  | error fault => exact .inl ⟨fault, rfl⟩
  | ok result =>
    right
    obtain ⟨x, hx, rfl⟩ := exists_of_map_eq_ok h
    rw [compute, evaluateLine] at hx
    split at hx
    · cases hx
    · obtain ⟨tokens, htokens, heval⟩ := exists_of_bind_eq_ok hx
      have heval := of_mapError_eq_ok heval
      obtain ⟨hround, hheld⟩ := hline tokens htokens
      have hparts := Expr.isComputed_parts hs (Expr.isExact_ofTokens heval hround) hheld heval
      obtain ⟨y, hy, hexact⟩ := (hparts _ (Expr.mem_parts _)).exists_number
      obtain rfl := Except.ok.inj (heval.symm.trans hy)
      exact ⟨tokens, y, htokens, rfl, hexact, hparts⟩

/-- Seven, taken modulo two and a half, leaves exactly two. -/
theorem Session.evaluateQuietly_remainder :
    ∃ y s, (Session.empty (.working 50)).evaluateQuietly (some "7%2.5") = .ok (.finite y, s)
      ∧ y.toRat = 2 := by
  set left : Expr := .number ⟨['7'], none⟩
  set right : Expr := .number ⟨['2'], some ['5']⟩
  set e : Expr := .binary .remainder 1 left right with he
  have htokenize : tokenize "7%2.5".toList = .ok
      [⟨.number ⟨['7'], none⟩, ['7'], 0⟩, ⟨.operator .remainder, ['%'], 1⟩,
        ⟨.number ⟨['2'], some ['5']⟩, ['2', '.', '5'], 2⟩] := by cbv
  have hread : Expr.ofTokens
      [⟨.number ⟨['7'], none⟩, ['7'], 0⟩, ⟨.operator .remainder, ['%'], 1⟩,
        ⟨.number ⟨['2'], some ['5']⟩, ['2', '.', '5'], 2⟩] "7%2.5".toList.length = e := by cbv
  have hseven : (⟨false, 7, 0⟩ : Scaled).toRat = 7 := by norm_num [Scaled.toRat, Scaled.sign]
  have hdivisor : (⟨false, 25, -1⟩ : Scaled).toRat = 5 / 2 := by
    norm_num [Scaled.toRat, Scaled.sign]
  have hleft (env : Environment) : left.exact env = some 7 := congrArg some (by
    rw [← hseven]
    exact congrArg Scaled.toRat (by cbv))
  have hright (env : Environment) : right.exact env = some (5 / 2) := congrArg some (by
    rw [← hdivisor]
    exact congrArg Scaled.toRat (by cbv))
  have hquotient : truncated (7 / (5 / 2)) = 2 := by
    norm_num [truncated, Int.floor_eq_iff]
  have hexact (env : Environment) : e.exact env = some 2 := by
    rw [he, Expr.exact, hleft, hright]
    show Operator.exact .remainder 7 (5 / 2) = some 2
    rw [Operator.exact, if_neg (by norm_num), hquotient]
    norm_num
  have hheld (env : Environment) : e.IsHeld env := by
    have hholds {q : ℚ} (n k : ℤ) (hq : q = n * 10 ^ k) (hn : |n| < 10 ^ 2) (hk : -1 ≤ k) :
        Context.exact.Holds q :=
      ⟨n, k, hn.trans_le (pow_le_pow_right₀ (by norm_num) (by decide)),
        le_trans (by decide) hk, hq⟩
    rw [Expr.IsHeld, he, Expr.parts, List.forall_mem_cons, List.forall_mem_append,
      Expr.parts, List.forall_mem_singleton, Expr.parts, List.forall_mem_singleton]
    refine ⟨fun q hq => ?_, fun q hq => ?_, fun q hq => ?_⟩
    · obtain rfl := Option.some.inj (hq.symm.trans (hexact env))
      exact hholds 2 0 (by norm_num) (by decide) (by decide)
    · obtain rfl := Option.some.inj (hq.symm.trans (hleft env))
      exact hholds 7 0 (by norm_num) (by decide) (by decide)
    · obtain rfl := Option.some.inj (hq.symm.trans (hright env))
      exact hholds 25 (-1) (by norm_num) (by decide) (by decide)
  have hfits (env : Environment) : ∀ part ∈ e.parts, part.Fits env := by
    rw [he, Expr.parts, List.forall_mem_cons, List.forall_mem_append,
      Expr.parts, List.forall_mem_singleton, Expr.parts, List.forall_mem_singleton]
    refine ⟨fun a b ha hb => ?_, trivial, trivial⟩
    obtain rfl := Option.some.inj (ha.symm.trans (hleft env))
    obtain rfl := Option.some.inj (hb.symm.trans (hright env))
    refine ⟨fun q hq => ?_, fun _ => ?_⟩
    · obtain rfl : q = 2 := by
        rw [Operator.exact, if_neg (by norm_num), hquotient] at hq
        linarith [Option.some.inj hq]
      exact (by norm_num : |(2 : ℚ)| < 10).trans_le (le_self_pow₀ (by norm_num) (by decide))
    · rw [hquotient]
      exact (by norm_num : |(2 : ℤ)| < 10).trans_le (le_self_pow₀ (by norm_num) (by decide))
  have hfinite : (Session.empty (.working 50)).environment.IsFinite :=
    ⟨.finite _, fun _ _ hlookup => absurd hlookup.symm (Option.some_ne_none _)⟩
  obtain ⟨fault, hfault⟩ | ⟨tokens, y, htokens, hy, hvalue, -⟩ :=
    Session.evaluateQuietly_exact (Session.empty (.working 50)) hfinite "7%2.5" (by
      intro tokens htokens
      obtain rfl := Except.ok.inj (htokenize.symm.trans htokens)
      rw [hread]
      refine ⟨?_, hheld _⟩
      simp [Token.MayRound])
  · obtain ⟨y, hy, -⟩ := Session.exists_evaluateQuietly (Session.empty (.working 50)) hfinite
      htokenize (hread ▸ hexact _) (hread ▸ hheld _) (hread ▸ hfits _)
    cases hfault.symm.trans hy
  · obtain rfl := Except.ok.inj (htokenize.symm.trans htokens)
    rw [hread, hexact] at hvalue
    exact ⟨y, _, hy, (Option.some.inj hvalue).symm⟩

end Reckoner
