import Mathlib.Data.Set.Subsingleton
import Reckoner.Proofs.Grammar.Course
import Reckoner.Proofs.Outcome

/-!
# Reading follows the grammar

`Expr.ofTokens` never fails: where the line is wrong it leaves a node for the
fault in the tree. This module relates it to the grammar of
`Reckoner.Proofs.Grammar.Phrase` in both directions.

* Every phrase is read (`Phrase.reads`): the rule of its category gives back
  `Phrase.toExpr` and exactly the tokens behind the phrase. The induction is on
  the phrase, and what is behind it must be something that its category stops
  at.
* What is read without a fault is a phrase (`Course.exists_phrase`). The induction
  is on the course of the reading.

`Phrase.eval_toExpr` adds that the tree has the value the phrase means, and
`Expr.eval_ofTokens_eq_ok_iff` puts the three together: a line has a value
exactly if the grammar derives it and the derivation has that value.
-/

namespace Reckoner

variable {stop : Nat} {ts rest : List Token}

/-! ## Every phrase is read -/

/-- **The expression of a phrase.** Parentheses and plus signs leave no trace
in it. -/
def Phrase.toExpr : {c : Category} → Phrase c → c.Tree
  | _, .sum first tail => tail.toExpr first.toExpr
  | _, .sumEnd => fun left => left
  | _, .sumStep token op _ _ term tail => fun left =>
    tail.toExpr (.binary op token.position left term.toExpr)
  | _, .product first tail => tail.toExpr first.toExpr
  | _, .productEnd => fun left => left
  | _, .productStep token op _ _ factor tail => fun left =>
    tail.toExpr (.binary op token.position left factor.toExpr)
  | _, .plain base => base.toExpr
  | _, .raised base token _ exponent =>
    .binary .power token.position base.toExpr exponent.toExpr
  | _, .minus _ _ rest => .negate rest.toExpr
  | _, .plus _ _ rest => rest.toExpr
  | _, .unsigned operand => operand.toExpr
  | _, .bare atom => atom.toExpr
  | _, .inUnit atom token u _ => .inUnit u token.position atom.toExpr
  | _, .number _ numeral _ => .number numeral
  | _, .answer _ _ => .answer
  | _, .named token name _ => .variable name token.position
  | _, .call token f _ _ _ argument _ _ => .call f token.position argument.toExpr
  | _, .group _ _ inner _ _ => inner.toExpr

/-- The rule of a category reads a tree off `ts` and leaves `rest`. -/
def Category.Reads (stop : Nat) : (c : Category) → List Token → c.Tree → List Token → Prop
  | .sum, ts, e, rest => (readSum stop ts).result = (e, rest)
  | .sumTail, ts, e, rest => ∀ left, (readSumTail stop left ts).result = (e left, rest)
  | .product, ts, e, rest => (readProduct stop ts).result = (e, rest)
  | .productTail, ts, e, rest => ∀ left, (readProductTail stop left ts).result = (e left, rest)
  | .power, ts, e, rest => (readPower stop ts).result = (e, rest)
  | .signed, ts, e, rest => (readSigned stop ts).result = (e, rest)
  | .operand, ts, e, rest => (readOperand stop ts).result = (e, rest)
  | .atom, ts, e, rest => (readAtom stop ts).result = (e, rest)

/-- A phrase has a token, unless it is a tail. -/
theorem Phrase.tokens_ne_nil {c : Category} (d : Phrase c) (hs : c ≠ .sumTail)
    (hp : c ≠ .productTail) : d.tokens ≠ [] := by
  induction d <;> simp_all [tokens]

/-- **Every phrase is read**: its rule gives its expression, up to a place
where the category stops. -/
theorem Phrase.reads {c : Category} (d : Phrase c) {rest : List Token} (h : c.Stops rest) :
    c.Reads stop (d.tokens ++ rest) d.toExpr rest := by
  induction d generalizing rest with
  | sum first tail ihFirst ihTail =>
    show (readSum stop _).result = _
    have hfirst := ihFirst (tail.stops_sumTail h)
    rw [tokens, List.append_assoc, readSum_result hfirst]
    exact ihTail (h.mono (by decide)) _
  | sumEnd => exact fun left => readSumTail_end (Category.stops_sumTail_iff.mp h).2
  | sumStep token op lexeme_eq additive term tail ihTerm ihTail =>
    intro left
    have hterm := ihTerm (tail.stops_sumTail (h.mono (by decide)))
    -- the reader asks whether anything is left behind the operator
    have hne : term.tokens ++ (tail.tokens ++ rest) ≠ [] :=
      List.append_ne_nil_of_left_ne_nil (term.tokens_ne_nil (by decide) (by decide)) _
    rw [tokens, List.cons_append, List.append_assoc,
      readSumTail_step lexeme_eq additive hne hterm]
    exact ihTail h _
  | product first tail ihFirst ihTail =>
    show (readProduct stop _).result = _
    have hfirst := ihFirst (tail.stops_productTail h)
    rw [tokens, List.append_assoc, readProduct_result hfirst]
    exact ihTail (h.mono (by decide)) _
  | productEnd => exact fun left => readProductTail_end (Category.stops_productTail_iff.mp h).2
  | productStep token op lexeme_eq multiplicative factor tail ihFactor ihTail =>
    intro left
    have hfactor := ihFactor (tail.stops_productTail (h.mono (by decide)))
    have hne : factor.tokens ++ (tail.tokens ++ rest) ≠ [] :=
      List.append_ne_nil_of_left_ne_nil (factor.tokens_ne_nil (by decide) (by decide)) _
    rw [tokens, List.cons_append, List.append_assoc,
      readProductTail_step lexeme_eq multiplicative hne hfactor]
    exact ihTail h _
  | plain base ih =>
    obtain ⟨hsigned, hpower⟩ := Category.stops_power_iff.mp h
    exact readPower_plain (ih hsigned) hpower
  | raised base token lexeme_eq exponent ihBase ihExponent =>
    have hbase := ihBase (Category.stops_power_sign lexeme_eq (exponent.tokens ++ rest))
    have hexponent := ihExponent h
    have hne : exponent.tokens ++ rest ≠ [] :=
      List.append_ne_nil_of_left_ne_nil (exponent.tokens_ne_nil (by decide) (by decide)) _
    show (readPower stop _).result = _
    rw [tokens, List.append_assoc, List.cons_append]
    exact readPower_raised hbase lexeme_eq hne hexponent
  | minus token lexeme_eq operand ih =>
    have hoperand := ih h
    show (readSigned stop _).result = _
    rw [tokens, List.cons_append]
    exact readSigned_minus lexeme_eq hoperand
  | plus token lexeme_eq operand ih =>
    show (readSigned stop _).result = _
    rw [tokens, List.cons_append, readSigned_plus lexeme_eq]
    exact ih h
  | unsigned operand ih =>
    have hoperand : (readOperand stop (operand.tokens ++ rest)).result = _ :=
      ih (h.mono (by decide))
    -- the first token is no operator, so it is not read as a sign
    obtain ⟨token, more, heq, hop⟩ := operand.exists_head_operand
    show (readSigned stop (operand.tokens ++ rest)).result = _
    rw [heq, List.cons_append] at hoperand ⊢
    rw [readSigned_unsigned (by simp [hop])]
    exact hoperand
  | bare atom ih =>
    exact readOperand_bare (ih (Category.stops_atom _)) (Category.stops_operand_iff.mp h)
  | inUnit atom token u lexeme_eq ih =>
    have hatom := ih (Category.stops_atom (token :: rest))
    show (readOperand stop _).result = _
    rw [tokens, List.append_assoc]
    exact readOperand_inUnit hatom lexeme_eq
  | number token numeral lexeme_eq => exact readAtom_number lexeme_eq
  | answer token lexeme_eq => exact readAtom_answer lexeme_eq
  | named token name lexeme_eq => exact readAtom_named lexeme_eq
  | call token f lexeme_eq opening opens argument closing closes ih =>
    have hargument := ih (Category.stops_closing closes rest)
    show (readAtom stop _).result = _
    rw [tokens, List.cons_append, List.cons_append, List.append_assoc]
    exact readAtom_call lexeme_eq opens hargument closes
  | group opening opens inner closing closes ih =>
    have hinner := ih (Category.stops_closing closes rest)
    show (readAtom stop _).result = _
    rw [tokens, List.cons_append, List.append_assoc]
    exact readAtom_group opens hinner closes

/-- **Every course is that of the reader**, so tokens are read in one way only. -/
theorem Course.reads {c : Category} {e : c.Tree} (h : Course stop c ts e rest) :
    c.Reads stop ts e rest := by
  induction h with
  | sum _ _ ihFirst ihTail => exact (readSum_result ihFirst).trans (ihTail _)
  | sumEnd not_additive => exact fun left => readSumTail_end not_additive
  | sumUnfinished lexeme_eq additive =>
    exact fun left => readSumTail_unfinished lexeme_eq additive
  | sumStep lexeme_eq additive ne_nil _ _ ihTerm ihTail =>
    exact fun left => (readSumTail_step lexeme_eq additive ne_nil ihTerm).trans (ihTail _)
  | product _ _ ihFirst ihTail => exact (readProduct_result ihFirst).trans (ihTail _)
  | productEnd not_multiplicative => exact fun left => readProductTail_end not_multiplicative
  | productUnfinished lexeme_eq multiplicative =>
    exact fun left => readProductTail_unfinished lexeme_eq multiplicative
  | productStep lexeme_eq multiplicative ne_nil _ _ ihFactor ihTail =>
    exact fun left =>
      (readProductTail_step lexeme_eq multiplicative ne_nil ihFactor).trans (ihTail _)
  | plain _ not_power ih => exact readPower_plain ih not_power
  | powerUnfinished _ lexeme_eq ih => exact readPower_unfinished ih lexeme_eq
  | raised _ lexeme_eq ne_nil _ ihBase ihExponent =>
    exact readPower_raised ihBase lexeme_eq ne_nil ihExponent
  | minus lexeme_eq _ ih => exact readSigned_minus lexeme_eq ih
  | plus lexeme_eq _ ih => exact (readSigned_plus lexeme_eq).trans ih
  | unsigned not_sign _ ih => exact (readSigned_unsigned not_sign).trans ih
  | bare _ not_unit ih => exact readOperand_bare ih not_unit
  | inUnit _ lexeme_eq ih => exact readOperand_inUnit ih lexeme_eq
  | number lexeme_eq => exact readAtom_number lexeme_eq
  | answer lexeme_eq => exact readAtom_answer lexeme_eq
  | named lexeme_eq => exact readAtom_named lexeme_eq
  | call lexeme_eq opens _ closes ih => exact readAtom_call lexeme_eq opens ih closes
  | callUnclosed lexeme_eq opens _ not_closing ih =>
    exact readAtom_callUnclosed lexeme_eq opens ih not_closing
  | unopened lexeme_eq not_opening => exact readAtom_unopened lexeme_eq not_opening
  | group opens _ closes ih => exact readAtom_group opens ih closes
  | groupUnclosed opens _ not_closing ih => exact readAtom_groupUnclosed opens ih not_closing
  | ended => exact readAtom_ended
  | unexpected not_starts => exact readAtom_unexpected not_starts

/-! ## The value of an expression is the meaning of its phrase -/

/-- The expression `e` has the value that the meaning `m` gives, for a tail
from the value of whatever stands on its left. -/
def Category.Denotes (ctx : Context) (env : Environment) :
    (c : Category) → c.Tree → c.Meaning → Prop
  | .sumTail, e, m | .productTail, e, m =>
    ∀ left, (e left).eval ctx env = left.eval ctx env >>= m
  | .sum, e, m | .product, e, m | .power, e, m | .signed, e, m | .operand, e, m
  | .atom, e, m => Expr.eval ctx env e = m

/-- **The expression of a phrase has the value the phrase means.** -/
theorem Phrase.eval_toExpr (ctx : Context) (env : Environment) {c : Category} (d : Phrase c) :
    c.Denotes ctx env d.toExpr (d.eval ctx env) := by
  induction d with
  | sum first tail ihFirst ihTail =>
    have hfirst : first.toExpr.eval ctx env = first.eval ctx env := ihFirst
    show (tail.toExpr first.toExpr).eval ctx env = _
    rw [ihTail first.toExpr, hfirst]
    rfl
  | sumEnd => exact fun left => (bind_pure (left.eval ctx env)).symm
  | sumStep token op lexeme_eq additive term tail ihTerm ihTail =>
    intro left
    have hterm : term.toExpr.eval ctx env = term.eval ctx env := ihTerm
    show (tail.toExpr (.binary op token.position left term.toExpr)).eval ctx env = _
    rw [ihTail, Expr.eval, hterm]
    simp only [bind_assoc]
    rfl
  | product first tail ihFirst ihTail =>
    have hfirst : first.toExpr.eval ctx env = first.eval ctx env := ihFirst
    show (tail.toExpr first.toExpr).eval ctx env = _
    rw [ihTail first.toExpr, hfirst]
    rfl
  | productEnd => exact fun left => (bind_pure (left.eval ctx env)).symm
  | productStep token op lexeme_eq multiplicative factor tail ihFactor ihTail =>
    intro left
    have hfactor : factor.toExpr.eval ctx env = factor.eval ctx env := ihFactor
    show (tail.toExpr (.binary op token.position left factor.toExpr)).eval ctx env = _
    rw [ihTail, Expr.eval, hfactor]
    simp only [bind_assoc]
    rfl
  | plain base ih => exact ih
  | raised base token lexeme_eq exponent ihBase ihExponent =>
    have hbase : base.toExpr.eval ctx env = base.eval ctx env := ihBase
    have hexponent : exponent.toExpr.eval ctx env = exponent.eval ctx env := ihExponent
    show (Expr.binary .power token.position base.toExpr exponent.toExpr).eval ctx env = _
    rw [Expr.eval, hbase, hexponent]
    rfl
  | minus token lexeme_eq operand ih =>
    have hoperand : operand.toExpr.eval ctx env = operand.eval ctx env := ih
    show (Expr.negate operand.toExpr).eval ctx env = _
    rw [Expr.eval, hoperand]
    rfl
  | plus token lexeme_eq operand ih => exact ih
  | unsigned operand ih => exact ih
  | bare atom ih => exact ih
  | inUnit atom token u lexeme_eq ih =>
    have hatom : atom.toExpr.eval ctx env = atom.eval ctx env := ih
    show (Expr.inUnit u token.position atom.toExpr).eval ctx env = _
    rw [Expr.eval, hatom]
    rfl
  | number token numeral lexeme_eq => rfl
  | answer token lexeme_eq => rfl
  | named token name lexeme_eq => rfl
  | call token f lexeme_eq opening opens argument closing closes ih =>
    have hargument : argument.toExpr.eval ctx env = argument.eval ctx env := ih
    show (Expr.call f token.position argument.toExpr).eval ctx env = _
    rw [Expr.eval, hargument]
    rfl
  | group opening opens inner closing closes ih => exact ih

/-! ## What is read without a fault is a phrase -/

/-- **Nothing is wrong with the line** an expression was read from: it has no
node for a fault in the grammar. -/
def Expr.IsFaultless : Expr → Prop
  | .number _ | .answer | .variable _ _ => True
  | .negate operand => operand.IsFaultless
  | .binary _ _ left right => left.IsFaultless ∧ right.IsFaultless
  | .inUnit _ _ operand => operand.IsFaultless
  | .call _ _ argument => argument.IsFaultless
  | .missing _ _ => False
  | .thenStray _ _ _ => False

/-- An expression with a value has no node for a fault. -/
theorem Expr.isFaultless_of_eval {ctx : Context} {env : Environment} {e : Expr} {x : Decimal}
    (h : e.eval ctx env = .ok x) : e.IsFaultless := by
  induction e generalizing x with
  | number numeral => trivial
  | answer => trivial
  | «variable» name position => trivial
  | negate operand ih =>
    obtain ⟨y, hy, -⟩ := exists_of_map_eq_ok h
    exact ih hy
  | binary op position left right ihLeft ihRight =>
    obtain ⟨y, hy, h⟩ := exists_of_bind_eq_ok h
    obtain ⟨z, hz, -⟩ := exists_of_bind_eq_ok h
    exact ⟨ihLeft hy, ihRight hz⟩
  | inUnit u position operand ih =>
    obtain ⟨y, hy, -⟩ := exists_of_bind_eq_ok h
    exact ih hy
  | call f position argument ih =>
    obtain ⟨y, hy, -⟩ := exists_of_bind_eq_ok h
    exact ih hy
  | missing cause position => cases h
  | thenStray operand cause position ih =>
    obtain ⟨y, -, h⟩ := exists_of_bind_eq_ok h
    cases h

/-- **A statement about what was read without a fault**: where the tree has a fault
there is nothing to show, and the left of a tail is a part of its tree. -/
def Category.IfFaultless (P : Prop) : (c : Category) → c.Tree → Prop
  | .sumTail, e | .productTail, e => ∀ left, (e left).IsFaultless → left.IsFaultless ∧ P
  | .sum, e | .product, e | .power, e | .signed, e | .operand, e | .atom, e => e.IsFaultless → P

/-- **What is read without a fault is a phrase.** -/
theorem Course.exists_phrase {c : Category} {e : c.Tree} (h : Course stop c ts e rest) :
    c.IfFaultless (∃ d : Phrase c, ts = d.tokens ++ rest) e := by
  induction h with
  | sum _ _ ihFirst ihTail =>
    intro hfaultless
    obtain ⟨hfirst, tail, rfl⟩ := ihTail _ hfaultless
    obtain ⟨first, rfl⟩ := ihFirst hfirst
    exact ⟨.sum first tail, by rw [Phrase.tokens, List.append_assoc]⟩
  | sumEnd => exact fun left hleft => ⟨hleft, .sumEnd, rfl⟩
  -- the right operand of an operator at the end is the fault
  | sumUnfinished => exact fun left hfaultless => absurd hfaultless.2 id
  | sumStep lexeme_eq additive _ _ _ ihTerm ihTail =>
    intro left hfaultless
    obtain ⟨⟨hleft, hterm⟩, tail, rfl⟩ := ihTail _ hfaultless
    obtain ⟨term, rfl⟩ := ihTerm hterm
    exact ⟨hleft, .sumStep _ _ lexeme_eq additive term tail, by
      rw [Phrase.tokens, List.cons_append, List.append_assoc]⟩
  | product _ _ ihFirst ihTail =>
    intro hfaultless
    obtain ⟨hfirst, tail, rfl⟩ := ihTail _ hfaultless
    obtain ⟨first, rfl⟩ := ihFirst hfirst
    exact ⟨.product first tail, by rw [Phrase.tokens, List.append_assoc]⟩
  | productEnd => exact fun left hleft => ⟨hleft, .productEnd, rfl⟩
  | productUnfinished => exact fun left hfaultless => absurd hfaultless.2 id
  | productStep lexeme_eq multiplicative _ _ _ ihFactor ihTail =>
    intro left hfaultless
    obtain ⟨⟨hleft, hfactor⟩, tail, rfl⟩ := ihTail _ hfaultless
    obtain ⟨factor, rfl⟩ := ihFactor hfactor
    exact ⟨hleft, .productStep _ _ lexeme_eq multiplicative factor tail, by
      rw [Phrase.tokens, List.cons_append, List.append_assoc]⟩
  | plain _ _ ih =>
    intro hfaultless
    obtain ⟨base, rfl⟩ := ih hfaultless
    exact ⟨.plain base, rfl⟩
  | powerUnfinished => exact fun hfaultless => absurd hfaultless.2 id
  | raised _ lexeme_eq _ _ ihBase ihExponent =>
    rintro ⟨hbase, hexponent⟩
    obtain ⟨exponent, rfl⟩ := ihExponent hexponent
    obtain ⟨base, rfl⟩ := ihBase hbase
    exact ⟨.raised base _ lexeme_eq exponent, by
      rw [Phrase.tokens, List.append_assoc, List.cons_append]⟩
  | minus lexeme_eq _ ih =>
    intro hfaultless
    obtain ⟨operand, rfl⟩ := ih hfaultless
    exact ⟨.minus _ lexeme_eq operand, rfl⟩
  | plus lexeme_eq _ ih =>
    intro hfaultless
    obtain ⟨operand, rfl⟩ := ih hfaultless
    exact ⟨.plus _ lexeme_eq operand, rfl⟩
  | unsigned _ _ ih =>
    intro hfaultless
    obtain ⟨operand, rfl⟩ := ih hfaultless
    exact ⟨.unsigned operand, rfl⟩
  | bare _ _ ih =>
    intro hfaultless
    obtain ⟨atom, rfl⟩ := ih hfaultless
    exact ⟨.bare atom, rfl⟩
  | inUnit _ lexeme_eq ih =>
    intro hfaultless
    obtain ⟨atom, rfl⟩ := ih hfaultless
    exact ⟨.inUnit atom _ _ lexeme_eq, by rw [Phrase.tokens, List.append_assoc]; rfl⟩
  | number lexeme_eq => exact fun _ => ⟨.number _ _ lexeme_eq, rfl⟩
  | answer lexeme_eq => exact fun _ => ⟨.answer _ lexeme_eq, rfl⟩
  | named lexeme_eq => exact fun _ => ⟨.named _ _ lexeme_eq, rfl⟩
  | call lexeme_eq opens _ closes ih =>
    intro hfaultless
    obtain ⟨argument, rfl⟩ := ih hfaultless
    exact ⟨.call _ _ lexeme_eq _ opens argument _ closes, by simp [Phrase.tokens]⟩
  | group opens _ closes ih =>
    intro hfaultless
    obtain ⟨inner, rfl⟩ := ih hfaultless
    exact ⟨.group _ opens inner _ closes, by simp [Phrase.tokens]⟩
  | callUnclosed => exact False.elim
  | unopened => exact False.elim
  | groupUnclosed => exact False.elim
  | ended => exact False.elim
  | unexpected => exact False.elim

/-! ## Lines -/

/-- The tokens of a sum are read as its expression. -/
theorem Phrase.ofTokens_tokens (d : Phrase .sum) (stop : Nat) :
    Expr.ofTokens d.tokens stop = d.toExpr := by
  have hd : (readSum stop (d.tokens ++ [])).result = (d.toExpr, []) :=
    d.reads (Category.stops_nil _)
  rw [List.append_nil] at hd
  exact ofTokens_complete hd

/-- Tokens that are read without a fault are those of a sum. -/
theorem exists_phrase_of_ofTokens {tokens : List Token} {stop : Nat}
    (h : (Expr.ofTokens tokens stop).IsFaultless) : ∃ d : Phrase .sum, d.tokens = tokens := by
  obtain ⟨e, rest, hcourse, hread⟩ := exists_course_readSum stop tokens
  cases rest with
  | nil =>
    rw [ofTokens_complete hread] at h
    obtain ⟨d, hd⟩ := hcourse.exists_phrase h
    exact ⟨d, (hd.trans (List.append_nil d.tokens)).symm⟩
  | cons token rest =>
    rw [ofTokens_stray hread] at h
    exact absurd h id

/-- **A line has a value exactly if the grammar derives it** and the phrase it
is derived by has that value. There is at most one such phrase, and in every
other case the line fails. -/
theorem Expr.eval_ofTokens_eq_ok_iff (ctx : Context) (env : Environment) (tokens : List Token)
    (stop : Nat) :
    (∀ x, (Expr.ofTokens tokens stop).eval ctx env = .ok x
        ↔ ∃ d : Phrase .sum, d.tokens = tokens ∧ d.eval ctx env = .ok x)
      ∧ Set.Subsingleton {d : Phrase .sum | d.tokens = tokens}
      ∧ ((∃ failure, (Expr.ofTokens tokens stop).eval ctx env = .error failure)
        ↔ ¬ ∃ (d : Phrase .sum) (x : Decimal), d.tokens = tokens ∧ d.eval ctx env = .ok x) := by
  have hiff : ∀ x, (Expr.ofTokens tokens stop).eval ctx env = .ok x
      ↔ ∃ d : Phrase .sum, d.tokens = tokens ∧ d.eval ctx env = .ok x := by
    intro x
    constructor
    · intro h
      obtain ⟨d, rfl⟩ := exists_phrase_of_ofTokens (Expr.isFaultless_of_eval h)
      rw [d.ofTokens_tokens] at h
      exact ⟨d, rfl, (d.eval_toExpr ctx env).symm.trans h⟩
    · rintro ⟨d, rfl, h⟩
      rw [d.ofTokens_tokens]
      exact (d.eval_toExpr ctx env).trans h
  refine ⟨hiff, fun d hd d' hd' => Phrase.eq_of_tokens_eq (Eq.trans hd hd'.symm), ?_⟩
  constructor
  · rintro ⟨failure, hfail⟩ ⟨d, x, hd⟩
    rw [(hiff x).mpr ⟨d, hd⟩] at hfail
    cases hfail
  · intro hnone
    cases hval : (Expr.ofTokens tokens stop).eval ctx env with
    | error failure => exact ⟨failure, rfl⟩
    | ok x =>
      obtain ⟨d, hd⟩ := (hiff x).mp hval
      exact absurd ⟨d, x, hd⟩ hnone

/-- A sign belongs to the base of a power: in `-2^2` the two is negated before it
is raised. -/
example : Expr.ofTokens
    [⟨.operator .subtract, ['-'], 0⟩, ⟨.number ⟨['2'], none⟩, ['2'], 1⟩,
      ⟨.operator .power, ['^'], 2⟩, ⟨.number ⟨['2'], none⟩, ['2'], 3⟩] 4
    = .binary .power 2 (.negate (.number ⟨['2'], none⟩)) (.number ⟨['2'], none⟩) := by cbv

end Reckoner
