import Mathlib.Data.List.Chain
import Mathlib.Tactic.Common
import Reckoner.Proofs.Grammar.Phrase
import Reckoner.Proofs.Grammar.Steps

/-!
# The course of a reading

`Phrase` derives the lines that are well formed. The reader takes any tokens
whatever, and `Course` says how: it has one constructor for each way in which a
rule can go on, those where it comes upon a fault included, with the tokens the
rule was given, the tree, and the tokens it leaves. A tail has a tree that depends
on what stands to the left of it, as in `Category.Tree`.

The recursion of the reader is followed once, for `exists_course_readSum` and its
companions. Whatever is said about all that is read is then an induction on the
course, with a case for each constructor: here that the rest is what is left over
(`Course.suffix`) and cannot go on with what was read (`Course.stops`), in
`Reckoner.Proofs.Grammar.Reading` that a tree without a fault is that of a phrase,
in `Reckoner.Proofs.Grammar.Origin` what the tree is made of, and in
`Reckoner.Proofs.Grammar.Blame` where its faults are found.
-/

namespace Reckoner

/-- **How a rule reads tokens** up to the end of the line at `stop`: the tokens it
is given, its tree, and the tokens it leaves. -/
inductive Course (stop : ℕ) : (c : Category) → List Token → c.Tree → List Token → Prop
  /-- A product and what is added to it. -/
  | sum {ts mid rest : List Token} {first : Expr} {tail : Expr → Expr}
      (first_course : Course stop .product ts first mid)
      (tail_course : Course stop .sumTail mid tail rest) : Course stop .sum ts (tail first) rest
  /-- Nothing more is added. -/
  | sumEnd {ts : List Token}
      (not_additive : ∀ token ∈ ts.head?, ∀ op, token.lexeme = .operator op →
        op.isAdditive = false) :
      Course stop .sumTail ts (fun left => left) ts
  /-- The line ends behind an additive operator. -/
  | sumUnfinished {token : Token} {op : Operator} (lexeme_eq : token.lexeme = .operator op)
      (additive : op.isAdditive = true) :
      Course stop .sumTail [token] (unfinished op token.position) []
  /-- One more product is added or subtracted. -/
  | sumStep {token : Token} {op : Operator} {ts mid rest : List Token} {term : Expr}
      {tail : Expr → Expr} (lexeme_eq : token.lexeme = .operator op)
      (additive : op.isAdditive = true) (ne_nil : ts ≠ [])
      (term_course : Course stop .product ts term mid)
      (tail_course : Course stop .sumTail mid tail rest) :
      Course stop .sumTail (token :: ts)
        (fun left => tail (.binary op token.position left term)) rest
  /-- A power and what it is multiplied with. -/
  | product {ts mid rest : List Token} {first : Expr} {tail : Expr → Expr}
      (first_course : Course stop .power ts first mid)
      (tail_course : Course stop .productTail mid tail rest) :
      Course stop .product ts (tail first) rest
  /-- No factor more. -/
  | productEnd {ts : List Token}
      (not_multiplicative : ∀ token ∈ ts.head?, ∀ op, token.lexeme = .operator op →
        op.isMultiplicative = false) :
      Course stop .productTail ts (fun left => left) ts
  /-- The line ends behind a multiplicative operator. -/
  | productUnfinished {token : Token} {op : Operator} (lexeme_eq : token.lexeme = .operator op)
      (multiplicative : op.isMultiplicative = true) :
      Course stop .productTail [token] (unfinished op token.position) []
  /-- One more factor, divisor or modulus. -/
  | productStep {token : Token} {op : Operator} {ts mid rest : List Token} {factor : Expr}
      {tail : Expr → Expr} (lexeme_eq : token.lexeme = .operator op)
      (multiplicative : op.isMultiplicative = true) (ne_nil : ts ≠ [])
      (factor_course : Course stop .power ts factor mid)
      (tail_course : Course stop .productTail mid tail rest) :
      Course stop .productTail (token :: ts)
        (fun left => tail (.binary op token.position left factor)) rest
  /-- A signed operand that is not raised. -/
  | plain {ts rest : List Token} {base : Expr} (base_course : Course stop .signed ts base rest)
      (not_power : ∀ token ∈ rest.head?, token.lexeme ≠ .operator .power) :
      Course stop .power ts base rest
  /-- The line ends behind the sign of a power. -/
  | powerUnfinished {ts : List Token} {token : Token} {base : Expr}
      (base_course : Course stop .signed ts base [token])
      (lexeme_eq : token.lexeme = .operator .power) :
      Course stop .power ts (unfinished .power token.position base) []
  /-- A signed operand raised to a power. -/
  | raised {ts more rest : List Token} {token : Token} {base exponent : Expr}
      (base_course : Course stop .signed ts base (token :: more))
      (lexeme_eq : token.lexeme = .operator .power) (ne_nil : more ≠ [])
      (exponent_course : Course stop .power more exponent rest) :
      Course stop .power ts (.binary .power token.position base exponent) rest
  /-- A minus sign before a signed operand. -/
  | minus {token : Token} {ts rest : List Token} {operand : Expr}
      (lexeme_eq : token.lexeme = .operator .subtract)
      (operand_course : Course stop .signed ts operand rest) :
      Course stop .signed (token :: ts) (.negate operand) rest
  /-- A plus sign before a signed operand. -/
  | plus {token : Token} {ts rest : List Token} {operand : Expr}
      (lexeme_eq : token.lexeme = .operator .add)
      (operand_course : Course stop .signed ts operand rest) :
      Course stop .signed (token :: ts) operand rest
  /-- An operand without a sign. -/
  | unsigned {ts rest : List Token} {operand : Expr}
      (not_sign : ∀ token ∈ ts.head?,
        token.lexeme ≠ .operator .subtract ∧ token.lexeme ≠ .operator .add)
      (operand_course : Course stop .operand ts operand rest) :
      Course stop .signed ts operand rest
  /-- An atom without a unit. -/
  | bare {ts rest : List Token} {atom : Expr} (atom_course : Course stop .atom ts atom rest)
      (not_unit : ∀ token ∈ rest.head?, ∀ u, token.lexeme ≠ .unit u) :
      Course stop .operand ts atom rest
  /-- An atom and its unit. -/
  | inUnit {ts rest : List Token} {token : Token} {atom : Expr} {u : UnitSuffix}
      (atom_course : Course stop .atom ts atom (token :: rest))
      (lexeme_eq : token.lexeme = .unit u) :
      Course stop .operand ts (.inUnit u token.position atom) rest
  /-- A written number. -/
  | number {token : Token} {numeral : Numeral} (lexeme_eq : token.lexeme = .number numeral)
      (rest : List Token) : Course stop .atom (token :: rest) (.number numeral) rest
  /-- The last answer. -/
  | answer {token : Token} (lexeme_eq : token.lexeme = .answer) (rest : List Token) :
      Course stop .atom (token :: rest) .answer rest
  /-- A variable. -/
  | named {token : Token} {name : String} (lexeme_eq : token.lexeme = .variable name)
      (rest : List Token) :
      Course stop .atom (token :: rest) (.variable name token.position) rest
  /-- A function and its argument in parentheses. -/
  | call {token opening closing : Token} {f : Builtin} {inside rest : List Token}
      {argument : Expr} (lexeme_eq : token.lexeme = .function f)
      (opens : opening.lexeme = .opening)
      (argument_course : Course stop .sum inside argument (closing :: rest))
      (closes : closing.lexeme = .closing) :
      Course stop .atom (token :: opening :: inside) (.call f token.position argument) rest
  /-- The argument of a function, and then no closing parenthesis. -/
  | callUnclosed {token opening : Token} {f : Builtin} {inside rest : List Token}
      {argument : Expr} (lexeme_eq : token.lexeme = .function f)
      (opens : opening.lexeme = .opening)
      (argument_course : Course stop .sum inside argument rest)
      (not_closing : ∀ token ∈ rest.head?, token.lexeme ≠ .closing) :
      Course stop .atom (token :: opening :: inside)
        (.thenStray argument .expectedClosingParen token.position) []
  /-- A function without an opening parenthesis. -/
  | unopened {token : Token} {f : Builtin} {ts : List Token}
      (lexeme_eq : token.lexeme = .function f)
      (not_opening : ∀ next ∈ ts.head?, next.lexeme ≠ .opening) :
      Course stop .atom (token :: ts)
        (.missing (.expectedParenthesis f.text) token.position) []
  /-- A sum in parentheses. -/
  | group {opening closing : Token} {inside rest : List Token} {inner : Expr}
      (opens : opening.lexeme = .opening)
      (inner_course : Course stop .sum inside inner (closing :: rest))
      (closes : closing.lexeme = .closing) :
      Course stop .atom (opening :: inside) inner rest
  /-- A sum behind an opening parenthesis, and then no closing one. -/
  | groupUnclosed {opening : Token} {inside rest : List Token} {inner : Expr}
      (opens : opening.lexeme = .opening) (inner_course : Course stop .sum inside inner rest)
      (not_closing : ∀ token ∈ rest.head?, token.lexeme ≠ .closing) :
      Course stop .atom (opening :: inside)
        (.thenStray inner .unmatchedParenthesis opening.position) []
  /-- The line ends where an atom should stand. -/
  | ended : Course stop .atom [] (.missing .unexpectedEnd stop) []
  /-- A token that no atom starts with. -/
  | unexpected {token : Token} {ts : List Token} (not_starts : token.lexeme.startsAtom = false) :
      Course stop .atom (token :: ts)
        (.missing (.unexpectedToken token.lexeme.text) token.position) []

/-! ## The reader follows a course -/

/-- What no list begins with, no head of the list is. -/
private theorem forall_mem_head?_of_not_exists {p : Token → Prop} {ts : List Token}
    (h : ¬ ∃ token more, ts = token :: more ∧ p token) : ∀ token ∈ ts.head?, ¬ p token := by
  intro token ht hp
  obtain ⟨more, hmore⟩ := List.head?_eq_some_iff.mp ht
  exact h ⟨token, more, hmore, hp⟩

mutual

/-- **A sum is read along a course.** -/
theorem exists_course_readSum (stop : ℕ) (ts : List Token) :
    ∃ e rest, Course stop .sum ts e rest ∧ (readSum stop ts).result = (e, rest) := by
  obtain ⟨first, mid, hfirst, hread⟩ := exists_course_readProduct stop ts
  -- the measure of the reader, for the rest that the tail starts with
  have hle := Reading.length_le_of_result hread
  obtain ⟨tail, rest, htail, hreadTail⟩ := exists_course_readSumTail stop mid
  exact ⟨_, rest, .sum hfirst htail, (readSum_result hread).trans (hreadTail first)⟩
termination_by 8 * ts.length + 7

/-- **What a sum goes on with is read along a course**, whatever stands on its left. -/
theorem exists_course_readSumTail (stop : ℕ) (ts : List Token) :
    ∃ tail rest, Course stop .sumTail ts tail rest
      ∧ ∀ left, (readSumTail stop left ts).result = (tail left, rest) := by
  match ts with
  | [] => exact ⟨_, _, .sumEnd (by simp), fun left => readSumTail_end (by simp)⟩
  | token :: more =>
    by_cases hadd : ∃ op, token.lexeme = .operator op ∧ op.isAdditive = true
    · obtain ⟨op, hop, hadd⟩ := hadd
      by_cases hmore : more = []
      · subst hmore
        exact ⟨_, _, .sumUnfinished hop hadd, fun left => readSumTail_unfinished hop hadd⟩
      · obtain ⟨term, mid, hterm, hread⟩ := exists_course_readProduct stop more
        have hle := Reading.length_le_of_result hread
        obtain ⟨tail, rest, htail, hreadTail⟩ := exists_course_readSumTail stop mid
        exact ⟨_, rest, .sumStep hop hadd hmore hterm htail,
          fun left => (readSumTail_step hop hadd hmore hread).trans (hreadTail _)⟩
    · exact ⟨_, _, .sumEnd (by simpa using hadd), fun left => readSumTail_end (by simpa using hadd)⟩
termination_by 8 * ts.length + 6

/-- **A product is read along a course.** -/
theorem exists_course_readProduct (stop : ℕ) (ts : List Token) :
    ∃ e rest, Course stop .product ts e rest ∧ (readProduct stop ts).result = (e, rest) := by
  obtain ⟨first, mid, hfirst, hread⟩ := exists_course_readPower stop ts
  have hle := Reading.length_le_of_result hread
  obtain ⟨tail, rest, htail, hreadTail⟩ := exists_course_readProductTail stop mid
  exact ⟨_, rest, .product hfirst htail, (readProduct_result hread).trans (hreadTail first)⟩
termination_by 8 * ts.length + 5

/-- **What a product goes on with is read along a course**, whatever stands on its
left. -/
theorem exists_course_readProductTail (stop : ℕ) (ts : List Token) :
    ∃ tail rest, Course stop .productTail ts tail rest
      ∧ ∀ left, (readProductTail stop left ts).result = (tail left, rest) := by
  match ts with
  | [] => exact ⟨_, _, .productEnd (by simp), fun left => readProductTail_end (by simp)⟩
  | token :: more =>
    by_cases hmul : ∃ op, token.lexeme = .operator op ∧ op.isMultiplicative = true
    · obtain ⟨op, hop, hmul⟩ := hmul
      by_cases hmore : more = []
      · subst hmore
        exact ⟨_, _, .productUnfinished hop hmul,
          fun left => readProductTail_unfinished hop hmul⟩
      · obtain ⟨factor, mid, hfactor, hread⟩ := exists_course_readPower stop more
        have hle := Reading.length_le_of_result hread
        obtain ⟨tail, rest, htail, hreadTail⟩ := exists_course_readProductTail stop mid
        exact ⟨_, rest, .productStep hop hmul hmore hfactor htail,
          fun left => (readProductTail_step hop hmul hmore hread).trans (hreadTail _)⟩
    · exact ⟨_, _, .productEnd (by simpa using hmul),
        fun left => readProductTail_end (by simpa using hmul)⟩
termination_by 8 * ts.length + 4

/-- **A power is read along a course.** -/
theorem exists_course_readPower (stop : ℕ) (ts : List Token) :
    ∃ e rest, Course stop .power ts e rest ∧ (readPower stop ts).result = (e, rest) := by
  obtain ⟨base, after, hbase, hread⟩ := exists_course_readSigned stop ts
  have hle := Reading.length_le_of_result hread
  by_cases hpow : ∃ token more, after = token :: more ∧ token.lexeme = .operator .power
  · obtain ⟨token, more, rfl, hpow⟩ := hpow
    by_cases hmore : more = []
    · subst hmore
      exact ⟨_, _, .powerUnfinished hbase hpow, readPower_unfinished hread hpow⟩
    · rw [List.length_cons] at hle
      obtain ⟨exponent, rest, hexponent, hreadExponent⟩ := exists_course_readPower stop more
      exact ⟨_, rest, .raised hbase hpow hmore hexponent,
        readPower_raised hread hpow hmore hreadExponent⟩
  · have hplain := forall_mem_head?_of_not_exists hpow
    exact ⟨_, _, .plain hbase hplain, readPower_plain hread hplain⟩
termination_by 8 * ts.length + 3

/-- **A signed operand is read along a course.** -/
theorem exists_course_readSigned (stop : ℕ) (ts : List Token) :
    ∃ e rest, Course stop .signed ts e rest ∧ (readSigned stop ts).result = (e, rest) := by
  by_cases hsign : ∀ token ∈ ts.head?,
      token.lexeme ≠ .operator .subtract ∧ token.lexeme ≠ .operator .add
  · obtain ⟨operand, rest, hoperand, hread⟩ := exists_course_readOperand stop ts
    exact ⟨_, _, .unsigned hsign hoperand, (readSigned_unsigned hsign).trans hread⟩
  · match ts with
    | [] => simp at hsign
    | token :: more =>
      obtain ⟨operand, rest, hoperand, hread⟩ := exists_course_readSigned stop more
      by_cases hminus : token.lexeme = .operator .subtract
      · exact ⟨_, _, .minus hminus hoperand, readSigned_minus hminus hread⟩
      · have hplus : token.lexeme = .operator .add := by simpa [hminus] using hsign
        exact ⟨_, _, .plus hplus hoperand, (readSigned_plus hplus).trans hread⟩
termination_by 8 * ts.length + 2

/-- **An operand is read along a course.** -/
theorem exists_course_readOperand (stop : ℕ) (ts : List Token) :
    ∃ e rest, Course stop .operand ts e rest ∧ (readOperand stop ts).result = (e, rest) := by
  obtain ⟨atom, after, hatom, hread⟩ := exists_course_readAtom stop ts
  by_cases hunit : ∃ token more, after = token :: more ∧ ∃ u, token.lexeme = .unit u
  · obtain ⟨token, more, rfl, u, hu⟩ := hunit
    exact ⟨_, _, .inUnit hatom hu, readOperand_inUnit hread hu⟩
  · have hbare : ∀ token ∈ after.head?, ∀ u, token.lexeme ≠ .unit u := by
      simpa using forall_mem_head?_of_not_exists hunit
    exact ⟨_, _, .bare hatom hbare, readOperand_bare hread hbare⟩
termination_by 8 * ts.length + 1

/-- **An atom is read along a course.** -/
theorem exists_course_readAtom (stop : ℕ) (ts : List Token) :
    ∃ e rest, Course stop .atom ts e rest ∧ (readAtom stop ts).result = (e, rest) := by
  match ts with
  | [] => exact ⟨_, _, .ended, readAtom_ended⟩
  | token :: more =>
    cases hl : token.lexeme with
    | number numeral => exact ⟨_, _, .number hl more, readAtom_number hl⟩
    | answer => exact ⟨_, _, .answer hl more, readAtom_answer hl⟩
    | «variable» name => exact ⟨_, _, .named hl more, readAtom_named hl⟩
    | opening =>
      obtain ⟨inner, after, hinner, hread⟩ := exists_course_readSum stop more
      by_cases hclosed : ∃ closing rest, after = closing :: rest ∧ closing.lexeme = .closing
      · obtain ⟨closing, rest, rfl, hclosing⟩ := hclosed
        exact ⟨_, _, .group hl hinner hclosing, readAtom_group hl hread hclosing⟩
      · have hunclosed := forall_mem_head?_of_not_exists hclosed
        exact ⟨_, _, .groupUnclosed hl hinner hunclosed,
          readAtom_groupUnclosed hl hread hunclosed⟩
    | function f =>
      match more with
      | [] => exact ⟨_, _, .unopened hl (by simp), readAtom_unopened hl (by simp)⟩
      | opening :: inside =>
        by_cases hopening : opening.lexeme = .opening
        · obtain ⟨argument, after, hargument, hread⟩ := exists_course_readSum stop inside
          by_cases hclosed : ∃ closing rest, after = closing :: rest ∧ closing.lexeme = .closing
          · obtain ⟨closing, rest, rfl, hclosing⟩ := hclosed
            exact ⟨_, _, .call hl hopening hargument hclosing,
              readAtom_call hl hopening hread hclosing⟩
          · have hunclosed := forall_mem_head?_of_not_exists hclosed
            exact ⟨_, _, .callUnclosed hl hopening hargument hunclosed,
              readAtom_callUnclosed hl hopening hread hunclosed⟩
        · have hunopened : ∀ next ∈ (opening :: inside).head?, next.lexeme ≠ .opening := by
            simpa using hopening
          exact ⟨_, _, .unopened hl hunopened, readAtom_unopened hl hunopened⟩
    | _ =>
      have hstarts : token.lexeme.startsAtom = false := by
        rw [hl]
        rfl
      exact ⟨_, _, .unexpected hstarts, readAtom_unexpected hstarts⟩
termination_by 8 * ts.length

end

/-- **A statement about trees, made about the trees of a category**: for a tail, if it
holds of the tree on the left it holds of the whole. -/
def Category.Gives (P : Expr → Prop) : (c : Category) → c.Tree → Prop
  | .sumTail, e | .productTail, e => ∀ left, P left → P (e left)
  | .sum, e | .product, e | .power, e | .signed, e | .operand, e | .atom, e => P e

/-! ## What a course leaves -/

/-- **The category that a phrase stands behind**: a tail stands behind a phrase of the
next tighter category. No other phrase has anything before it, and nothing goes on
with an atom anyway. -/
def Category.before : Category → Category
  | .sumTail => .product
  | .productTail => .power
  | _ => .atom

/-- **Units stand right behind numbers.** -/
def UnitsFollow (tokens : List Token) : Prop :=
  tokens.IsChain fun number token => ∀ u, token.lexeme = .unit u → number.lexeme.takesUnit = true

theorem UnitsFollow.suffix {tokens rest : List Token} (h : UnitsFollow tokens)
    (hrest : rest <:+ tokens) : UnitsFollow rest := List.IsChain.suffix h hrest

/-- No unit stands right behind a unit. -/
theorem UnitsFollow.not_unit {token next : Token} {rest : List Token} {u : UnitSuffix}
    (h : UnitsFollow (token :: next :: rest)) (lexeme_eq : token.lexeme = .unit u)
    (u' : UnitSuffix) : next.lexeme ≠ .unit u' := by
  intro hnext
  have htakes := (List.isChain_cons_cons.mp h).1 u' hnext
  rw [lexeme_eq] at htakes
  cases htakes

/-! ### Where a category stops

A category takes what the next tighter one does, and its own continuation. -/

namespace Category

variable {ts : List Token}

theorem takes_sumTail_eq_false_iff (lexeme : Lexeme) :
    Category.sumTail.takes lexeme = false ↔ Category.product.takes lexeme = false
      ∧ ∀ op, lexeme = .operator op → op.isAdditive = false := by
  cases lexeme with
  | operator op =>
    cases op <;> simp [takes, looseness, Lexeme.looseness?, Operator.isAdditive,
      Operator.isMultiplicative]
  | _ => simp [takes, looseness, Lexeme.looseness?]

theorem takes_productTail_eq_false_iff (lexeme : Lexeme) :
    Category.productTail.takes lexeme = false ↔ Category.power.takes lexeme = false
      ∧ ∀ op, lexeme = .operator op → op.isMultiplicative = false := by
  cases lexeme with
  | operator op =>
    cases op <;> simp [takes, looseness, Lexeme.looseness?, Operator.isMultiplicative]
  | _ => simp [takes, looseness, Lexeme.looseness?]

theorem takes_power_eq_false_iff (lexeme : Lexeme) :
    Category.power.takes lexeme = false
      ↔ Category.signed.takes lexeme = false ∧ lexeme ≠ .operator .power := by
  cases lexeme with
  | operator op =>
    cases op <;> simp [takes, looseness, Lexeme.looseness?, Operator.isMultiplicative]
  | _ => simp [takes, looseness, Lexeme.looseness?]

theorem takes_operand_eq_false_iff (lexeme : Lexeme) :
    Category.operand.takes lexeme = false ↔ ∀ u, lexeme ≠ .unit u := by
  cases lexeme with
  | operator op =>
    cases op <;> simp [takes, looseness, Lexeme.looseness?, Operator.isMultiplicative]
  | _ => simp [takes, looseness, Lexeme.looseness?]

theorem stops_sumTail_iff : Category.sumTail.Stops ts ↔ Category.product.Stops ts
    ∧ ∀ token ∈ ts.head?, ∀ op, token.lexeme = .operator op → op.isAdditive = false := by
  simp only [Stops, takes_sumTail_eq_false_iff, imp_and, forall_and]

theorem stops_productTail_iff : Category.productTail.Stops ts ↔ Category.power.Stops ts
    ∧ ∀ token ∈ ts.head?, ∀ op, token.lexeme = .operator op → op.isMultiplicative = false := by
  simp only [Stops, takes_productTail_eq_false_iff, imp_and, forall_and]

theorem stops_power_iff : Category.power.Stops ts
    ↔ Category.signed.Stops ts ∧ ∀ token ∈ ts.head?, token.lexeme ≠ .operator .power := by
  simp only [Stops, takes_power_eq_false_iff, imp_and, forall_and]

theorem stops_operand_iff :
    Category.operand.Stops ts ↔ ∀ token ∈ ts.head?, ∀ u, token.lexeme ≠ .unit u := by
  simp only [Stops, takes_operand_eq_false_iff]

end Category

/-! ### The rest -/

namespace Course

variable {stop : ℕ} {c : Category} {ts rest : List Token} {e : c.Tree}

/-- **A rule leaves tokens from the end** of those it is given. -/
theorem suffix (h : Course stop c ts e rest) : rest <:+ ts := by
  induction h with
  | sum _ _ ihFirst ihTail => exact ihTail.trans ihFirst
  | sumEnd => exact List.suffix_refl _
  | sumUnfinished => exact List.nil_suffix
  | sumStep _ _ _ _ _ ihTerm ihTail => exact (ihTail.trans ihTerm).trans (List.suffix_cons _ _)
  | product _ _ ihFirst ihTail => exact ihTail.trans ihFirst
  | productEnd => exact List.suffix_refl _
  | productUnfinished => exact List.nil_suffix
  | productStep _ _ _ _ _ ihFactor ihTail =>
    exact (ihTail.trans ihFactor).trans (List.suffix_cons _ _)
  | plain _ _ ih => exact ih
  | powerUnfinished => exact List.nil_suffix
  | raised _ _ _ _ ihBase ihExponent =>
    exact (ihExponent.trans (List.suffix_cons _ _)).trans ihBase
  | minus _ _ ih => exact ih.trans (List.suffix_cons _ _)
  | plus _ _ ih => exact ih.trans (List.suffix_cons _ _)
  | unsigned _ _ ih => exact ih
  | bare _ _ ih => exact ih
  | inUnit _ _ ih => exact (List.suffix_cons _ _).trans ih
  | number => exact List.suffix_cons _ _
  | answer => exact List.suffix_cons _ _
  | named => exact List.suffix_cons _ _
  | call _ _ _ _ ih =>
    exact (((List.suffix_cons _ _).trans ih).trans (List.suffix_cons _ _)).trans
      (List.suffix_cons _ _)
  | callUnclosed => exact List.nil_suffix
  | unopened => exact List.nil_suffix
  | group _ _ _ ih => exact ((List.suffix_cons _ _).trans ih).trans (List.suffix_cons _ _)
  | groupUnclosed => exact List.nil_suffix
  | ended => exact List.nil_suffix
  | unexpected => exact List.nil_suffix

/-- **A rule goes as far as it can**: what it leaves does not go on with what it has
read. -/
theorem stops (h : Course stop c ts e rest) (hunits : UnitsFollow ts)
    (hbefore : c.before.Stops ts) : c.Stops rest := by
  induction h with
  | sum first_course _ ihFirst ihTail =>
    have hmid := ihFirst hunits (Category.stops_atom _)
    exact (ihTail (hunits.suffix first_course.suffix) hmid).mono le_rfl
  | sumEnd not_additive => exact Category.stops_sumTail_iff.mpr ⟨hbefore, not_additive⟩
  | sumUnfinished => exact Category.stops_nil _
  | sumStep _ _ _ term_course _ ihTerm ihTail =>
    have hmore := hunits.suffix (List.suffix_cons _ _)
    have hmid := ihTerm hmore (Category.stops_atom _)
    exact ihTail (hmore.suffix term_course.suffix) hmid
  | product first_course _ ihFirst ihTail =>
    have hmid := ihFirst hunits (Category.stops_atom _)
    exact (ihTail (hunits.suffix first_course.suffix) hmid).mono le_rfl
  | productEnd not_multiplicative =>
    exact Category.stops_productTail_iff.mpr ⟨hbefore, not_multiplicative⟩
  | productUnfinished => exact Category.stops_nil _
  | productStep _ _ _ factor_course _ ihFactor ihTail =>
    have hmore := hunits.suffix (List.suffix_cons _ _)
    have hmid := ihFactor hmore (Category.stops_atom _)
    exact ihTail (hmore.suffix factor_course.suffix) hmid
  | plain _ not_power ih =>
    exact Category.stops_power_iff.mpr ⟨ih hunits (Category.stops_atom _), not_power⟩
  | powerUnfinished => exact Category.stops_nil _
  | raised base_course _ _ _ _ ihExponent =>
    exact ihExponent (hunits.suffix ((List.suffix_cons _ _).trans base_course.suffix))
      (Category.stops_atom _)
  | minus _ _ ih => exact ih (hunits.suffix (List.suffix_cons _ _)) (Category.stops_atom _)
  | plus _ _ ih => exact ih (hunits.suffix (List.suffix_cons _ _)) (Category.stops_atom _)
  | unsigned _ _ ih => exact (ih hunits (Category.stops_atom _)).mono le_rfl
  | bare _ not_unit => exact Category.stops_operand_iff.mpr not_unit
  | @inUnit ts rest token atom u atom_course lexeme_eq =>
    refine Category.stops_operand_iff.mpr fun next hnext => ?_
    obtain ⟨more, rfl⟩ := List.head?_eq_some_iff.mp hnext
    exact (hunits.suffix atom_course.suffix).not_unit lexeme_eq
  | _ => exact Category.stops_atom _

end Course

end Reckoner
