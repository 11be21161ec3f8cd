import Mathlib.Tactic.Common
import Reckoner.Expr.Parser

/-!
# The grammar of lines

A line that can be evaluated is a **phrase**: a derivation in the grammar

* sum: `product (('+' | '-') product)*`,
* product: `power (('*' | '/' | '%') power)*`,
* power: `signed ('^' power)?`,
* signed: `('-' | '+') signed | operand`,
* operand: `atom unit?`,
* atom: `number | answer | variable | function '(' sum ')' | '(' sum ')'`.

`Phrase` has one constructor per production, and a row `(…)*` is a category of
its own, a *tail*. A phrase holds the tokens it was derived with, so that
`Phrase.tokens` spells it out again, and `Phrase.eval` gives it its meaning
without a detour through `Expr`: the meaning of a tail is a function of the
value on its left, which is what makes rows group from the left.

The main statement is `Phrase.eq_of_tokens_eq`: the grammar is unambiguous, a
sum is determined by its tokens. Its proof reads two phrases side by side, each
followed by tokens that cannot go on with it (`Category.Stops`); the same
condition decides in `Reckoner.Proofs.Grammar.Reading` where the reader stops.
-/

namespace Reckoner

/-- **The categories of phrases**, from the loosest binding to the tightest. -/
inductive Category where
  | sum
  | sumTail
  | product
  | productTail
  | power
  | signed
  | operand
  | atom
deriving DecidableEq

/-- **A phrase of a category**, one constructor for each production of the
grammar. -/
inductive Phrase : Category → Type where
  /-- A product and what is added to it. -/
  | sum (first : Phrase .product) (tail : Phrase .sumTail) : Phrase .sum
  /-- Nothing more is added. -/
  | sumEnd : Phrase .sumTail
  /-- One more product is added or subtracted. -/
  | sumStep (token : Token) (op : Operator) (lexeme_eq : token.lexeme = .operator op)
      (additive : op.isAdditive = true) (term : Phrase .product) (tail : Phrase .sumTail) :
      Phrase .sumTail
  /-- A power and what it is multiplied with. -/
  | product (first : Phrase .power) (tail : Phrase .productTail) : Phrase .product
  /-- No factor more. -/
  | productEnd : Phrase .productTail
  /-- One more factor, divisor or modulus. -/
  | productStep (token : Token) (op : Operator) (lexeme_eq : token.lexeme = .operator op)
      (multiplicative : op.isMultiplicative = true) (factor : Phrase .power)
      (tail : Phrase .productTail) : Phrase .productTail
  /-- A signed operand that is not raised. -/
  | plain (base : Phrase .signed) : Phrase .power
  /-- A signed operand raised to a power. -/
  | raised (base : Phrase .signed) (token : Token) (lexeme_eq : token.lexeme = .operator .power)
      (exponent : Phrase .power) : Phrase .power
  /-- A minus sign before a signed operand. -/
  | minus (token : Token) (lexeme_eq : token.lexeme = .operator .subtract)
      (rest : Phrase .signed) : Phrase .signed
  /-- A plus sign before a signed operand. -/
  | plus (token : Token) (lexeme_eq : token.lexeme = .operator .add)
      (rest : Phrase .signed) : Phrase .signed
  /-- An operand without a sign. -/
  | unsigned (operand : Phrase .operand) : Phrase .signed
  /-- An atom without a unit. -/
  | bare (atom : Phrase .atom) : Phrase .operand
  /-- An atom and its unit. -/
  | inUnit (atom : Phrase .atom) (token : Token) (u : UnitSuffix)
      (lexeme_eq : token.lexeme = .unit u) : Phrase .operand
  /-- A written number. -/
  | number (token : Token) (numeral : Numeral) (lexeme_eq : token.lexeme = .number numeral) :
      Phrase .atom
  /-- The last answer. -/
  | answer (token : Token) (lexeme_eq : token.lexeme = .answer) : Phrase .atom
  /-- A variable. -/
  | named (token : Token) (name : String) (lexeme_eq : token.lexeme = .variable name) :
      Phrase .atom
  /-- A function and its argument in parentheses. -/
  | call (token : Token) (f : Builtin) (lexeme_eq : token.lexeme = .function f)
      (opening : Token) (opens : opening.lexeme = .opening) (argument : Phrase .sum)
      (closing : Token) (closes : closing.lexeme = .closing) : Phrase .atom
  /-- A sum in parentheses. -/
  | group (opening : Token) (opens : opening.lexeme = .opening) (inner : Phrase .sum)
      (closing : Token) (closes : closing.lexeme = .closing) : Phrase .atom

/-- What phrases of a category mean: the outcome of an evaluation, and for a
tail the outcome as a function of the value on its left. -/
abbrev Category.Meaning : Category → Type
  | .sumTail | .productTail => Decimal → Except Failure Decimal
  | _ => Except Failure Decimal

/-- The trees of phrases of a category: an expression, and for a tail the
expression as a function of the one on its left. -/
abbrev Category.Tree : Category → Type
  | .sumTail | .productTail => Expr → Expr
  | _ => Expr

namespace Phrase

/-- **The tokens of a phrase**, from left to right. -/
def tokens : {c : Category} → Phrase c → List Token
  | _, .sum first tail => first.tokens ++ tail.tokens
  | _, .sumEnd => []
  | _, .sumStep token _ _ _ term tail => token :: (term.tokens ++ tail.tokens)
  | _, .product first tail => first.tokens ++ tail.tokens
  | _, .productEnd => []
  | _, .productStep token _ _ _ factor tail => token :: (factor.tokens ++ tail.tokens)
  | _, .plain base => base.tokens
  | _, .raised base token _ exponent => base.tokens ++ token :: exponent.tokens
  | _, .minus token _ rest => token :: rest.tokens
  | _, .plus token _ rest => token :: rest.tokens
  | _, .unsigned operand => operand.tokens
  | _, .bare atom => atom.tokens
  | _, .inUnit atom token _ _ => atom.tokens ++ [token]
  | _, .number token _ _ => [token]
  | _, .answer token _ => [token]
  | _, .named token _ _ => [token]
  | _, .call token _ _ opening _ argument closing _ =>
    token :: opening :: (argument.tokens ++ [closing])
  | _, .group opening _ inner closing _ => opening :: (inner.tokens ++ [closing])

/-- **The meaning of a phrase.** Rows are worked off from the left, a power
takes the whole power on its right as its exponent and the signed operand on
its left as its base, and a unit multiplies the atom before it. -/
def eval (ctx : Context) (env : Environment) : {c : Category} → Phrase c → c.Meaning
  | _, .sum first tail => do
    let x ← first.eval ctx env
    tail.eval ctx env x
  | _, .sumEnd => fun left => .ok left
  | _, .sumStep token op _ _ term tail => fun left => do
    let y ← term.eval ctx env
    let x ← op.apply ctx token.position left y
    tail.eval ctx env x
  | _, .product first tail => do
    let x ← first.eval ctx env
    tail.eval ctx env x
  | _, .productEnd => fun left => .ok left
  | _, .productStep token op _ _ factor tail => fun left => do
    let y ← factor.eval ctx env
    let x ← op.apply ctx token.position left y
    tail.eval ctx env x
  | _, .plain base => base.eval ctx env
  | _, .raised base token _ exponent => do
    let x ← base.eval ctx env
    let y ← exponent.eval ctx env
    Operator.power.apply ctx token.position x y
  | _, .minus _ _ rest => do
    let x ← rest.eval ctx env
    .ok x.negate
  | _, .plus _ _ rest => rest.eval ctx env
  | _, .unsigned operand => operand.eval ctx env
  | _, .bare atom => atom.eval ctx env
  | _, .inUnit atom token u _ => do
    let x ← atom.eval ctx env
    u.apply token.position x
  | _, .number _ numeral _ => .ok (.finite numeral.value)
  | _, .answer _ _ => .ok env.answer
  | _, .named token name _ =>
    match env.lookup name with
    | some x => .ok x
    | none => .error (.at (.undefinedVariable name) token.position)
  | _, .call token f _ _ _ argument _ _ => do
    let x ← argument.eval ctx env
    f.apply ctx token.position x
  | _, .group _ _ inner _ _ => inner.eval ctx env

end Phrase

/-! ## Where a phrase ends

A phrase is read as far as it goes, so what follows it must not be taken for a
part of it. Which tokens could be is a matter of how loosely they bind: a unit
goes on with an operand, `^` with a power, and so up to the sum, with which every
operator goes on. -/

/-- **How loosely a lexeme binds** that goes on with a phrase: a unit binds
tightest, then `^`, then the multiplicative operators, then the additive ones. No
other lexeme goes on with anything. -/
def Lexeme.looseness? : Lexeme → Option Nat
  | .unit _ => some 1
  | .operator op => some (if op = .power then 2 else if op.isMultiplicative then 3 else 4)
  | _ => none

namespace Category

/-- How loosely the parts of a phrase are bound at most. -/
def looseness : Category → Nat
  | .atom => 0
  | .operand | .signed => 1
  | .power => 2
  | .product | .productTail => 3
  | .sum | .sumTail => 4

/-- Whether a lexeme right behind a phrase of the category would go on with
it. -/
def takes (c : Category) (lexeme : Lexeme) : Bool :=
  lexeme.looseness?.any (· ≤ c.looseness)

variable {op : Operator}

theorem takes_sumTail (op : Operator) : Category.sumTail.takes (.operator op) = true := by
  cases op <;> rfl

theorem takes_productTail (h : op.isMultiplicative = true) :
    Category.productTail.takes (.operator op) = true := by
  cases op <;> first | rfl | cases h

theorem takes_product_of_isAdditive (h : op.isAdditive = true) :
    Category.product.takes (.operator op) = false := by
  cases op <;> first | rfl | cases h

theorem takes_power_of_isMultiplicative (h : op.isMultiplicative = true) :
    Category.power.takes (.operator op) = false := by
  cases op <;> first | rfl | cases h

/-- **No phrase of the category goes on** with the tokens: there are none, or
the first of them is not taken. -/
def Stops (c : Category) (rest : List Token) : Prop :=
  ∀ token ∈ rest.head?, c.takes token.lexeme = false

theorem stops_nil (c : Category) : c.Stops [] := by
  intro token h
  cases h

theorem stops_cons {c : Category} {token : Token} {rest : List Token} :
    c.Stops (token :: rest) ↔ c.takes token.lexeme = false := by
  simp [Stops]

theorem not_stops_cons {c : Category} {token : Token} (h : c.takes token.lexeme = true)
    (rest : List Token) : ¬ c.Stops (token :: rest) := by
  rw [stops_cons, h]
  exact Bool.noConfusion

/-- An atom is over where it ends. -/
theorem stops_atom (rest : List Token) : Category.atom.Stops rest := by
  intro token _
  unfold takes
  cases token.lexeme with
  | operator op => cases op <;> rfl
  | _ => rfl

/-- No category takes a closing parenthesis. -/
theorem stops_closing {c : Category} {token : Token} (h : token.lexeme = .closing)
    (rest : List Token) : c.Stops (token :: rest) := by
  rw [stops_cons, h]
  rfl

/-- A base does not take the sign of its power. -/
theorem stops_power_sign {token : Token} (h : token.lexeme = .operator .power)
    (rest : List Token) : Category.signed.Stops (token :: rest) := by
  rw [stops_cons, h]
  rfl

/-- **What a loose category does not take, a tighter one does not take either.** -/
theorem Stops.mono {c c' : Category} {rest : List Token} (h : c.Stops rest)
    (hle : c'.looseness ≤ c.looseness) : c'.Stops rest := by
  intro token ht
  have hc := h token ht
  unfold takes at hc ⊢
  rw [Option.any_eq_false] at hc ⊢
  intro loose hloose
  have hlt := hc loose hloose
  rw [decide_eq_false_iff_not, Nat.not_le] at hlt ⊢
  exact Nat.lt_of_le_of_lt hle hlt

end Category

namespace Phrase

/-- The tail of a sum begins where a product is over. -/
theorem stops_sumTail (tail : Phrase .sumTail) {rest : List Token}
    (h : Category.sum.Stops rest) : Category.product.Stops (tail.tokens ++ rest) := by
  cases tail with
  | sumEnd => exact h.mono (by decide)
  | sumStep token op lexeme_eq additive term tail =>
    rw [tokens, List.cons_append, Category.stops_cons, lexeme_eq]
    exact Category.takes_product_of_isAdditive additive

/-- The tail of a product begins where a power is over. -/
theorem stops_productTail (tail : Phrase .productTail) {rest : List Token}
    (h : Category.product.Stops rest) : Category.power.Stops (tail.tokens ++ rest) := by
  cases tail with
  | productEnd => exact h.mono (by decide)
  | productStep token op lexeme_eq multiplicative factor tail =>
    rw [tokens, List.cons_append, Category.stops_cons, lexeme_eq]
    exact Category.takes_power_of_isMultiplicative multiplicative

/-! ## Unambiguity -/

/-- An atom begins with a token that is no operator. -/
theorem exists_head_atom (atom : Phrase .atom) :
    ∃ token rest, atom.tokens = token :: rest ∧ ∀ op, token.lexeme ≠ .operator op := by
  cases atom with
  | number token _ h => exact ⟨token, _, rfl, fun op => by simp [h]⟩
  | answer token h => exact ⟨token, _, rfl, fun op => by simp [h]⟩
  | named token _ h => exact ⟨token, _, rfl, fun op => by simp [h]⟩
  | call token _ h => exact ⟨token, _, rfl, fun op => by simp [h]⟩
  | group opening h => exact ⟨opening, _, rfl, fun op => by simp [h]⟩

/-- An operand begins with a token that is no operator, so it cannot be taken
for a signed one. -/
theorem exists_head_operand (operand : Phrase .operand) :
    ∃ token rest, operand.tokens = token :: rest ∧ ∀ op, token.lexeme ≠ .operator op := by
  cases operand with
  | bare atom => exact atom.exists_head_atom
  | inUnit atom token u _ =>
    obtain ⟨head, rest, h, hop⟩ := atom.exists_head_atom
    exact ⟨head, rest ++ [token], by rw [tokens, h, List.cons_append], hop⟩

/-- The tokens of an operand do not begin with an operator. -/
theorem tokens_operand_append_ne (operand : Phrase .operand) {token : Token} {op : Operator}
    (hop : token.lexeme = .operator op) (rest rest' : List Token) :
    operand.tokens ++ rest ≠ token :: rest' := by
  obtain ⟨head, more, h, hne⟩ := operand.exists_head_operand
  rw [h, List.cons_append]
  intro heq
  obtain ⟨rfl, -⟩ := List.cons.inj heq
  exact hne op hop

/-- **Two phrases that spell the same line are the same phrase**, each up to a
place where its category stops. -/
theorem eq_of_tokens_append {c : Category} (d : Phrase c) :
    ∀ (d' : Phrase c) {r r' : List Token}, c.Stops r → c.Stops r' →
      d.tokens ++ r = d'.tokens ++ r' → d = d' ∧ r = r' := by
  -- what follows must stay general: for a part of a phrase it is the part after it
  induction d with
  | sum first tail ihFirst ihTail =>
    intro d' r r' hr hr' h
    cases d' with
    | sum first' tail' =>
      rw [tokens, tokens, List.append_assoc, List.append_assoc] at h
      obtain ⟨rfl, ht⟩ := ihFirst first' (tail.stops_sumTail hr) (tail'.stops_sumTail hr') h
      obtain ⟨rfl, rfl⟩ := ihTail tail' (hr.mono (by decide)) (hr'.mono (by decide)) ht
      exact ⟨rfl, rfl⟩
  | sumEnd =>
    intro d' r r' hr _ h
    cases d' with
    | sumEnd => exact ⟨rfl, h⟩
    | sumStep token op lexeme_eq additive term tail =>
      obtain rfl : r = _ := h
      exact absurd hr (Category.not_stops_cons (lexeme_eq ▸ Category.takes_sumTail op) _)
  | sumStep token op lexeme_eq additive term tail ihTerm ihTail =>
    intro d' r r' hr hr' h
    cases d' with
    | sumEnd =>
      obtain rfl : r' = _ := h.symm
      exact absurd hr' (Category.not_stops_cons (lexeme_eq ▸ Category.takes_sumTail op) _)
    | sumStep token' op' lexeme_eq' additive' term' tail' =>
      simp only [tokens, List.cons_append, List.append_assoc] at h
      obtain ⟨rfl, hrest⟩ := List.cons.inj h
      obtain rfl : op = op' := by simpa [lexeme_eq] using lexeme_eq'
      obtain ⟨rfl, ht⟩ :=
        ihTerm term' (tail.stops_sumTail (hr.mono (by decide)))
          (tail'.stops_sumTail (hr'.mono (by decide))) hrest
      obtain ⟨rfl, rfl⟩ := ihTail tail' hr hr' ht
      exact ⟨rfl, rfl⟩
  | product first tail ihFirst ihTail =>
    intro d' r r' hr hr' h
    cases d' with
    | product first' tail' =>
      rw [tokens, tokens, List.append_assoc, List.append_assoc] at h
      obtain ⟨rfl, ht⟩ :=
        ihFirst first' (tail.stops_productTail hr) (tail'.stops_productTail hr') h
      obtain ⟨rfl, rfl⟩ := ihTail tail' (hr.mono (by decide)) (hr'.mono (by decide)) ht
      exact ⟨rfl, rfl⟩
  | productEnd =>
    intro d' r r' hr _ h
    cases d' with
    | productEnd => exact ⟨rfl, h⟩
    | productStep token op lexeme_eq multiplicative factor tail =>
      obtain rfl : r = _ := h
      exact absurd hr (Category.not_stops_cons
        (lexeme_eq ▸ Category.takes_productTail multiplicative) _)
  | productStep token op lexeme_eq multiplicative factor tail ihFactor ihTail =>
    intro d' r r' hr hr' h
    cases d' with
    | productEnd =>
      obtain rfl : r' = _ := h.symm
      exact absurd hr' (Category.not_stops_cons
        (lexeme_eq ▸ Category.takes_productTail multiplicative) _)
    | productStep token' op' lexeme_eq' multiplicative' factor' tail' =>
      simp only [tokens, List.cons_append, List.append_assoc] at h
      obtain ⟨rfl, hrest⟩ := List.cons.inj h
      obtain rfl : op = op' := by simpa [lexeme_eq] using lexeme_eq'
      obtain ⟨rfl, ht⟩ := ihFactor factor' (tail.stops_productTail (hr.mono (by decide)))
        (tail'.stops_productTail (hr'.mono (by decide))) hrest
      obtain ⟨rfl, rfl⟩ := ihTail tail' hr hr' ht
      exact ⟨rfl, rfl⟩
  | plain base ih =>
    intro d' r r' hr hr' h
    cases d' with
    | plain base' =>
      obtain ⟨rfl, rfl⟩ := ih base' (hr.mono (by decide)) (hr'.mono (by decide)) h
      exact ⟨rfl, rfl⟩
    | raised base' token lexeme_eq exponent =>
      rw [tokens, tokens, List.append_assoc] at h
      -- the bases agree, so the sign of the power would stand behind the plain one
      obtain ⟨rfl, rfl⟩ := ih base' (hr.mono (by decide)) (Category.stops_power_sign lexeme_eq _) h
      exact absurd hr (Category.not_stops_cons (by rw [lexeme_eq]; rfl) _)
  | raised base token lexeme_eq exponent ihBase ihExponent =>
    intro d' r r' hr hr' h
    cases d' with
    | plain base' =>
      rw [tokens, tokens, List.append_assoc] at h
      obtain ⟨rfl, rfl⟩ :=
        ihBase base' (Category.stops_power_sign lexeme_eq _) (hr'.mono (by decide)) h
      exact absurd hr' (Category.not_stops_cons (by rw [lexeme_eq]; rfl) _)
    | raised base' token' lexeme_eq' exponent' =>
      rw [tokens, tokens, List.append_assoc, List.append_assoc] at h
      obtain ⟨rfl, ht⟩ := ihBase base' (Category.stops_power_sign lexeme_eq _)
        (Category.stops_power_sign lexeme_eq' _) h
      obtain ⟨rfl, hrest⟩ := List.cons.inj ht
      obtain ⟨rfl, rfl⟩ := ihExponent exponent' hr hr' hrest
      exact ⟨rfl, rfl⟩
  | minus token lexeme_eq rest ih =>
    intro d' r r' hr hr' h
    cases d' with
    | minus token' lexeme_eq' rest' =>
      obtain ⟨rfl, hrest⟩ := List.cons.inj h
      obtain ⟨rfl, rfl⟩ := ih rest' hr hr' hrest
      exact ⟨rfl, rfl⟩
    | plus token' lexeme_eq' rest' =>
      obtain ⟨rfl, -⟩ := List.cons.inj h
      simp [lexeme_eq] at lexeme_eq'
    | unsigned operand => exact absurd h.symm (operand.tokens_operand_append_ne lexeme_eq _ _)
  | plus token lexeme_eq rest ih =>
    intro d' r r' hr hr' h
    cases d' with
    | minus token' lexeme_eq' rest' =>
      obtain ⟨rfl, -⟩ := List.cons.inj h
      simp [lexeme_eq] at lexeme_eq'
    | plus token' lexeme_eq' rest' =>
      obtain ⟨rfl, hrest⟩ := List.cons.inj h
      obtain ⟨rfl, rfl⟩ := ih rest' hr hr' hrest
      exact ⟨rfl, rfl⟩
    | unsigned operand => exact absurd h.symm (operand.tokens_operand_append_ne lexeme_eq _ _)
  | unsigned operand ih =>
    intro d' r r' hr hr' h
    cases d' with
    | minus token lexeme_eq rest => exact absurd h (operand.tokens_operand_append_ne lexeme_eq _ _)
    | plus token lexeme_eq rest => exact absurd h (operand.tokens_operand_append_ne lexeme_eq _ _)
    | unsigned operand' =>
      obtain ⟨rfl, rfl⟩ := ih operand' (hr.mono (by decide)) (hr'.mono (by decide)) h
      exact ⟨rfl, rfl⟩
  | bare atom ih =>
    intro d' r r' hr _ h
    cases d' with
    | bare atom' =>
      obtain ⟨rfl, rfl⟩ := ih atom' (Category.stops_atom _) (Category.stops_atom _) h
      exact ⟨rfl, rfl⟩
    | inUnit atom' token u lexeme_eq =>
      rw [tokens, tokens, List.append_assoc] at h
      obtain ⟨rfl, rfl⟩ := ih atom' (Category.stops_atom _) (Category.stops_atom _) h
      exact absurd hr (Category.not_stops_cons (by rw [lexeme_eq]; rfl) _)
  | inUnit atom token u lexeme_eq ih =>
    intro d' r r' _ hr' h
    cases d' with
    | bare atom' =>
      rw [tokens, tokens, List.append_assoc] at h
      obtain ⟨rfl, rfl⟩ := ih atom' (Category.stops_atom _) (Category.stops_atom _) h
      exact absurd hr' (Category.not_stops_cons (by rw [lexeme_eq]; rfl) _)
    | inUnit atom' token' u' lexeme_eq' =>
      rw [tokens, tokens, List.append_assoc, List.append_assoc] at h
      obtain ⟨rfl, ht⟩ := ih atom' (Category.stops_atom _) (Category.stops_atom _) h
      obtain ⟨rfl, rfl⟩ := List.cons.inj ht
      obtain rfl : u = u' := by simpa [lexeme_eq] using lexeme_eq'
      exact ⟨rfl, rfl⟩
  | number token numeral lexeme_eq =>
    intro d' r r' _ _ h
    -- the first token tells the atoms apart
    cases d' <;> grind [tokens]
  | answer token lexeme_eq =>
    intro d' r r' _ _ h
    cases d' <;> grind [tokens]
  | named token name lexeme_eq =>
    intro d' r r' _ _ h
    cases d' <;> grind [tokens]
  | call token f lexeme_eq opening opens argument closing closes ih =>
    intro d' r r' _ _ h
    cases d' with
    | call token' f' lexeme_eq' opening' opens' argument' closing' closes' =>
      simp only [tokens, List.cons_append, List.append_assoc] at h
      obtain ⟨rfl, hrest⟩ := List.cons.inj h
      obtain ⟨rfl, hargument⟩ := List.cons.inj hrest
      obtain ⟨rfl, ht⟩ := ih argument' (Category.stops_closing closes _)
        (Category.stops_closing closes' _) hargument
      obtain ⟨rfl, rfl⟩ := List.cons.inj ht
      obtain rfl : f = f' := by simpa [lexeme_eq] using lexeme_eq'
      exact ⟨rfl, rfl⟩
    | _ => grind [tokens]
  | group opening opens inner closing closes ih =>
    intro d' r r' _ _ h
    cases d' with
    | group opening' opens' inner' closing' closes' =>
      simp only [tokens, List.cons_append, List.append_assoc] at h
      obtain ⟨rfl, hinner⟩ := List.cons.inj h
      obtain ⟨rfl, ht⟩ := ih inner' (Category.stops_closing closes _)
        (Category.stops_closing closes' _) hinner
      obtain ⟨rfl, rfl⟩ := List.cons.inj ht
      exact ⟨rfl, rfl⟩
    | _ => grind [tokens]

/-- **The grammar is unambiguous**: a phrase is determined by its tokens. -/
theorem eq_of_tokens_eq {c : Category} {d d' : Phrase c} (h : d.tokens = d'.tokens) : d = d' :=
  (d.eq_of_tokens_append d' (Category.stops_nil c) (Category.stops_nil c) (by rw [h])).1

end Phrase

end Reckoner
