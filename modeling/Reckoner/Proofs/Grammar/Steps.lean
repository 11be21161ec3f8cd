import Mathlib.Tactic.Common
import Reckoner.Expr.Parser

/-!
# The steps of the reader

The rules of `Reckoner.Expr.Parser` are functions to a tree and a rest that
carry the bound on the rest along. Nothing that is said about *what* they read
needs the bound, so everything below is about `Reading.result`, the pair without
it, and there is one equation for each way a rule can go on: it hands the tokens
to the next tighter rule, takes an operator, or leaves what it cannot take.

These equations are all that later modules know about the rules.
-/

namespace Reckoner

namespace Reading

/-- A reading without the bound on its rest. -/
def result {n : Nat} (r : Reading n) : Expr × List Token := (r.tree, r.rest)

@[simp] theorem result_relax {m n : Nat} (r : Reading m) (h : m ≤ n) :
    (r.relax h).result = r.result := rfl

@[simp] theorem result_mapTree {n : Nat} (r : Reading n) (f : Expr → Expr) :
    (r.mapTree f).result = (f r.tree, r.rest) := rfl

theorem tree_of_result {n : Nat} {r : Reading n} {e : Expr} {ts : List Token}
    (h : r.result = (e, ts)) : r.tree = e := congrArg Prod.fst h

theorem rest_of_result {n : Nat} {r : Reading n} {e : Expr} {ts : List Token}
    (h : r.result = (e, ts)) : r.rest = ts := congrArg Prod.snd h

theorem length_le_of_result {n : Nat} {r : Reading n} {e : Expr} {ts : List Token}
    (h : r.result = (e, ts)) : ts.length ≤ n := rest_of_result h ▸ r.rest_le

end Reading

variable {stop : Nat} {left : Expr} {token : Token} {op : Operator} {ts rest : List Token}

theorem readSum_result {first : Expr} (hfirst : (readProduct stop ts).result = (first, rest)) :
    (readSum stop ts).result = (readSumTail stop first rest).result := by
  obtain ⟨rfl, rfl⟩ := Prod.mk.inj hfirst
  rw [readSum]
  rfl

theorem readSumTail_end
    (h : ∀ token ∈ ts.head?, ∀ op, token.lexeme = .operator op → op.isAdditive = false) :
    (readSumTail stop left ts).result = (left, ts) := by
  cases ts with
  | nil =>
    rw [readSumTail]
    rfl
  | cons token rest =>
    have hop := h token rfl
    rw [readSumTail]
    cases hl : token.lexeme <;> simp_all [Reading.result]

theorem readSumTail_unfinished (h : token.lexeme = .operator op) (hop : op.isAdditive = true) :
    (readSumTail stop left [token]).result = (unfinished op token.position left, []) := by
  rw [readSumTail]
  simp [h, hop, Reading.result]

theorem readSumTail_step {term : Expr} (h : token.lexeme = .operator op)
    (hop : op.isAdditive = true) (hne : ts ≠ [])
    (hterm : (readProduct stop ts).result = (term, rest)) :
    (readSumTail stop left (token :: ts)).result
      = (readSumTail stop (.binary op token.position left term) rest).result := by
  obtain ⟨rfl, rfl⟩ := Prod.mk.inj hterm
  rw [readSumTail]
  simp [h, hop, hne]

theorem readProduct_result {first : Expr} (hfirst : (readPower stop ts).result = (first, rest)) :
    (readProduct stop ts).result = (readProductTail stop first rest).result := by
  obtain ⟨rfl, rfl⟩ := Prod.mk.inj hfirst
  rw [readProduct]
  rfl

theorem readProductTail_end
    (h : ∀ token ∈ ts.head?, ∀ op, token.lexeme = .operator op → op.isMultiplicative = false) :
    (readProductTail stop left ts).result = (left, ts) := by
  cases ts with
  | nil =>
    rw [readProductTail]
    rfl
  | cons token rest =>
    have hop := h token rfl
    rw [readProductTail]
    cases hl : token.lexeme <;> simp_all [Reading.result]

theorem readProductTail_unfinished (h : token.lexeme = .operator op)
    (hop : op.isMultiplicative = true) :
    (readProductTail stop left [token]).result = (unfinished op token.position left, []) := by
  rw [readProductTail]
  simp [h, hop, Reading.result]

theorem readProductTail_step {factor : Expr} (h : token.lexeme = .operator op)
    (hop : op.isMultiplicative = true) (hne : ts ≠ [])
    (hfactor : (readPower stop ts).result = (factor, rest)) :
    (readProductTail stop left (token :: ts)).result
      = (readProductTail stop (.binary op token.position left factor) rest).result := by
  obtain ⟨rfl, rfl⟩ := Prod.mk.inj hfactor
  rw [readProductTail]
  simp [h, hop, hne]

theorem readPower_plain {base : Expr} (hbase : (readSigned stop ts).result = (base, rest))
    (h : ∀ token ∈ rest.head?, token.lexeme ≠ .operator .power) :
    (readPower stop ts).result = (base, rest) := by
  rw [readPower]
  cases hr : readSigned stop ts with
  | mk tree after hle =>
    rw [hr] at hbase
    obtain ⟨rfl, rfl⟩ := Prod.mk.inj hbase
    cases after with
    | nil => rfl
    | cons token rest => simp [h token rfl, Reading.result]

theorem readPower_unfinished {base : Expr} (hbase : (readSigned stop ts).result = (base, [token]))
    (h : token.lexeme = .operator .power) :
    (readPower stop ts).result = (unfinished .power token.position base, []) := by
  rw [readPower]
  cases hr : readSigned stop ts with
  | mk tree after hle =>
    rw [hr] at hbase
    obtain ⟨rfl, rfl⟩ := Prod.mk.inj hbase
    simp [h, Reading.result]

theorem readPower_raised {base exponent : Expr} {more : List Token}
    (hbase : (readSigned stop ts).result = (base, token :: more))
    (h : token.lexeme = .operator .power) (hne : more ≠ [])
    (hexponent : (readPower stop more).result = (exponent, rest)) :
    (readPower stop ts).result = (.binary .power token.position base exponent, rest) := by
  obtain ⟨rfl, rfl⟩ := Prod.mk.inj hexponent
  rw [readPower]
  cases hr : readSigned stop ts with
  | mk tree after hle =>
    rw [hr] at hbase
    obtain ⟨rfl, rfl⟩ := Prod.mk.inj hbase
    simp [h, hne]

theorem readSigned_minus {operand : Expr} (h : token.lexeme = .operator .subtract)
    (hoperand : (readSigned stop ts).result = (operand, rest)) :
    (readSigned stop (token :: ts)).result = (.negate operand, rest) := by
  obtain ⟨rfl, rfl⟩ := Prod.mk.inj hoperand
  rw [readSigned]
  simp [h]

theorem readSigned_plus (h : token.lexeme = .operator .add) :
    (readSigned stop (token :: rest)).result = (readSigned stop rest).result := by
  rw [readSigned]
  simp [h]

theorem readSigned_unsigned
    (h : ∀ token ∈ ts.head?, token.lexeme ≠ .operator .subtract ∧ token.lexeme ≠ .operator .add) :
    (readSigned stop ts).result = (readOperand stop ts).result := by
  cases ts with
  | nil => rw [readSigned]
  | cons token rest =>
    rw [readSigned]
    simp [h token rfl]

theorem readOperand_bare {atom : Expr} (hatom : (readAtom stop ts).result = (atom, rest))
    (h : ∀ token ∈ rest.head?, ∀ u, token.lexeme ≠ .unit u) :
    (readOperand stop ts).result = (atom, rest) := by
  rw [readOperand]
  cases hr : readAtom stop ts with
  | mk tree after hle =>
    rw [hr] at hatom
    obtain ⟨rfl, rfl⟩ := Prod.mk.inj hatom
    cases after with
    | nil => rfl
    | cons token rest =>
      have hu := h token rfl
      cases hl : token.lexeme <;> simp_all [Reading.result]

theorem readOperand_inUnit {atom : Expr} {u : UnitSuffix}
    (hatom : (readAtom stop ts).result = (atom, token :: rest))
    (h : token.lexeme = .unit u) :
    (readOperand stop ts).result = (.inUnit u token.position atom, rest) := by
  rw [readOperand]
  cases hr : readAtom stop ts with
  | mk tree after hle =>
    rw [hr] at hatom
    obtain ⟨rfl, rfl⟩ := Prod.mk.inj hatom
    simp [h, Reading.result]

theorem readClosing_result {n : Nat} {cause : Cause} {position : Nat} {wrap : Expr → Expr}
    {inner : Reading n} {e : Expr} (hinner : inner.result = (e, token :: rest))
    (h : token.lexeme = .closing) :
    (readClosing cause position wrap inner).result = (wrap e, rest) := by
  obtain ⟨tree, after, hle⟩ := inner
  obtain ⟨rfl, rfl⟩ := Prod.mk.inj hinner
  simp [readClosing, h, Reading.result]

theorem readClosing_unclosed {n : Nat} {cause : Cause} {position : Nat} {wrap : Expr → Expr}
    {inner : Reading n} {e : Expr} (hinner : inner.result = (e, rest))
    (h : ∀ token ∈ rest.head?, token.lexeme ≠ .closing) :
    (readClosing cause position wrap inner).result = (.thenStray e cause position, []) := by
  obtain ⟨tree, after, hle⟩ := inner
  obtain ⟨rfl, rfl⟩ := Prod.mk.inj hinner
  cases after with
  | nil => rfl
  | cons token rest => simp [readClosing, h token rfl, Reading.result]

theorem readAtom_number {numeral : Numeral} (h : token.lexeme = .number numeral) :
    (readAtom stop (token :: rest)).result = (.number numeral, rest) := by
  rw [readAtom]
  simp [h, Reading.result]

theorem readAtom_answer (h : token.lexeme = .answer) :
    (readAtom stop (token :: rest)).result = (.answer, rest) := by
  rw [readAtom]
  simp [h, Reading.result]

theorem readAtom_named {name : String} (h : token.lexeme = .variable name) :
    (readAtom stop (token :: rest)).result = (.variable name token.position, rest) := by
  rw [readAtom]
  simp [h, Reading.result]

theorem readAtom_call {f : Builtin} {opening closing : Token} {inside : List Token}
    {argument : Expr} (h : token.lexeme = .function f) (ho : opening.lexeme = .opening)
    (hinside : (readSum stop inside).result = (argument, closing :: rest))
    (hc : closing.lexeme = .closing) :
    (readAtom stop (token :: opening :: inside)).result
      = (.call f token.position argument, rest) := by
  rw [readAtom]
  simpa [h, ho] using readClosing_result hinside hc

theorem readAtom_group {opening closing : Token} {inside : List Token} {inner : Expr}
    (ho : opening.lexeme = .opening)
    (hinside : (readSum stop inside).result = (inner, closing :: rest))
    (hc : closing.lexeme = .closing) :
    (readAtom stop (opening :: inside)).result = (inner, rest) := by
  rw [readAtom]
  simp only [ho, Reading.result_relax]
  exact readClosing_result hinside hc

/-! ## Faults of atoms -/

/-- Whether an atom may start with a lexeme. -/
def Lexeme.startsAtom : Lexeme → Bool
  | .number _ | .answer | .variable _ | .function _ | .opening => true
  | _ => false

theorem readAtom_ended : (readAtom stop []).result = (.missing .unexpectedEnd stop, []) := by
  rw [readAtom]
  rfl

theorem readAtom_unexpected (h : token.lexeme.startsAtom = false) :
    (readAtom stop (token :: rest)).result
      = (.missing (.unexpectedToken token.lexeme.text) token.position, []) := by
  rw [readAtom]
  cases hl : token.lexeme <;> simp_all [Lexeme.startsAtom, Reading.result]

theorem readAtom_unopened {f : Builtin} (h : token.lexeme = .function f)
    (ho : ∀ next ∈ rest.head?, next.lexeme ≠ .opening) :
    (readAtom stop (token :: rest)).result
      = (.missing (.expectedParenthesis f.text) token.position, []) := by
  rw [readAtom]
  cases rest with
  | nil => simp [h, Reading.result]
  | cons next inside => simp [h, ho next rfl, Reading.result]

theorem readAtom_callUnclosed {f : Builtin} {opening : Token} {inside : List Token}
    {argument : Expr} (h : token.lexeme = .function f) (ho : opening.lexeme = .opening)
    (hinside : (readSum stop inside).result = (argument, rest))
    (hc : ∀ closing ∈ rest.head?, closing.lexeme ≠ .closing) :
    (readAtom stop (token :: opening :: inside)).result
      = (.thenStray argument .expectedClosingParen token.position, []) := by
  rw [readAtom]
  simpa [h, ho] using readClosing_unclosed hinside hc

theorem readAtom_groupUnclosed {opening : Token} {inside : List Token} {inner : Expr}
    (ho : opening.lexeme = .opening) (hinside : (readSum stop inside).result = (inner, rest))
    (hc : ∀ closing ∈ rest.head?, closing.lexeme ≠ .closing) :
    (readAtom stop (opening :: inside)).result
      = (.thenStray inner .unmatchedParenthesis opening.position, []) := by
  rw [readAtom]
  simp only [ho, Reading.result_relax]
  exact readClosing_unclosed hinside hc

/-! ## Lines -/

theorem ofTokens_complete {e : Expr} (h : (readSum stop ts).result = (e, [])) :
    Expr.ofTokens ts stop = e := by
  simp only [Expr.ofTokens, Reading.tree_of_result h, Reading.rest_of_result h]

theorem ofTokens_stray {e : Expr} (h : (readSum stop ts).result = (e, token :: rest)) :
    Expr.ofTokens ts stop = .thenStray e (.unexpectedToken token.lexeme.text) token.position := by
  simp only [Expr.ofTokens, Reading.tree_of_result h, Reading.rest_of_result h]

end Reckoner
