import Mathlib
import Reckoner.Proofs.Grammar.Course
import Reckoner.Proofs.Grammar.Row

/-!
# One pass, or a tree and then its value

A line of tokens is read to a tree and the tree is evaluated; or its tokens are put into a row
(`Row.ofTokens`) and gone through in one pass, which evaluates as it reads. Both come to the same
value or the same failure (`Row.value_ofTokens`), and so does each rule by itself, at any index of
a row that may hold more than the one line (`Row.eventually_walk_eq`).

The walk takes the same turns as the reader. `Course` has a constructor for each turn that a rule
can take, and below there is a lemma about the walk for each, so that `Course.isWalked` is an
induction on the course. The one difference is when a fault of the grammar is found: it is a node of
the tree on the one side and ends the walk on the other. That it is reported at the same time all
the same is because trees are evaluated from left to right, and because a rule that finds a fault
leaves no tokens to the rules around it.

`Row.walk_spec` puts this together with what `Reckoner.Proofs.Grammar.Row` says of rows that hold
anything.
-/

namespace Reckoner

variable {α β : Type}

/-! ## Outcomes and walks -/

namespace Walk

theorem ofOutcome_injective : Function.Injective (ofOutcome (α := α)) := by
  intro a b h
  have hrun : a.mapError Halt.failed = b.mapError Halt.failed := Option.some.inj h
  cases a <;> cases b <;> simp_all [Except.mapError]

theorem ofOutcome_bind (outcome : Except Failure α) (next : α → Except Failure β) :
    ofOutcome (outcome >>= next) = ofOutcome outcome >>= fun a => ofOutcome (next a) := by
  cases outcome <;> rfl

theorem ofOutcome_map (outcome : Except Failure α) (f : α → β) :
    ofOutcome (outcome.map f) = ofOutcome outcome >>= fun a => pure (f a) := by
  cases outcome <;> rfl

/-- What a walk ends with at all depths from some on is the outcome that it reaches. -/
theorem Reaches.outcome_eq {n : ℕ} {walk : ℕ → Walk α} {outcome outcome' : Except Failure α}
    (h : Reaches n walk outcome)
    (heventually : ∀ᶠ depth in Filter.atTop, walk depth = .ofOutcome outcome') :
    outcome = outcome' := by
  obtain ⟨depth, hdepth, hle⟩ := (heventually.and (Filter.eventually_ge_atTop n)).exists
  exact ofOutcome_injective ((h.of_le depth hle).symm.trans hdepth)

end Walk

/-! ## Tokens in a row -/

namespace Lexeme

variable {answer : Decimal} {lexeme : Lexeme}

theorem kind_eq_opening : lexeme.kind answer = .opening ↔ lexeme = .opening := by
  cases lexeme <;> simp [kind]

theorem kind_eq_closing : lexeme.kind answer = .closing ↔ lexeme = .closing := by
  cases lexeme <;> simp [kind]

theorem kind_eq_unit {u : UnitSuffix} : lexeme.kind answer = .unit u ↔ lexeme = .unit u := by
  cases lexeme <;> simp [kind]

theorem kind_ne_lineEnd : lexeme.kind answer ≠ .lineEnd := by
  cases lexeme <;> exact Kind.noConfusion

end Lexeme

/-- The item that a line of tokens begins with. -/
def Item.front (answer : Decimal) (stop : ℕ) : List Token → Item
  | [] => .endOfLine stop
  | token :: _ => token.item answer

variable {ctx : Context} {env : Environment} {row behind : Row} {stop i j : ℕ} {token : Token}
  {ts rest : List Token} {signs : String}

/-- An operator among signs is one whose symbol is among them. -/
theorem Token.isOperator_item {op : Operator} (answer : Decimal)
    (h : token.lexeme = .operator op) :
    (token.item answer).isOperator signs = decide (op.symbol ∈ signs.toList) := by
  rw [item, h, Item.isOperator, Bool.eq_iff_iff]
  simp [Lexeme.kind, Lexeme.text, List.isInfixOf_internal_iff_isInfix, List.singleton_infix_iff]

/-- An operator is the one with its own symbol. -/
theorem Token.isOperator_item_self {op : Operator} (answer : Decimal)
    (h : token.lexeme = .operator op) (hsigns : signs.toList = [op.symbol]) :
    (token.item answer).isOperator signs = true := by
  rw [isOperator_item answer h, hsigns]
  exact decide_eq_true (List.mem_singleton_self _)

namespace Item

/-- What no line begins with, its first item is not. -/
theorem isOperator_front_eq_false (answer : Decimal) (stop : ℕ)
    (h : ∀ token ∈ ts.head?, ∀ op, token.lexeme = .operator op → op.symbol ∉ signs.toList) :
    (front answer stop ts).isOperator signs = false := by
  cases ts with
  | nil => rfl
  | cons token rest =>
    cases hlexeme : token.lexeme with
    | operator op =>
      rw [front, Token.isOperator_item answer hlexeme]
      exact decide_eq_false (h token rfl op hlexeme)
    | _ => simp [front, Token.item, isOperator, hlexeme, Lexeme.kind]

theorem isOperator_front_of_ne {op : Operator} (answer : Decimal) (stop : ℕ)
    (h : ∀ token ∈ ts.head?, token.lexeme ≠ .operator op) (hsigns : signs.toList = [op.symbol]) :
    (front answer stop ts).isOperator signs = false := by
  refine isOperator_front_eq_false answer stop fun token htoken op' hop' hmem => ?_
  have hsymbol : op'.symbol = op.symbol := List.mem_singleton.mp (hsigns ▸ hmem)
  have hop : some op' = some op := by
    rw [← Operator.ofChar?_symbol, hsymbol, Operator.ofChar?_symbol]
  exact h token htoken (Option.some.inj hop ▸ hop')

end Item

/-- What no line begins with, its first item is not of that kind. -/
theorem Item.kind_front_ne {answer : Decimal} {kind : Kind} (hkind : kind ≠ .lineEnd)
    (h : ∀ token ∈ ts.head?, token.lexeme.kind answer ≠ kind) :
    (front answer stop ts).kind ≠ kind := by
  cases ts with
  | nil => exact hkind.symm
  | cons token rest => exact h token rfl

namespace Row

/-- **Tokens stand in a row** from the index `i` on, and with them the end of their line and
whatever is behind it. -/
def Stands (row behind : Row) (answer : Decimal) (stop i : ℕ) (ts : List Token) : Prop :=
  row.drop i = ofTokens answer ts stop ++ behind

theorem Stands.itemAt (h : row.Stands behind env.answer stop i ts) :
    row.itemAt i = pure (.front env.answer stop ts) := by
  have hfront : row[i]? = some (.front env.answer stop ts) := by
    rw [← List.head?_drop, h]
    cases ts <;> rfl
  rw [Row.itemAt, hfront]

theorem Stands.tail (h : row.Stands behind env.answer stop i (token :: ts)) :
    row.Stands behind env.answer stop (i + 1) ts := by
  rw [Stands, ← List.drop_drop, h]
  rfl

theorem Stands.of_suffix (h : row.Stands behind env.answer stop i ts) (hrest : rest <:+ ts) :
    ∃ j, row.Stands behind env.answer stop j rest := by
  obtain ⟨front, rfl⟩ := hrest
  refine ⟨i + front.length, ?_⟩
  rw [Stands, ← List.drop_drop, h]
  simp [ofTokens]

/-! ### Operators in front -/

theorem checkOperand_of_stands (h : row.Stands behind env.answer stop i (token :: ts))
    (hne : ts ≠ []) : row.checkOperand i = pure () := by
  obtain ⟨next, more, rfl⟩ := List.exists_cons_of_ne_nil hne
  rw [checkOperand, h.tail.itemAt]
  exact if_neg Lexeme.kind_ne_lineEnd

theorem checkOperand_unfinished (h : row.Stands behind env.answer stop i [token]) :
    row.checkOperand i = .fail .unfinishedExpression token.position := by
  rw [checkOperand, h.tail.itemAt, h.itemAt]
  rfl

end Row

theorem Chain.operator_text {chain : Chain} {op : Operator} (h : op.symbol ∈ chain.signs.toList) :
    chain.operator op.symbol.toString = op := by
  cases chain <;> cases op <;> first | rfl | exact absurd h (by decide)

theorem Chain.symbol_mem_signs_sum {op : Operator} :
    op.symbol ∈ Chain.sum.signs.toList ↔ op.isAdditive = true := by
  cases op <;> decide

theorem Chain.symbol_mem_signs_product {op : Operator} :
    op.symbol ∈ Chain.product.signs.toList ↔ op.isMultiplicative = true := by
  cases op <;> decide

/-! ## The turns of a walk

One lemma for each way a rule can go on, beside those of `Reckoner.Proofs.Grammar.Steps`. -/

namespace Row

section

variable {call : Call → ℕ → Walk (Decimal × ℕ)} {chain : Chain} {op : Operator} {mid : ℕ}

theorem chainAt_eq {first : Expr} {tail : Expr → Expr}
    (hfirst : call (.rule chain.link) i = .ofOutcome ((first.eval ctx env).map (·, mid)))
    (htail : (Walk.ofOutcome (first.eval ctx env) >>= fun x => call (.rest chain x) mid)
      = .ofOutcome (((tail first).eval ctx env).map (·, j))) :
    chainAt call chain i = .ofOutcome (((tail first).eval ctx env).map (·, j)) := by
  rw [chainAt, hfirst, Walk.ofOutcome_map, bind_assoc, ← htail]
  simp only [pure_bind]

theorem restAt_end (h : row.Stands behind env.answer stop i ts)
    (hend : ∀ token ∈ ts.head?, ∀ op, token.lexeme = .operator op →
      op.symbol ∉ chain.signs.toList) (left : Expr) :
    (Walk.ofOutcome (left.eval ctx env) >>= fun x => row.restAt ctx call chain x i)
      = .ofOutcome ((left.eval ctx env).map (·, i)) := by
  rw [Walk.ofOutcome_map]
  refine bind_congr fun x => ?_
  rw [restAt, h.itemAt, pure_bind, Item.isOperator_front_eq_false _ _ hend]
  rfl

theorem restAt_unfinished (h : row.Stands behind env.answer stop i [token])
    (hlexeme : token.lexeme = .operator op) (hop : op.symbol ∈ chain.signs.toList) (left : Expr) :
    (Walk.ofOutcome (left.eval ctx env) >>= fun x => row.restAt ctx call chain x i)
      = .ofOutcome (((unfinished op token.position left).eval ctx env).map (·, j)) := by
  rw [unfinished, Expr.eval, Walk.ofOutcome_map, Walk.ofOutcome_bind, bind_assoc]
  refine bind_congr fun x => ?_
  rw [restAt, h.itemAt, pure_bind, Item.front, Token.isOperator_item _ hlexeme, decide_eq_true hop,
    if_pos rfl, checkOperand_unfinished h]
  rfl

theorem restAt_step {term : Expr} {tail : Expr → Expr}
    (h : row.Stands behind env.answer stop i (token :: ts))
    (hlexeme : token.lexeme = .operator op) (hop : op.symbol ∈ chain.signs.toList) (hne : ts ≠ [])
    (hterm : call (.rule chain.link) (i + 1) = .ofOutcome ((term.eval ctx env).map (·, mid)))
    (htail : ∀ left : Expr,
      (Walk.ofOutcome (left.eval ctx env) >>= fun x => call (.rest chain x) mid)
        = .ofOutcome (((tail left).eval ctx env).map (·, j))) (left : Expr) :
    (Walk.ofOutcome (left.eval ctx env) >>= fun x => row.restAt ctx call chain x i)
      = .ofOutcome (((tail (.binary op token.position left term)).eval ctx env).map (·, j)) := by
  have htext : (token.item env.answer).text = op.symbol.toString := by
    rw [Token.item, hlexeme]
    rfl
  rw [← htail, Expr.eval, Walk.ofOutcome_bind, bind_assoc]
  refine bind_congr fun x => ?_
  rw [restAt, h.itemAt, pure_bind, Item.front, Token.isOperator_item _ hlexeme, decide_eq_true hop,
    if_pos rfl, checkOperand_of_stands h hne, pure_bind, hterm, htext, Chain.operator_text hop,
    Walk.ofOutcome_map, Walk.ofOutcome_bind, bind_assoc, bind_assoc]
  simp only [pure_bind]
  rfl

theorem powerAt_plain {base : Expr}
    (hbase : call (.rule .signed) i = .ofOutcome ((base.eval ctx env).map (·, j)))
    (h : row.Stands behind env.answer stop j ts)
    (hplain : ∀ token ∈ ts.head?, token.lexeme ≠ .operator .power) :
    row.powerAt ctx call i = .ofOutcome ((base.eval ctx env).map (·, j)) := by
  have hfront : (Item.front env.answer stop ts).isOperator "^" = false :=
    Item.isOperator_front_of_ne _ _ hplain rfl
  rw [powerAt, hbase, Walk.ofOutcome_map, bind_assoc]
  simp only [pure_bind, h.itemAt, hfront]
  rfl

theorem powerAt_unfinished {base : Expr}
    (hbase : call (.rule .signed) i = .ofOutcome ((base.eval ctx env).map (·, mid)))
    (h : row.Stands behind env.answer stop mid [token])
    (hlexeme : token.lexeme = .operator .power) :
    row.powerAt ctx call i
      = .ofOutcome (((unfinished .power token.position base).eval ctx env).map (·, j)) := by
  have hfront : (token.item env.answer).isOperator "^" = true :=
    Token.isOperator_item_self _ hlexeme rfl
  rw [powerAt, hbase, unfinished, Expr.eval]
  simp only [Walk.ofOutcome_map, Walk.ofOutcome_bind, bind_assoc, pure_bind, h.itemAt, Item.front,
    hfront, if_true, checkOperand_unfinished h]
  rfl

theorem powerAt_raised {base exponent : Expr}
    (hbase : call (.rule .signed) i = .ofOutcome ((base.eval ctx env).map (·, mid)))
    (h : row.Stands behind env.answer stop mid (token :: ts))
    (hlexeme : token.lexeme = .operator .power) (hne : ts ≠ [])
    (hexponent : call (.rule .power) (mid + 1) = .ofOutcome ((exponent.eval ctx env).map (·, j))) :
    row.powerAt ctx call i = .ofOutcome
      (((Expr.binary .power token.position base exponent).eval ctx env).map (·, j)) := by
  have hfront : (token.item env.answer).isOperator "^" = true :=
    Token.isOperator_item_self _ hlexeme rfl
  rw [powerAt, hbase, Expr.eval]
  simp only [Walk.ofOutcome_map, Walk.ofOutcome_bind, bind_assoc, pure_bind, h.itemAt, Item.front,
    hfront, if_true, checkOperand_of_stands h hne, hexponent]
  rfl

theorem signedAt_minus {operand : Expr} (h : row.Stands behind env.answer stop i (token :: ts))
    (hlexeme : token.lexeme = .operator .subtract)
    (hoperand : call (.rule .signed) (i + 1) = .ofOutcome ((operand.eval ctx env).map (·, j))) :
    row.signedAt call i = .ofOutcome ((operand.negate.eval ctx env).map (·, j)) := by
  have hfront : (token.item env.answer).isOperator "-" = true :=
    Token.isOperator_item_self _ hlexeme rfl
  rw [signedAt, h.itemAt, pure_bind, Item.front, hfront, if_pos rfl, hoperand, Expr.eval]
  simp only [Walk.ofOutcome_map, bind_assoc, pure_bind]

theorem signedAt_plus (h : row.Stands behind env.answer stop i (token :: ts))
    (hlexeme : token.lexeme = .operator .add) :
    row.signedAt call i = call (.rule .signed) (i + 1) := by
  rw [signedAt, h.itemAt, pure_bind, Item.front, Token.isOperator_item _ hlexeme,
    Token.isOperator_item _ hlexeme]
  rfl

theorem signedAt_unsigned (h : row.Stands behind env.answer stop i ts)
    (hsign : ∀ token ∈ ts.head?,
      token.lexeme ≠ .operator .subtract ∧ token.lexeme ≠ .operator .add) :
    row.signedAt call i = call (.rule .operand) i := by
  have hminus : (Item.front env.answer stop ts).isOperator "-" = false :=
    Item.isOperator_front_of_ne _ _ (fun token htoken => (hsign token htoken).1) rfl
  have hplus : (Item.front env.answer stop ts).isOperator "+" = false :=
    Item.isOperator_front_of_ne _ _ (fun token htoken => (hsign token htoken).2) rfl
  rw [signedAt, h.itemAt, pure_bind, hminus, hplus]
  rfl

theorem operandAt_bare {atom : Expr}
    (hatom : call (.rule .atom) i = .ofOutcome ((atom.eval ctx env).map (·, j)))
    (h : row.Stands behind env.answer stop j ts)
    (hbare : ∀ token ∈ ts.head?, ∀ u, token.lexeme ≠ .unit u) :
    row.operandAt call i = .ofOutcome ((atom.eval ctx env).map (·, j)) := by
  have hfront (u : UnitSuffix) : (Item.front env.answer stop ts).kind ≠ .unit u :=
    Item.kind_front_ne Kind.noConfusion fun token htoken =>
      mt Lexeme.kind_eq_unit.mp (hbare token htoken u)
  rw [operandAt, hatom, Walk.ofOutcome_map, bind_assoc]
  refine bind_congr fun x => ?_
  rw [pure_bind]
  show (do
    let item ← row.itemAt j
    _) = _
  rw [h.itemAt, pure_bind]
  split
  · exact absurd ‹_› (hfront _)
  · rfl

theorem operandAt_inUnit {atom : Expr} {u : UnitSuffix}
    (hatom : call (.rule .atom) i = .ofOutcome ((atom.eval ctx env).map (·, mid)))
    (h : row.Stands behind env.answer stop mid (token :: ts)) (hlexeme : token.lexeme = .unit u) :
    row.operandAt call i
      = .ofOutcome (((Expr.inUnit u token.position atom).eval ctx env).map (·, mid + 1)) := by
  have hfront : (token.item env.answer).kind = .unit u := Lexeme.kind_eq_unit.mpr hlexeme
  rw [operandAt, hatom, Expr.eval]
  simp only [Walk.ofOutcome_map, Walk.ofOutcome_bind, bind_assoc, pure_bind, h.itemAt, Item.front,
    hfront]
  rfl

theorem enclosedAt_closed {inner : Expr} (cause : Cause) (position : ℕ)
    (hinner : call (.rule .sum) i = .ofOutcome ((inner.eval ctx env).map (·, mid)))
    (h : row.Stands behind env.answer stop mid (token :: ts)) (hlexeme : token.lexeme = .closing) :
    row.enclosedAt call cause position i = .ofOutcome ((inner.eval ctx env).map (·, mid + 1)) := by
  have hfront : (token.item env.answer).kind = .closing := Lexeme.kind_eq_closing.mpr hlexeme
  rw [enclosedAt, hinner]
  simp only [Walk.ofOutcome_map, bind_assoc, pure_bind, h.itemAt, Item.front, hfront, if_true]

theorem enclosedAt_unclosed {inner : Expr} (cause : Cause) (position : ℕ)
    (hinner : call (.rule .sum) i = .ofOutcome ((inner.eval ctx env).map (·, mid)))
    (h : row.Stands behind env.answer stop mid ts)
    (hunclosed : ∀ token ∈ ts.head?, token.lexeme ≠ .closing) :
    row.enclosedAt call cause position i
      = .ofOutcome (((Expr.thenStray inner cause position).eval ctx env).map (·, j)) := by
  have hfront : (Item.front env.answer stop ts).kind ≠ .closing :=
    Item.kind_front_ne Kind.noConfusion fun token htoken =>
      mt Lexeme.kind_eq_closing.mp (hunclosed token htoken)
  rw [enclosedAt, hinner, Expr.eval]
  simp only [Walk.ofOutcome_map, Walk.ofOutcome_bind, bind_assoc, pure_bind, h.itemAt,
    if_neg hfront]
  rfl

theorem atomAt_number {numeral : Numeral} (h : row.Stands behind env.answer stop i (token :: ts))
    (hlexeme : token.lexeme = .number numeral) :
    row.atomAt ctx env call i
      = .ofOutcome (((Expr.number numeral).eval ctx env).map (·, i + 1)) := by
  rw [atomAt, h.itemAt, pure_bind, Item.front, Token.item, hlexeme]
  rfl

theorem atomAt_answer (h : row.Stands behind env.answer stop i (token :: ts))
    (hlexeme : token.lexeme = .answer) :
    row.atomAt ctx env call i = .ofOutcome ((Expr.answer.eval ctx env).map (·, i + 1)) := by
  rw [atomAt, h.itemAt, pure_bind, Item.front, Token.item, hlexeme]
  rfl

theorem atomAt_named {name : String} (h : row.Stands behind env.answer stop i (token :: ts))
    (hlexeme : token.lexeme = .variable name) :
    row.atomAt ctx env call i
      = .ofOutcome (((Expr.variable name token.position).eval ctx env).map (·, i + 1)) := by
  rw [atomAt, h.itemAt, pure_bind, Item.front, Token.item, hlexeme, Expr.eval]
  simp only [Lexeme.kind, Lexeme.text]
  cases env.lookup name <;> rfl

/-- A function goes on to the parenthesis and what is in it. -/
theorem atomAt_function {f : Builtin} {opening : Token}
    (h : row.Stands behind env.answer stop i (token :: opening :: ts))
    (hlexeme : token.lexeme = .function f) (hopens : opening.lexeme = .opening) :
    row.atomAt ctx env call i
      = row.enclosedAt call .expectedClosingParen token.position (i + 2) >>= fun result =>
        .ofOutcome ((f.apply ctx token.position result.1).map (·, result.2)) := by
  have hopening : (opening.item env.answer).kind = .opening := Lexeme.kind_eq_opening.mpr hopens
  rw [atomAt, h.itemAt, pure_bind, Item.front, Token.item, hlexeme]
  show (do
    let opening ← row.itemAt (i + 1)
    _) = _
  rw [h.tail.itemAt, pure_bind, Item.front, if_pos hopening]
  refine bind_congr fun result => ?_
  rw [Walk.ofOutcome_map]
  show (Walk.ofOutcome (Builtin.applyNamed ctx f.text token.position result.1) >>= _) = _
  rw [Builtin.applyNamed, Builtin.ofText?_text]

theorem atomAt_unopened {f : Builtin} (h : row.Stands behind env.answer stop i (token :: ts))
    (hlexeme : token.lexeme = .function f)
    (hunopened : ∀ next ∈ ts.head?, next.lexeme ≠ .opening) :
    row.atomAt ctx env call i = .fail (.expectedParenthesis f.text) token.position := by
  have hfront : (Item.front env.answer stop ts).kind ≠ .opening :=
    Item.kind_front_ne Kind.noConfusion fun next hnext =>
      mt Lexeme.kind_eq_opening.mp (hunopened next hnext)
  rw [atomAt, h.itemAt, pure_bind, Item.front, Token.item, hlexeme]
  show (do
    let opening ← row.itemAt (i + 1)
    _) = _
  rw [h.tail.itemAt, pure_bind, if_neg hfront]
  rfl

theorem atomAt_opening (h : row.Stands behind env.answer stop i (token :: ts))
    (hlexeme : token.lexeme = .opening) :
    row.atomAt ctx env call i
      = row.enclosedAt call .unmatchedParenthesis token.position (i + 1) := by
  rw [atomAt, h.itemAt, pure_bind, Item.front, Token.item, hlexeme]
  rfl

theorem atomAt_ended (h : row.Stands behind env.answer stop i []) :
    row.atomAt ctx env call i = .fail .unexpectedEnd stop := by
  rw [atomAt, h.itemAt]
  rfl

theorem atomAt_unexpected (h : row.Stands behind env.answer stop i (token :: ts))
    (hstarts : token.lexeme.startsAtom = false) :
    row.atomAt ctx env call i = .fail (.unexpectedToken token.lexeme.text) token.position := by
  rw [atomAt, h.itemAt, pure_bind, Item.front, Token.item]
  cases hlexeme : token.lexeme <;> first | rfl | simp [hlexeme, Lexeme.startsAtom] at hstarts

end

end Row

/-! ## The walk along a course -/

/-- **Calls that go along with a tree** of a category, from the index `i` to the index `j`: they
give its value, or fail as its evaluation does. The rest of a chain goes on from the value of the
tree on the left. -/
def Category.IsWalked (ctx : Context) (env : Environment) (call : Call → ℕ → Walk (Decimal × ℕ))
    (i j : ℕ) : (c : Category) → c.Tree → Prop
  | .sum, e => call (.rule .sum) i = .ofOutcome ((e.eval ctx env).map (·, j))
  | .sumTail, tail => ∀ left : Expr,
    (Walk.ofOutcome (left.eval ctx env) >>= fun x => call (.rest .sum x) i)
      = .ofOutcome (((tail left).eval ctx env).map (·, j))
  | .product, e => call (.rule .product) i = .ofOutcome ((e.eval ctx env).map (·, j))
  | .productTail, tail => ∀ left : Expr,
    (Walk.ofOutcome (left.eval ctx env) >>= fun x => call (.rest .product x) i)
      = .ofOutcome (((tail left).eval ctx env).map (·, j))
  | .power, e => call (.rule .power) i = .ofOutcome ((e.eval ctx env).map (·, j))
  | .signed, e => call (.rule .signed) i = .ofOutcome ((e.eval ctx env).map (·, j))
  | .operand, e => call (.rule .operand) i = .ofOutcome ((e.eval ctx env).map (·, j))
  | .atom, e => call (.rule .atom) i = .ofOutcome ((e.eval ctx env).map (·, j))

open Filter (atTop eventually_atTop)

/-- What a call does by way of the calls of a walk is a call of a walk that is deeper by one. -/
theorem Category.eventually_isWalked {c : Category} {e : c.Tree}
    (h : ∀ᶠ depth in atTop,
      c.IsWalked ctx env (row.callAt ctx env (row.walk ctx env depth)) i j e) :
    ∀ᶠ depth in atTop, c.IsWalked ctx env (row.walk ctx env depth) i j e := by
  obtain ⟨n, hn⟩ := eventually_atTop.mp h
  refine eventually_atTop.mpr ⟨n + 1, fun depth hdepth => ?_⟩
  obtain ⟨below, rfl⟩ := Nat.exists_eq_add_of_le' (Nat.le_of_add_left_le hdepth)
  exact hn below (Nat.le_of_succ_le_succ hdepth)

/-- **The walk goes along with the reader**: over items of tokens it gives the value of the tree
that they are read to, and the index where the tokens stand that are left. -/
theorem Course.isWalked {c : Category} {e : c.Tree} (h : Course stop c ts e rest) (i : ℕ)
    (hi : row.Stands behind env.answer stop i ts) :
    ∃ j, row.Stands behind env.answer stop j rest
      ∧ ∀ᶠ depth in atTop, c.IsWalked ctx env (row.walk ctx env depth) i j e := by
  induction h generalizing i with
  | sum _ _ ihFirst ihTail =>
    obtain ⟨mid, hmid, hfirst⟩ := ihFirst i hi
    obtain ⟨j, hj, htail⟩ := ihTail mid hmid
    refine ⟨j, hj, Category.eventually_isWalked ?_⟩
    filter_upwards [hfirst, htail] with depth hfirst htail
    exact Row.chainAt_eq hfirst (htail _)
  | sumEnd not_additive =>
    refine ⟨i, hi, Category.eventually_isWalked (.of_forall fun depth => Row.restAt_end hi ?_)⟩
    intro token htoken op hop
    simp [Chain.symbol_mem_signs_sum, not_additive token htoken op hop]
  | sumUnfinished lexeme_eq additive =>
    exact ⟨i + 1, hi.tail, Category.eventually_isWalked (.of_forall fun depth =>
      Row.restAt_unfinished hi lexeme_eq (Chain.symbol_mem_signs_sum.mpr additive))⟩
  | sumStep lexeme_eq additive ne_nil _ _ ihTerm ihTail =>
    obtain ⟨mid, hmid, hterm⟩ := ihTerm (i + 1) hi.tail
    obtain ⟨j, hj, htail⟩ := ihTail mid hmid
    refine ⟨j, hj, Category.eventually_isWalked ?_⟩
    filter_upwards [hterm, htail] with depth hterm htail
    exact Row.restAt_step hi lexeme_eq (Chain.symbol_mem_signs_sum.mpr additive) ne_nil hterm htail
  | product _ _ ihFirst ihTail =>
    obtain ⟨mid, hmid, hfirst⟩ := ihFirst i hi
    obtain ⟨j, hj, htail⟩ := ihTail mid hmid
    refine ⟨j, hj, Category.eventually_isWalked ?_⟩
    filter_upwards [hfirst, htail] with depth hfirst htail
    exact Row.chainAt_eq hfirst (htail _)
  | productEnd not_multiplicative =>
    refine ⟨i, hi, Category.eventually_isWalked (.of_forall fun depth => Row.restAt_end hi ?_)⟩
    intro token htoken op hop
    simp [Chain.symbol_mem_signs_product, not_multiplicative token htoken op hop]
  | productUnfinished lexeme_eq multiplicative =>
    exact ⟨i + 1, hi.tail, Category.eventually_isWalked (.of_forall fun depth =>
      Row.restAt_unfinished hi lexeme_eq (Chain.symbol_mem_signs_product.mpr multiplicative))⟩
  | productStep lexeme_eq multiplicative ne_nil _ _ ihFactor ihTail =>
    obtain ⟨mid, hmid, hfactor⟩ := ihFactor (i + 1) hi.tail
    obtain ⟨j, hj, htail⟩ := ihTail mid hmid
    refine ⟨j, hj, Category.eventually_isWalked ?_⟩
    filter_upwards [hfactor, htail] with depth hfactor htail
    exact Row.restAt_step hi lexeme_eq (Chain.symbol_mem_signs_product.mpr multiplicative) ne_nil
      hfactor htail
  | plain _ not_power ih =>
    obtain ⟨j, hj, hbase⟩ := ih i hi
    refine ⟨j, hj, Category.eventually_isWalked ?_⟩
    filter_upwards [hbase] with depth hbase
    exact Row.powerAt_plain hbase hj not_power
  | powerUnfinished _ lexeme_eq ih =>
    obtain ⟨mid, hmid, hbase⟩ := ih i hi
    refine ⟨mid + 1, hmid.tail, Category.eventually_isWalked ?_⟩
    filter_upwards [hbase] with depth hbase
    exact Row.powerAt_unfinished hbase hmid lexeme_eq
  | raised _ lexeme_eq ne_nil _ ihBase ihExponent =>
    obtain ⟨mid, hmid, hbase⟩ := ihBase i hi
    obtain ⟨j, hj, hexponent⟩ := ihExponent (mid + 1) hmid.tail
    refine ⟨j, hj, Category.eventually_isWalked ?_⟩
    filter_upwards [hbase, hexponent] with depth hbase hexponent
    exact Row.powerAt_raised hbase hmid lexeme_eq ne_nil hexponent
  | minus lexeme_eq _ ih =>
    obtain ⟨j, hj, hoperand⟩ := ih (i + 1) hi.tail
    refine ⟨j, hj, Category.eventually_isWalked ?_⟩
    filter_upwards [hoperand] with depth hoperand
    exact Row.signedAt_minus hi lexeme_eq hoperand
  | plus lexeme_eq _ ih =>
    obtain ⟨j, hj, hoperand⟩ := ih (i + 1) hi.tail
    refine ⟨j, hj, Category.eventually_isWalked ?_⟩
    filter_upwards [hoperand] with depth hoperand
    exact (Row.signedAt_plus hi lexeme_eq).trans hoperand
  | unsigned not_sign _ ih =>
    obtain ⟨j, hj, hoperand⟩ := ih i hi
    refine ⟨j, hj, Category.eventually_isWalked ?_⟩
    filter_upwards [hoperand] with depth hoperand
    exact (Row.signedAt_unsigned hi not_sign).trans hoperand
  | bare _ not_unit ih =>
    obtain ⟨j, hj, hatom⟩ := ih i hi
    refine ⟨j, hj, Category.eventually_isWalked ?_⟩
    filter_upwards [hatom] with depth hatom
    exact Row.operandAt_bare hatom hj not_unit
  | inUnit _ lexeme_eq ih =>
    obtain ⟨mid, hmid, hatom⟩ := ih i hi
    refine ⟨mid + 1, hmid.tail, Category.eventually_isWalked ?_⟩
    filter_upwards [hatom] with depth hatom
    exact Row.operandAt_inUnit hatom hmid lexeme_eq
  | number lexeme_eq =>
    exact ⟨i + 1, hi.tail, Category.eventually_isWalked (.of_forall fun _ =>
      Row.atomAt_number hi lexeme_eq)⟩
  | answer lexeme_eq =>
    exact ⟨i + 1, hi.tail, Category.eventually_isWalked (.of_forall fun _ =>
      Row.atomAt_answer hi lexeme_eq)⟩
  | named lexeme_eq =>
    exact ⟨i + 1, hi.tail, Category.eventually_isWalked (.of_forall fun _ =>
      Row.atomAt_named hi lexeme_eq)⟩
  | call lexeme_eq opens _ closes ih =>
    obtain ⟨mid, hmid, hargument⟩ := ih (i + 2) hi.tail.tail
    refine ⟨mid + 1, hmid.tail, Category.eventually_isWalked ?_⟩
    filter_upwards [hargument] with depth hargument
    refine (Row.atomAt_function hi lexeme_eq opens).trans ?_
    rw [Row.enclosedAt_closed _ _ hargument hmid closes, Expr.eval]
    simp only [Walk.ofOutcome_map, Walk.ofOutcome_bind, bind_assoc, pure_bind]
  | callUnclosed lexeme_eq opens _ not_closing ih =>
    obtain ⟨mid, hmid, hargument⟩ := ih (i + 2) hi.tail.tail
    obtain ⟨j, hj⟩ := hi.of_suffix List.nil_suffix
    refine ⟨j, hj, Category.eventually_isWalked ?_⟩
    filter_upwards [hargument] with depth hargument
    refine (Row.atomAt_function hi lexeme_eq opens).trans ?_
    rw [Row.enclosedAt_unclosed (j := j) _ _ hargument hmid not_closing, Expr.eval]
    cases Expr.eval ctx env _ <;> rfl
  | unopened lexeme_eq not_opening =>
    obtain ⟨j, hj⟩ := hi.of_suffix List.nil_suffix
    exact ⟨j, hj, Category.eventually_isWalked (.of_forall fun _ =>
      Row.atomAt_unopened hi lexeme_eq not_opening)⟩
  | group opens _ closes ih =>
    obtain ⟨mid, hmid, hinner⟩ := ih (i + 1) hi.tail
    refine ⟨mid + 1, hmid.tail, Category.eventually_isWalked ?_⟩
    filter_upwards [hinner] with depth hinner
    exact (Row.atomAt_opening hi opens).trans (Row.enclosedAt_closed _ _ hinner hmid closes)
  | groupUnclosed opens _ not_closing ih =>
    obtain ⟨mid, hmid, hinner⟩ := ih (i + 1) hi.tail
    obtain ⟨j, hj⟩ := hi.of_suffix List.nil_suffix
    refine ⟨j, hj, Category.eventually_isWalked ?_⟩
    filter_upwards [hinner] with depth hinner
    exact (Row.atomAt_opening hi opens).trans (Row.enclosedAt_unclosed _ _ hinner hmid not_closing)
  | ended =>
    exact ⟨i, hi, Category.eventually_isWalked (.of_forall fun _ => Row.atomAt_ended hi)⟩
  | unexpected not_starts =>
    obtain ⟨j, hj⟩ := hi.of_suffix List.nil_suffix
    exact ⟨j, hj, Category.eventually_isWalked (.of_forall fun _ =>
      Row.atomAt_unexpected hi not_starts)⟩

/-! ## The rules -/

/-- What holds of some result of a reading holds of its tree and its rest. -/
theorem Reading.of_exists_result {n : ℕ} {r : Reading n} {P : Expr → List Token → Prop}
    (h : ∃ e rest, P e rest ∧ r.result = (e, rest)) : P r.tree r.rest := by
  obtain ⟨e, rest, hP, hresult⟩ := h
  obtain ⟨rfl, rfl⟩ := Prod.mk.inj hresult
  exact hP

/-- **The rule as it reads tokens**, up to the end of the line at `stop`. -/
def Rule.read (rule : Rule) (stop : ℕ) (ts : List Token) : Reading ts.length :=
  match rule with
  | sum => readSum stop ts
  | product => readProduct stop ts
  | power => readPower stop ts
  | signed => readSigned stop ts
  | operand => readOperand stop ts
  | atom => readAtom stop ts

namespace Row

/-- **From some depth on, a rule walks to the value of what it reads.** -/
theorem eventually_walk_eq (ctx : Context) (rule : Rule)
    (hi : row.Stands behind env.answer stop i ts) :
    ∃ j, row.Stands behind env.answer stop j (rule.read stop ts).rest
      ∧ ∀ᶠ depth in atTop, row.walk ctx env depth (.rule rule) i
        = .ofOutcome (((rule.read stop ts).tree.eval ctx env).map (·, j)) := by
  cases rule with
  | sum => exact (Reading.of_exists_result (exists_course_readSum stop ts)).isWalked i hi
  | product => exact (Reading.of_exists_result (exists_course_readProduct stop ts)).isWalked i hi
  | power => exact (Reading.of_exists_result (exists_course_readPower stop ts)).isWalked i hi
  | signed => exact (Reading.of_exists_result (exists_course_readSigned stop ts)).isWalked i hi
  | operand => exact (Reading.of_exists_result (exists_course_readOperand stop ts)).isWalked i hi
  | atom => exact (Reading.of_exists_result (exists_course_readAtom stop ts)).isWalked i hi

/-- **Rules stay inside the row and end**, wherever they start in it and whatever it holds, as long
as it ends with the end of a line. At a depth that is linear in the length of the row, a rule has
ended with a failure, or with a value and an index that is behind the one it started at and inside
the row. And where the items are those of tokens up to the end of their line, the value is that of
the tree which the rule reads from the tokens, and the index that of the tokens it leaves. -/
theorem walk_spec (ctx : Context) (env : Environment) (hrow : row.IsEnded) (rule : Rule)
    (hi : i < row.length) :
    ∃ outcome : Except Failure (Decimal × ℕ),
      Walk.Reaches (6 * (row.length - i) + 6) (fun depth => row.walk ctx env depth (.rule rule) i)
        outcome
      ∧ (∀ x next, outcome = .ok (x, next) → i < next ∧ next < row.length)
      ∧ ∀ ts stop behind, row.Stands behind env.answer stop i ts →
        ∃ next, row.Stands behind env.answer stop next (rule.read stop ts).rest
          ∧ outcome = ((rule.read stop ts).tree.eval ctx env).map (·, next) := by
  have hlooseness : rule.looseness ≤ 6 := by cases rule <;> decide
  obtain ⟨outcome, hwalk, hadvances⟩ := callsEnd_walk ctx env hrow
    (6 * (row.length - i) + 6) (.rule rule) i hi (Nat.add_le_add_left hlooseness _)
  refine ⟨outcome, hwalk, fun x next h => hadvances _ h, fun ts stop behind hstands => ?_⟩
  obtain ⟨next, hnext, heventually⟩ := eventually_walk_eq ctx rule hstands
  exact ⟨next, hnext, hwalk.outcome_eq heventually⟩

/-- A group is gone through up to the end of its line, whatever stands behind that. -/
theorem walk_spec_group :
    let row : Row := [⟨.opening, "(", 0⟩, ⟨.number (.ofNat 2), "2", 1⟩, ⟨.closing, ")", 2⟩,
      .endOfLine 3, ⟨.operator, "+", 4⟩, .endOfLine 5]
    let env : Environment := ⟨fun _ => none, .ofNat 0⟩
    row.IsEnded ∧ 0 < row.length
      ∧ Walk.Reaches 42 (fun depth => row.walk (.working 50) env depth (.rule .sum) 0)
        (.ok (.ofNat 2, 3)) := by
  intro row env
  have hrow : row.IsEnded := ⟨_, rfl, rfl⟩
  have hpos : 0 < row.length := by decide
  obtain ⟨outcome, hwalk, -⟩ := walk_spec (.working 50) env hrow .sum hpos
  have hvalue : row.walk (.working 50) env 42 (.rule .sum) 0 = .ofOutcome (.ok (.ofNat 2, 3)) := by
    rfl
  obtain rfl := Walk.ofOutcome_injective ((hwalk.of_le 42 le_rfl).symm.trans hvalue)
  exact ⟨hrow, hpos, hwalk⟩

theorem isEnded_ofTokens (answer : Decimal) (tokens : List Token) (stop : ℕ) :
    (ofTokens answer tokens stop).IsEnded :=
  ⟨.endOfLine stop, by simp [ofTokens], rfl⟩

/-- **The value of a line of tokens**, as it is gone through in one pass, is that of the expression
they are read to. -/
theorem value_ofTokens (ctx : Context) (env : Environment) (tokens : List Token) (stop : ℕ) :
    Walk.Reaches (6 * (tokens.length + 1) + 6) ((ofTokens env.answer tokens stop).value ctx env)
      ((Expr.ofTokens tokens stop).eval ctx env) := by
  have hstands : (ofTokens env.answer tokens stop).Stands [] env.answer stop 0 tokens :=
    (List.append_nil _).symm
  obtain ⟨outcome, hwalk, -⟩ := endsFrom_value ctx env
    (isEnded_ofTokens env.answer tokens stop)
  obtain ⟨j, hj, heventually⟩ := eventually_walk_eq ctx .sum hstands
  have hvalue : ∀ᶠ depth in atTop, (ofTokens env.answer tokens stop).value ctx env depth
      = .ofOutcome ((Expr.ofTokens tokens stop).eval ctx env) := by
    filter_upwards [heventually] with depth hdepth
    rw [value, valueBy, hdepth]
    change Stands _ _ _ _ _ (readSum stop tokens).rest at hj
    cases hrest : (readSum stop tokens).rest with
    | nil =>
      rw [hrest] at hj
      rw [ofTokens_complete (e := (readSum stop tokens).tree) (congrArg _ hrest),
        Walk.ofOutcome_map, bind_assoc]
      simp only [pure_bind, hj.itemAt, Item.front]
      exact bind_pure _
    | cons token rest =>
      rw [hrest] at hj
      rw [ofTokens_stray (e := (readSum stop tokens).tree) (congrArg _ hrest),
        Walk.ofOutcome_map, bind_assoc, Expr.eval, Walk.ofOutcome_bind]
      simp only [pure_bind, hj.itemAt, Item.front]
      exact bind_congr fun x => if_neg Lexeme.kind_ne_lineEnd
  obtain rfl := hwalk.outcome_eq hvalue
  simpa [ofTokens] using hwalk

end Row

end Reckoner
