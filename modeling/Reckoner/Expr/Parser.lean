import Reckoner.Expr.Basic

/-!
# Reading expressions

The grammar, from the loosest binding to the tightest:

* a *sum* is a row of products joined by `+` and `-`, grouped from the left;
* a *product* is a row of powers joined by `*`, `/` and `%`, grouped from the left;
* a *power* is a signed operand, or one raised to a power – so powers group from the right, and a
  sign binds tighter than `^`: `-2^2` is `4`;
* a *signed operand* is any number of signs before an operand;
* an *operand* is an atom, or an atom followed by a unit;
* an *atom* is a number, a variable, a sum in parentheses, or a function before one.

Each rule is a function from the tokens that are left to a tree and the tokens after it. The rest
is never longer than what was given (`Reading`), which is what makes the recursion end: a rule calls
another with fewer tokens, or with the same ones a tighter rule.

Reading never fails. Where a rule cannot go on, it gives a tree with a node for what is wrong
(`Expr.missing`, `Expr.thenStray`) and no tokens after it, so that all rules around it end as well.
-/

namespace Reckoner

/-- **A tree and the tokens after it**, of at most `bound` tokens. -/
structure Reading (bound : Nat) where
  tree : Expr
  rest : List Token
  rest_le : rest.length ≤ bound := by simp

namespace Reading

/-- The same reading where more tokens are allowed to be left. -/
def relax {m n : Nat} (r : Reading m) (h : m ≤ n) : Reading n :=
  ⟨r.tree, r.rest, Nat.le_trans r.rest_le h⟩

/-- The same rest after another tree. -/
def mapTree {n : Nat} (r : Reading n) (f : Expr → Expr) : Reading n :=
  ⟨f r.tree, r.rest, r.rest_le⟩

end Reading

/-- The operators that join products into a sum. -/
def Operator.isAdditive : Operator → Bool
  | .add | .subtract => true
  | _ => false

/-- The operators that join powers into a product. -/
def Operator.isMultiplicative : Operator → Bool
  | .multiply | .divide | .remainder => true
  | _ => false

/-- The node for an operator with nothing behind it: the line is not finished. -/
def unfinished (op : Operator) (position : Nat) (left : Expr) : Expr :=
  .binary op position left (.missing .unfinishedExpression position)

/-- The end of what was opened at `position`: a closing parenthesis takes the tree into `wrap`, and
without one the tree is followed by `cause`. -/
def readClosing {n : Nat} (cause : Cause) (position : Nat) (wrap : Expr → Expr) (inner : Reading n) :
    Reading n :=
  match inner with
  | ⟨tree, [], _⟩ => ⟨.thenStray tree cause position, [], Nat.zero_le _⟩
  | ⟨tree, token :: rest, h⟩ =>
    if token.lexeme = .closing then ⟨wrap tree, rest, Nat.le_of_succ_le h⟩
    else ⟨.thenStray tree cause position, [], Nat.zero_le _⟩

mutual

/-- A sum. The line ends at `stop`. -/
def readSum (stop : Nat) (ts : List Token) : Reading ts.length :=
  match readProduct stop ts with
  | ⟨first, rest, h⟩ => (readSumTail stop first rest).relax h
termination_by 8 * ts.length + 7

/-- The rest of a sum that begins with `left`. -/
def readSumTail (stop : Nat) (left : Expr) (ts : List Token) : Reading ts.length :=
  match ts with
  | [] => ⟨left, [], Nat.le_refl _⟩
  | token :: rest =>
    match token.lexeme with
    | .operator op =>
      if op.isAdditive then
        if rest.isEmpty then ⟨unfinished op token.position left, [], Nat.zero_le _⟩
        else
          match readProduct stop rest with
          | ⟨right, rest', h⟩ =>
            (readSumTail stop (.binary op token.position left right) rest').relax
              (Nat.le_succ_of_le h)
      else ⟨left, token :: rest, Nat.le_refl _⟩
    | _ => ⟨left, token :: rest, Nat.le_refl _⟩
termination_by 8 * ts.length + 6

/-- A product. -/
def readProduct (stop : Nat) (ts : List Token) : Reading ts.length :=
  match readPower stop ts with
  | ⟨first, rest, h⟩ => (readProductTail stop first rest).relax h
termination_by 8 * ts.length + 5

/-- The rest of a product that begins with `left`. -/
def readProductTail (stop : Nat) (left : Expr) (ts : List Token) : Reading ts.length :=
  match ts with
  | [] => ⟨left, [], Nat.le_refl _⟩
  | token :: rest =>
    match token.lexeme with
    | .operator op =>
      if op.isMultiplicative then
        if rest.isEmpty then ⟨unfinished op token.position left, [], Nat.zero_le _⟩
        else
          match readPower stop rest with
          | ⟨right, rest', h⟩ =>
            (readProductTail stop (.binary op token.position left right) rest').relax
              (Nat.le_succ_of_le h)
      else ⟨left, token :: rest, Nat.le_refl _⟩
    | _ => ⟨left, token :: rest, Nat.le_refl _⟩
termination_by 8 * ts.length + 4

/-- A power. -/
def readPower (stop : Nat) (ts : List Token) : Reading ts.length :=
  match readSigned stop ts with
  | ⟨base, [], _⟩ => ⟨base, [], Nat.zero_le _⟩
  | ⟨base, token :: rest, h⟩ =>
    if token.lexeme = .operator .power then
      if rest.isEmpty then ⟨unfinished .power token.position base, [], Nat.zero_le _⟩
      else
        ((readPower stop rest).mapTree (.binary .power token.position base)).relax
          (Nat.le_of_succ_le h)
    else ⟨base, token :: rest, h⟩
termination_by 8 * ts.length + 3

/-- An operand with signs before it. -/
def readSigned (stop : Nat) (ts : List Token) : Reading ts.length :=
  match ts with
  | [] => readOperand stop []
  | token :: rest =>
    if token.lexeme = .operator .subtract then
      ((readSigned stop rest).mapTree .negate).relax (Nat.le_succ _)
    else if token.lexeme = .operator .add then (readSigned stop rest).relax (Nat.le_succ _)
    else readOperand stop (token :: rest)
termination_by 8 * ts.length + 2

/-- An atom with or without a unit. -/
def readOperand (stop : Nat) (ts : List Token) : Reading ts.length :=
  match readAtom stop ts with
  | ⟨atom, [], _⟩ => ⟨atom, [], Nat.zero_le _⟩
  | ⟨atom, token :: rest, h⟩ =>
    match token.lexeme with
    | .unit u => ⟨.inUnit u token.position atom, rest, Nat.le_of_succ_le h⟩
    | _ => ⟨atom, token :: rest, h⟩
termination_by 8 * ts.length + 1

/-- An atom. -/
def readAtom (stop : Nat) (ts : List Token) : Reading ts.length :=
  match ts with
  | [] => ⟨.missing .unexpectedEnd stop, [], Nat.zero_le _⟩
  | token :: rest =>
    match token.lexeme with
    | .number numeral => ⟨.number numeral, rest, Nat.le_succ _⟩
    | .answer => ⟨.answer, rest, Nat.le_succ _⟩
    | .variable name => ⟨.variable name token.position, rest, Nat.le_succ _⟩
    | .function f =>
      match rest with
      | [] => ⟨.missing (.expectedParenthesis f.text) token.position, [], Nat.zero_le _⟩
      | next :: inside =>
        if next.lexeme = .opening then
          (readClosing .expectedClosingParen token.position (.call f token.position)
            (readSum stop inside)).relax (Nat.le_succ_of_le (Nat.le_succ _))
        else ⟨.missing (.expectedParenthesis f.text) token.position, [], Nat.zero_le _⟩
    | .opening =>
      (readClosing .unmatchedParenthesis token.position id (readSum stop rest)).relax
        (Nat.le_succ _)
    | lexeme => ⟨.missing (.unexpectedToken lexeme.text) token.position, [], Nat.zero_le _⟩
termination_by 8 * ts.length

end

/-- **The expression of a line of tokens** that ends at `stop`. A token behind a complete sum is a
stray one. -/
def Expr.ofTokens (tokens : List Token) (stop : Nat) : Expr :=
  let sum := readSum stop tokens
  match sum.rest with
  | [] => sum.tree
  | token :: _ => .thenStray sum.tree (.unexpectedToken token.lexeme.text) token.position

end Reckoner
