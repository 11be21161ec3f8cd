import Reckoner.Expr.Basic

/-!
# Reading and evaluating by index

The rules of `Reckoner.Expr.Parser` take the tokens that are left and give a tree, which is
evaluated afterwards. The same grammar can be gone through in one pass: the tokens stay where they
are, in a *row* that ends with a mark for the end of the line, and a rule takes the index of an
item and gives a value and the index behind what it has read.

This is how a line is evaluated by a machine, whose room for calls inside each other is limited.
Rules call each other by an index of which nothing is known, so a walk is given a depth that it may
not go beyond (`Row.walk`). Where the calls themselves take room, it ends where the room does
(`Row.walkWithin`). A walk that has not ended is no failure: nothing is known about its value.
-/

namespace Reckoner

/-! ## Rows -/

/-- **What kind of thing stands in a row.** A number carries its value, and a unit is one of those
that exist. Which operator, function or variable it is can be seen from the text only. -/
inductive Kind where
  | number (value : Decimal)
  | operator
  | opening
  | closing
  | function
  | unit (u : UnitSuffix)
  | variable
  | lineEnd
deriving DecidableEq

/-- **An item of a row**: what it is, its text, and where it stands in the line. -/
structure Item where
  kind : Kind
  text : String
  position : Nat
deriving DecidableEq

/-- Whether an item is an operator whose text occurs among the signs. -/
def Item.isOperator (item : Item) (signs : String) : Bool :=
  item.kind = .operator && item.text.toList.isInfixOf_internal signs.toList

/-- **A row of items.** -/
abbrev Row := List Item

/-! ## Walks -/

/-- Why a walk ends without a value. -/
inductive Halt where
  /-- There is no item at the index. -/
  | outside
  /-- The line is at fault, or the arithmetic gives a signal. -/
  | failed (failure : Failure)

/-- **A walk over a row**: it ends with a value or halts, or it has not ended yet. -/
abbrev Walk := ExceptT Halt Option

namespace Walk

variable {α : Type}

/-- The walk that has not ended. -/
def pending : Walk α := ExceptT.mk none

/-- Whether a walk has ended. -/
def hasEnded (walk : Walk α) : Bool := (show Option (Except Halt α) from walk).isSome

/-- The walk that ends at once, with a value or with a failure. -/
def ofOutcome (outcome : Except Failure α) : Walk α :=
  ExceptT.mk (some (outcome.mapError .failed))

/-- The walk that ends with a cause blamed on a position. -/
def fail (cause : Cause) (position : Nat) : Walk α := ofOutcome (.error (.at cause position))

end Walk

/-- **The rules**, from the loosest binding to the tightest. -/
inductive Rule where
  | sum
  | product
  | power
  | signed
  | operand
  | atom
deriving DecidableEq

/-- **How many calls of functions a rule takes.** A sum is an expression by itself, so there are
two. Calls that only look at an item are over before the next one, and are not counted. -/
def Rule.frames : Rule → Nat
  | sum => 2
  | _ => 1

/-- The two rules that read operands with operators between them. -/
inductive Chain where
  | sum
  | product

namespace Chain

/-- The operators between the operands. -/
def signs : Chain → String
  | sum => "+-"
  | product => "*/%"

/-- **The operator with a text.** The last one is told from the others by not being one of them. -/
def operator (text : String) : Chain → Operator
  | sum => if text = "+" then .add else .subtract
  | product => if text = "*" then .multiply else if text = "/" then .divide else .remainder

/-- The rule for the operands. -/
def link : Chain → Rule
  | sum => .product
  | product => .power

end Chain

/-- **What a rule may call**: a rule, or the rest of a chain whose operands so far have the value
`left`. -/
inductive Call where
  | rule (rule : Rule)
  | rest (chain : Chain) (left : Decimal)

/-- How many calls of functions a call takes. The rest of a chain is gone through in a loop. -/
def Call.frames : Call → Nat
  | rule r => r.frames
  | rest .. => 0

namespace Row

/-- The item at an index. -/
def itemAt (row : Row) (i : Nat) : Walk Item :=
  match row[i]? with
  | some item => pure item
  | none => throw .outside

/-- An operator right before the end of a line is one that the line breaks off at. -/
def checkOperand (row : Row) (i : Nat) : Walk Unit := do
  let behind ← row.itemAt (i + 1)
  if behind.kind = .lineEnd then
    let item ← row.itemAt i
    .fail .unfinishedExpression item.position

section

variable (ctx : Context) (env : Environment) (row : Row)
  (call : Call → Nat → Walk (Decimal × Nat))

/-- **A sum or a product.** -/
def chainAt (chain : Chain) (i : Nat) : Walk (Decimal × Nat) := do
  let (left, i) ← call (.rule chain.link) i
  call (.rest chain left) i

/-- **The rest of a chain.** -/
def restAt (chain : Chain) (left : Decimal) (i : Nat) : Walk (Decimal × Nat) := do
  let item ← row.itemAt i
  if item.isOperator chain.signs then
    row.checkOperand i
    let (right, next) ← call (.rule chain.link) (i + 1)
    let left ← .ofOutcome ((chain.operator item.text).apply ctx item.position left right)
    call (.rest chain left) next
  else pure (left, i)

/-- **A power.** -/
def powerAt (i : Nat) : Walk (Decimal × Nat) := do
  let (base, i) ← call (.rule .signed) i
  let item ← row.itemAt i
  if item.isOperator "^" then
    row.checkOperand i
    let (exponent, next) ← call (.rule .power) (i + 1)
    let value ← .ofOutcome (Operator.power.apply ctx item.position base exponent)
    pure (value, next)
  else pure (base, i)

/-- **An operand with signs before it.** -/
def signedAt (i : Nat) : Walk (Decimal × Nat) := do
  let item ← row.itemAt i
  if item.isOperator "-" then
    let (value, next) ← call (.rule .signed) (i + 1)
    pure (value.negate, next)
  else if item.isOperator "+" then call (.rule .signed) (i + 1)
  else call (.rule .operand) i

/-- **An atom with or without a unit.** -/
def operandAt (i : Nat) : Walk (Decimal × Nat) := do
  let (value, i) ← call (.rule .atom) i
  let item ← row.itemAt i
  match item.kind with
  | .unit u =>
    let value ← .ofOutcome (u.apply item.position value)
    pure (value, i + 1)
  | _ => pure (value, i)

/-- **A sum and the parenthesis behind it**; without one the cause is blamed on the position. -/
def enclosedAt (cause : Cause) (position : Nat) (i : Nat) : Walk (Decimal × Nat) := do
  let (value, last) ← call (.rule .sum) i
  let closing ← row.itemAt last
  if closing.kind = .closing then pure (value, last + 1)
  else .fail cause position

/-- **An atom.** -/
def atomAt (i : Nat) : Walk (Decimal × Nat) := do
  let item ← row.itemAt i
  match item.kind with
  | .number value => pure (value, i + 1)
  | .variable =>
    match env.lookup item.text with
    | some value => pure (value, i + 1)
    | none => .fail (.undefinedVariable item.text) item.position
  | .function =>
    let opening ← row.itemAt (i + 1)
    if opening.kind = .opening then
      let (argument, next) ← row.enclosedAt call .expectedClosingParen item.position (i + 2)
      let value ← .ofOutcome (Builtin.applyNamed ctx item.text item.position argument)
      pure (value, next)
    else .fail (.expectedParenthesis item.text) item.position
  | .opening => row.enclosedAt call .unmatchedParenthesis item.position (i + 1)
  | .lineEnd => .fail .unexpectedEnd item.position
  | _ => .fail (.unexpectedToken item.text) item.position

/-- **What a call does**, by way of other calls. -/
def callAt : Call → Nat → Walk (Decimal × Nat)
  | .rule .sum => chainAt call .sum
  | .rule .product => chainAt call .product
  | .rule .power => row.powerAt ctx call
  | .rule .signed => row.signedAt call
  | .rule .operand => row.operandAt call
  | .rule .atom => row.atomAt ctx env call
  | .rest chain left => row.restAt ctx call chain left

/-- **The value of a row**: that of the sum it begins with, if the line ends behind it. -/
def valueBy : Walk Decimal := do
  let (value, i) ← call (.rule .sum) 0
  let item ← row.itemAt i
  if item.kind = .lineEnd then pure value
  else .fail (.unexpectedToken item.text) item.position

end

section

variable (ctx : Context) (env : Environment) (row : Row)

/-- **A walk over the row** with calls inside each other down to a depth. -/
def walk : (depth : Nat) → Call → Nat → Walk (Decimal × Nat)
  | 0 => fun _ _ => .pending
  | depth + 1 => row.callAt ctx env (walk depth)

/-- The value of a row by walks down to a depth. -/
def value (depth : Nat) : Walk Decimal := row.valueBy (row.walk ctx env depth)

/-- **A walk in limited room**: each call has what its caller has left for it, and where the room
does not suffice there is no end. The depth bounds the loops as well, which take no room. -/
def walkWithin : (depth room : Nat) → Call → Nat → Walk (Decimal × Nat)
  | 0, _ => fun _ _ => .pending
  | depth + 1, room => fun c i =>
    if c.frames ≤ room then row.callAt ctx env (walkWithin depth (room - c.frames)) c i
    else .pending

/-- **The value of a row in limited room.** No walk goes deeper than there are rules at each
item. -/
def valueWithin (room : Nat) : Walk Decimal :=
  row.valueBy (row.walkWithin ctx env (6 * row.length + 6) room)

end

end Row

/-! ## Lines of tokens -/

/-- **The kind of a lexeme**; the last answer is a number like others. -/
def Lexeme.kind (answer : Decimal) : Lexeme → Kind
  | .number numeral => .number (.finite numeral.value)
  | .answer => .number answer
  | .operator _ => .operator
  | .opening => .opening
  | .closing => .closing
  | .function _ => .function
  | .unit u => .unit u
  | .variable _ => .variable

/-- The item of a token. -/
def Token.item (answer : Decimal) (token : Token) : Item :=
  ⟨token.lexeme.kind answer, token.lexeme.text, token.position⟩

/-- The mark for the end of a line. -/
def Item.endOfLine (stop : Nat) : Item := ⟨.lineEnd, "", stop⟩

/-- **The row of a line of tokens** that ends at `stop`. -/
def Row.ofTokens (answer : Decimal) (tokens : List Token) (stop : Nat) : Row :=
  tokens.map (·.item answer) ++ [.endOfLine stop]

end Reckoner
