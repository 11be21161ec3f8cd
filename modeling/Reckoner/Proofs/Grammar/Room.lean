import Mathlib
import Reckoner.Proofs.Grammar.RowReading

/-!
# Walks in limited room

A walk whose calls take room (`Row.walkWithin`) goes the same way as one without a limit, up to
where the room ends; there it gives up. So it gives up or comes to the same (`Walk.Abridges`), which
is passed on from the calls that a rule makes to the rule itself (`Row.abridges_callAt`), and with
two places for each step it never gives up (`Row.walkWithin_eq_walk`). Together: the value of a line
of tokens, found in limited room, is the value of its tree or none, and not none from some room on
(`Row.reaches_valueWithin`).

What takes the most room for its length is a parenthesis. All rules stand between one that is opened
and the next, so that `n` of them take `7 * n` places (`Row.walkWithin_openings`).
-/

namespace Reckoner

/-! ## Walks that give up -/

namespace Walk

variable {α β : Type} {walk walk' : Walk α}

/-- **A walk that gives up**, or else does the same as another. -/
def Abridges (walk walk' : Walk α) : Prop := walk = .pending ∨ walk = walk'

theorem Abridges.refl (walk : Walk α) : Abridges walk walk := .inr rfl

theorem pending_bind (next : α → Walk β) : (pending : Walk α) >>= next = pending := rfl

theorem Abridges.bind (h : Abridges walk walk') {next next' : α → Walk β}
    (hnext : ∀ a, Abridges (next a) (next' a)) : Abridges (walk >>= next) (walk' >>= next') := by
  obtain rfl | rfl := h
  · exact .inl (pending_bind next)
  · match walk with
    | none => exact .inl rfl
    | some (.error halt) => exact .inr rfl
    | some (.ok a) => exact hnext a

theorem Abridges.ite {c : Prop} [Decidable c] {other other' : Walk α} (h : Abridges walk walk')
    (hother : Abridges other other') :
    Abridges (if c then walk else other) (if c then walk' else other') := by
  split
  · exact h
  · exact hother

/-- What has ended has not given up. -/
theorem Abridges.eq_of_hasEnded (h : Abridges walk walk') (hended : walk.hasEnded = true) :
    walk = walk' := by
  obtain rfl | rfl := h
  · cases hended
  · rfl

end Walk

theorem Call.frames_le (c : Call) : c.frames ≤ 2 := by
  cases c with
  | rest chain left => exact Nat.zero_le 2
  | rule r => cases r <;> decide

namespace Row

variable {ctx : Context} {env : Environment} {row : Row} {i : ℕ}

/-! ## Calls that give up -/

section

variable {call call' : Call → ℕ → Walk (Decimal × ℕ)}
  (hcall : ∀ c i, Walk.Abridges (call c i) (call' c i))

include hcall

theorem abridges_enclosedAt (cause : Cause) (position i : ℕ) :
    Walk.Abridges (row.enclosedAt call cause position i)
      (row.enclosedAt call' cause position i) :=
  (hcall _ _).bind fun _ => .refl _

theorem abridges_atomAt (i : ℕ) :
    Walk.Abridges (row.atomAt ctx env call i) (row.atomAt ctx env call' i) := by
  refine (Walk.Abridges.refl _).bind fun item => ?_
  cases item.kind with
  | function =>
    refine (Walk.Abridges.refl _).bind fun opening => .ite ?_ (.refl _)
    exact (abridges_enclosedAt hcall _ _ _).bind fun _ => .refl _
  | opening => exact abridges_enclosedAt hcall _ _ _
  | _ => exact .refl _

/-- **A rule gives up where its calls do**, and otherwise comes to what it comes to with others. -/
theorem abridges_callAt (c : Call) (i : ℕ) :
    Walk.Abridges (row.callAt ctx env call c i) (row.callAt ctx env call' c i) := by
  have hchain (chain : Chain) : Walk.Abridges (chainAt call chain i) (chainAt call' chain i) :=
    (hcall _ _).bind fun _ => hcall _ _
  cases c with
  | rest chain left =>
    refine (Walk.Abridges.refl _).bind fun item => .ite ?_ (.refl _)
    refine (Walk.Abridges.refl _).bind fun _ => (hcall _ _).bind fun _ => ?_
    exact (Walk.Abridges.refl _).bind fun _ => hcall _ _
  | rule r =>
    cases r with
    | sum => exact hchain .sum
    | product => exact hchain .product
    | power =>
      refine (hcall _ _).bind fun _ => (Walk.Abridges.refl _).bind fun _ => .ite ?_ (.refl _)
      exact (Walk.Abridges.refl _).bind fun _ => (hcall _ _).bind fun _ => .refl _
    | signed =>
      refine (Walk.Abridges.refl _).bind fun _ => .ite ?_ (.ite (hcall _ _) (hcall _ _))
      exact (hcall _ _).bind fun _ => .refl _
    | operand => exact (hcall _ _).bind fun _ => .refl _
    | atom => exact abridges_atomAt hcall i

end

/-! ## Room -/

theorem walkWithin_succ (ctx : Context) (env : Environment) (row : Row) (depth room : ℕ) (c : Call)
    (i : ℕ) :
    row.walkWithin ctx env (depth + 1) room c i
      = if c.frames ≤ room then
          row.callAt ctx env (row.walkWithin ctx env depth (room - c.frames)) c i
        else .pending := rfl

/-- **A walk in limited room gives up**, or comes to what it comes to without a limit. -/
theorem abridges_walkWithin (ctx : Context) (env : Environment) (row : Row) (depth room : ℕ)
    (c : Call) (i : ℕ) :
    Walk.Abridges (row.walkWithin ctx env depth room c i) (row.walk ctx env depth c i) := by
  induction depth generalizing room c i with
  | zero => exact .inl rfl
  | succ depth ih =>
    rw [walkWithin_succ, walk]
    split
    · exact abridges_callAt (ih (room - c.frames)) c i
    · exact .inl rfl

/-- **With two places for each step** no walk gives up. -/
theorem walkWithin_eq_walk (ctx : Context) (env : Environment) (row : Row) {depth room : ℕ}
    (h : 2 * depth ≤ room) : row.walkWithin ctx env depth room = row.walk ctx env depth := by
  induction depth generalizing room with
  | zero => rfl
  | succ depth ih =>
    funext c i
    have hframes := c.frames_le
    rw [walkWithin_succ, if_pos (by omega), ih (by omega)]
    rfl

theorem abridges_valueBy {call call' : Call → ℕ → Walk (Decimal × ℕ)}
    (hcall : ∀ c i, Walk.Abridges (call c i) (call' c i)) (row : Row) :
    Walk.Abridges (row.valueBy call) (row.valueBy call') :=
  (hcall _ _).bind fun _ => .refl _

/-- **The value of a line of tokens in limited room** is that of the expression they are read to, or
none; from some room on there is one. -/
theorem reaches_valueWithin (ctx : Context) (env : Environment) (tokens : List Token) (stop : ℕ) :
    Walk.Reaches (2 * (6 * (tokens.length + 1) + 6))
      ((ofTokens env.answer tokens stop).valueWithin ctx env)
      ((Expr.ofTokens tokens stop).eval ctx env) := by
  have hlength : (ofTokens env.answer tokens stop).length = tokens.length + 1 := by
    simp [ofTokens]
  have hvalue := (value_ofTokens ctx env tokens stop).of_le _ le_rfl
  refine ⟨fun room => ?_, fun room hroom => ?_⟩
  · rw [valueWithin, hlength, ← hvalue]
    exact abridges_valueBy (abridges_walkWithin ctx env _ _ room) _
  · rw [valueWithin, hlength, walkWithin_eq_walk ctx env _ hroom]
    exact hvalue

end Row

/-! ## Parentheses -/

namespace Rule

/-- The rule that a rule begins with where a parenthesis is opened. -/
def next : Rule → Rule
  | sum => product
  | product => power
  | power => signed
  | signed => operand
  | operand => atom
  | atom => sum

/-- How many items it goes on by before that. Only an atom takes the parenthesis itself. -/
def skips : Rule → ℕ
  | atom => 1
  | _ => 0

/-- How many places have been taken since the last parenthesis when a rule begins. -/
def taken : Rule → ℕ
  | sum => 0
  | product => 2
  | power => 3
  | signed => 4
  | operand => 5
  | atom => 6

end Rule

namespace Row

variable {ctx : Context} {env : Environment} {row : Row} {i : ℕ} {item : Item}

/-- Where a parenthesis is opened a rule gives up if the one does that it begins with. -/
theorem callAt_opening {call : Call → ℕ → Walk (Decimal × ℕ)} (hitem : row[i]? = some item)
    (hopening : item.kind = .opening) {r : Rule}
    (hnext : call (.rule r.next) (i + r.skips) = .pending) :
    row.callAt ctx env call (.rule r) i = .pending := by
  have hat : row.itemAt i = pure item := by rw [itemAt, hitem]
  have hop (signs : String) : item.isOperator signs = false := by
    rw [Item.isOperator, decide_eq_false (by simp [hopening]), Bool.false_and]
  cases r with
  | signed =>
    rw [callAt, signedAt, hat, pure_bind, hop, hop]
    exact hnext
  | atom =>
    rw [callAt, atomAt, hat, pure_bind, hopening]
    exact congrArg (· >>= _) hnext
  | _ => exact congrArg (· >>= _) hnext

/-- **Parentheses that are opened take seven places each**: with fewer, no walk gets past them. -/
theorem walkWithin_openings {n : ℕ}
    (hrow : ∀ j < n, ∃ item, row[j]? = some item ∧ item.kind = .opening) (depth : ℕ) {room : ℕ}
    (r : Rule) (hi : i < n) (hroom : room + r.taken < 7 * (n - i)) :
    row.walkWithin ctx env depth room (.rule r) i = .pending := by
  induction depth generalizing room r i with
  | zero => rfl
  | succ depth ih =>
    rw [walkWithin_succ]
    split
    next hframes =>
      obtain ⟨item, hitem, hopening⟩ := hrow i hi
      have hplaces : i + r.skips < n
          ∧ room - r.frames + r.next.taken < 7 * (n - (i + r.skips)) := by
        change r.frames ≤ room at hframes
        cases r <;> simp only [Rule.frames, Rule.next, Rule.skips, Rule.taken] at * <;> omega
      exact callAt_opening hitem hopening (ih r.next hplaces.1 hplaces.2)
    next => rfl

/-- **A line that opens parentheses without room for them** has no value. -/
theorem valueWithin_openings {n room : ℕ}
    (hrow : ∀ j < n, ∃ item, row[j]? = some item ∧ item.kind = .opening) (hroom : room < 7 * n) :
    row.valueWithin ctx env room = .pending := by
  have hn : 0 < n := by omega
  exact congrArg (· >>= _) (walkWithin_openings hrow _ .sum hn hroom)

end Row

end Reckoner
