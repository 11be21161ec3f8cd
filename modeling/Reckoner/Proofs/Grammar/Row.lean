import Mathlib
import Reckoner.Expr.Row

/-!
# Walks that stay in their row and end

Nothing in a rule that goes by index says that it stays inside the row, or that it ends. Both are
statements here. A `Walk` may ask for an item that does not exist, and `Row.walk` bounds how deep
the calls may go. A walk ends inside the row if it has one and the same outcome from some depth on
and, at smaller depths, this one or none (`Walk.Reaches`).

That no walk over a row leaves it or fails to end (`Row.callsEnd_walk`) rests on two facts about all
rules at once – a rule goes on by at least one item, and not beyond the last one – and on one about
the row: behind an item that is not the end of a line there is another. The row may hold anything in
any order, ends of lines in its midst and operators and functions that do not exist included.
`Reckoner.Proofs.Grammar.RowReading` shows that the value is that of the tree.
-/

namespace Reckoner

/-- **A row that ends like a line does**, with the mark for its end. -/
def Row.IsEnded (row : Row) : Prop := ∃ item ∈ row.getLast?, item.kind = .lineEnd

/-- How many rules are at least as tight as this one. -/
def Rule.looseness : Rule → ℕ
  | sum => 6
  | product => 5
  | power => 4
  | signed => 3
  | operand => 2
  | atom => 1

/-! ## Walks that end -/

namespace Walk

variable {α β : Type} {n : ℕ} {walk : ℕ → Walk α} {P : α → Prop} {Q : β → Prop}

/-- **A walk that ends inside the row**: at each depth it has one and the same outcome or has not
ended, and it has ended at all depths from `n` on. -/
structure Reaches (n : ℕ) (walk : ℕ → Walk α) (outcome : Except Failure α) : Prop where
  pending_or : ∀ depth, walk depth = .pending ∨ walk depth = .ofOutcome outcome
  of_le : ∀ depth, n ≤ depth → walk depth = .ofOutcome outcome

/-- A walk that ends inside the row, with a failure or with a value of which `P` holds. -/
def EndsFrom (n : ℕ) (walk : ℕ → Walk α) (P : α → Prop) : Prop :=
  ∃ outcome : Except Failure α, Reaches n walk outcome ∧ ∀ a, outcome = .ok a → P a

theorem reaches_ofOutcome (n : ℕ) (outcome : Except Failure α) :
    Reaches n (fun _ => ofOutcome outcome) outcome := ⟨fun _ => .inr rfl, fun _ _ => rfl⟩

/-- **One walk after another** reaches what they do, one after the other. -/
theorem Reaches.bind {next : ℕ → α → Walk β} {a : α} {outcome : Except Failure β}
    (h : Reaches n walk (.ok a)) (hnext : Reaches n (fun depth => next depth a) outcome) :
    Reaches n (fun depth => walk depth >>= next depth) outcome := by
  refine ⟨fun depth => ?_, fun depth hdepth => ?_⟩
  · show walk depth >>= next depth = _ ∨ walk depth >>= next depth = _
    obtain hwalk | hwalk := h.pending_or depth
    · exact .inl (by rw [hwalk]; rfl)
    · rw [hwalk]
      exact hnext.pending_or depth
  · show walk depth >>= next depth = _
    rw [h.of_le depth hdepth]
    exact hnext.of_le depth hdepth

/-- After a failure nothing else is done. -/
theorem Reaches.bind_error {next : ℕ → α → Walk β} {failure : Failure}
    (h : Reaches n walk (.error failure)) :
    Reaches n (fun depth => walk depth >>= next depth) (.error failure) := by
  refine ⟨fun depth => ?_, fun depth hdepth => ?_⟩
  · show walk depth >>= next depth = _ ∨ walk depth >>= next depth = _
    obtain hwalk | hwalk := h.pending_or depth
    · exact .inl (by rw [hwalk]; rfl)
    · exact .inr (by rw [hwalk]; rfl)
  · show walk depth >>= next depth = _
    rw [h.of_le depth hdepth]
    rfl

theorem EndsFrom.pure {a : α} (h : P a) : EndsFrom n (fun _ => Pure.pure a) P := by
  refine ⟨.ok a, reaches_ofOutcome n (.ok a), fun b hb => ?_⟩
  cases hb
  exact h

theorem EndsFrom.fail (cause : Cause) (position : ℕ) :
    EndsFrom n (fun _ => Walk.fail cause position) P :=
  ⟨.error (.at cause position), reaches_ofOutcome n _, fun _ h => nomatch h⟩

theorem endsFrom_ofOutcome (outcome : Except Failure α) :
    EndsFrom n (fun _ => ofOutcome outcome) fun _ => True :=
  ⟨outcome, reaches_ofOutcome n outcome, fun _ _ => trivial⟩

theorem EndsFrom.mono {P' : α → Prop} (h : EndsFrom n walk P) (himp : ∀ a, P a → P' a) :
    EndsFrom n walk P' := by
  obtain ⟨outcome, hwalk, hP⟩ := h
  exact ⟨outcome, hwalk, fun a ha => himp a (hP a ha)⟩

/-- **One walk after another** ends if both do. -/
theorem EndsFrom.bind {next : ℕ → α → Walk β} (h : EndsFrom n walk P)
    (hnext : ∀ a, P a → EndsFrom n (fun depth => next depth a) Q) :
    EndsFrom n (fun depth => walk depth >>= next depth) Q := by
  obtain ⟨outcome, hwalk, hP⟩ := h
  cases outcome with
  | error failure => exact ⟨.error failure, hwalk.bind_error, fun _ h => nomatch h⟩
  | ok a =>
    obtain ⟨outcome, hwalk', hQ⟩ := hnext a (hP a rfl)
    exact ⟨outcome, hwalk.bind hwalk', hQ⟩

/-- **One walk or another**, and each ends where it is the one that is taken. -/
theorem EndsFrom.ite {c : Prop} [Decidable c] {walk' : ℕ → Walk α}
    (h : c → EndsFrom n walk P) (h' : ¬ c → EndsFrom n walk' P) :
    EndsFrom n (fun depth => if c then walk depth else walk' depth) P := by
  by_cases hc : c
  · simpa only [if_pos hc] using h hc
  · simpa only [if_neg hc] using h' hc

end Walk

/-! ## Inside the row -/

variable {ctx : Context} {env : Environment} {row : Row} {i n : ℕ} {item : Item}

/-- **Behind an item that is not the end of a line there is another.** -/
theorem Row.IsEnded.succ_lt_length (h : row.IsEnded) (hitem : row[i]? = some item)
    (hkind : item.kind ≠ .lineEnd) : i + 1 < row.length := by
  obtain ⟨last, hlast, hend⟩ := h
  obtain ⟨hi, rfl⟩ := List.getElem?_eq_some_iff.mp hitem
  by_contra hlength
  obtain rfl : i = row.length - 1 := by omega
  rw [Option.mem_def, List.getLast?_eq_getElem?, hitem] at hlast
  exact hkind (Option.some.inj hlast ▸ hend)

/-- Behind an operator there is another item. -/
theorem Row.IsEnded.succ_lt_of_isOperator {signs : String} (h : row.IsEnded)
    (hitem : row[i]? = some item) (hop : item.isOperator signs = true) : i + 1 < row.length := by
  have hkind : item.kind = .operator := of_decide_eq_true (Bool.and_eq_true_iff.mp hop).1
  exact h.succ_lt_length hitem (by simp [hkind])

namespace Call

/-- How many items a call goes on by, at least. -/
def progress : Call → ℕ
  | rule _ => 1
  | rest .. => 0

/-- **How deep a call at an index may go**: to each item, and there to each rule. -/
def depth (row : Row) (i : ℕ) : Call → ℕ
  | rule r => 6 * (row.length - i) + r.looseness
  | rest .. => 6 * (row.length - i)

end Call

namespace Row

/-- A value, and an index of the row that is `m` or comes behind it. -/
def Advances (row : Row) (m : ℕ) (result : Decimal × ℕ) : Prop :=
  m ≤ result.2 ∧ result.2 < row.length

theorem Advances.of_le {m m' : ℕ} (h : m ≤ m') (result : Decimal × ℕ)
    (hresult : row.Advances m' result) : row.Advances m result :=
  ⟨h.trans hresult.1, hresult.2⟩

theorem endsFrom_itemAt (hi : i < row.length) :
    Walk.EndsFrom n (fun _ => row.itemAt i) fun item => row[i]? = some item := by
  rw [itemAt, List.getElem?_eq_getElem hi]
  exact .pure rfl

theorem endsFrom_checkOperand (hi : i + 1 < row.length) :
    Walk.EndsFrom n (fun _ => row.checkOperand i) fun _ => True := by
  refine (endsFrom_itemAt hi).bind fun behind _ => .ite (fun _ => ?_) fun _ => .pure trivial
  exact (endsFrom_itemAt (Nat.lt_of_succ_lt hi)).bind fun _ _ => .fail _ _

/-- **Calls that end**: those for which the depth `n` suffices do, inside the row, and they go on
as far as they have to. -/
def CallsEnd (row : Row) (n : ℕ) (call : ℕ → Call → ℕ → Walk (Decimal × ℕ)) : Prop :=
  ∀ (c : Call) (i : ℕ), i < row.length → c.depth row i ≤ n →
    Walk.EndsFrom n (fun depth => call depth c i) (row.Advances (i + c.progress))

/-! ### One call

What each rule does ends, if what it calls does. -/

section

variable {call : ℕ → Call → ℕ → Walk (Decimal × ℕ)}

theorem CallsEnd.rule (hcall : row.CallsEnd n call) (r : Rule) (hi : i < row.length)
    (hn : 6 * (row.length - i) + r.looseness ≤ n) :
    Walk.EndsFrom n (fun depth => call depth (.rule r) i) (row.Advances (i + 1)) :=
  hcall (.rule r) i hi hn

theorem CallsEnd.rest (hcall : row.CallsEnd n call) (chain : Chain) (left : Decimal)
    (hi : i < row.length) (hn : 6 * (row.length - i) ≤ n) :
    Walk.EndsFrom n (fun depth => call depth (.rest chain left) i) (row.Advances i) :=
  hcall (.rest chain left) i hi hn

theorem endsFrom_chainAt (hcall : row.CallsEnd n call) (chain : Chain) (hi : i < row.length)
    (hn : 6 * (row.length - i) + chain.link.looseness ≤ n) :
    Walk.EndsFrom n (fun depth => chainAt (call depth) chain i) (row.Advances (i + 1)) := by
  refine (hcall.rule chain.link hi hn).bind fun ⟨left, next⟩ ⟨hle, hlt⟩ => ?_
  exact (hcall.rest chain left hlt (by omega)).mono (Advances.of_le hle)

theorem endsFrom_restAt (hrow : row.IsEnded) (hcall : row.CallsEnd n call) (chain : Chain)
    (left : Decimal) (hi : i < row.length) (hn : 6 * (row.length - i) ≤ n + 1) :
    Walk.EndsFrom n (fun depth => row.restAt ctx (call depth) chain left i) (row.Advances i) := by
  have hlink : chain.link.looseness ≤ 5 := by cases chain <;> decide
  refine (endsFrom_itemAt hi).bind fun item hitem => .ite (fun hop => ?_) fun _ =>
    .pure ⟨le_rfl, hi⟩
  have hbehind := hrow.succ_lt_of_isOperator hitem hop
  refine (endsFrom_checkOperand hbehind).bind fun _ _ => ?_
  refine (hcall.rule chain.link hbehind (by omega)).bind fun ⟨right, next⟩ ⟨hle, hlt⟩ => ?_
  refine (Walk.endsFrom_ofOutcome _).bind fun left _ => ?_
  exact (hcall.rest chain left hlt (by omega)).mono (Advances.of_le (by omega))

theorem endsFrom_powerAt (hrow : row.IsEnded) (hcall : row.CallsEnd n call) (hi : i < row.length)
    (hn : 6 * (row.length - i) + 3 ≤ n) :
    Walk.EndsFrom n (fun depth => row.powerAt ctx (call depth) i) (row.Advances (i + 1)) := by
  refine (hcall.rule .signed hi hn).bind fun ⟨base, next⟩ ⟨hle, hlt⟩ => ?_
  refine (endsFrom_itemAt hlt).bind fun item hitem => .ite (fun hop => ?_) fun _ =>
    .pure ⟨hle, hlt⟩
  have hbehind := hrow.succ_lt_of_isOperator hitem hop
  refine (endsFrom_checkOperand hbehind).bind fun _ _ => ?_
  have hpower : 6 * (row.length - (next + 1)) + 4 ≤ n := by omega
  refine (hcall.rule .power hbehind hpower).bind fun ⟨exponent, last⟩ ⟨hle', hlt'⟩ => ?_
  exact (Walk.endsFrom_ofOutcome _).bind fun value _ => .pure ⟨by omega, hlt'⟩

theorem endsFrom_signedAt (hrow : row.IsEnded) (hcall : row.CallsEnd n call) (hi : i < row.length)
    (hn : 6 * (row.length - i) + 2 ≤ n) :
    Walk.EndsFrom n (fun depth => row.signedAt (call depth) i) (row.Advances (i + 1)) := by
  have hsigned (hbehind : i + 1 < row.length) := hcall.rule .signed hbehind
    (show 6 * (row.length - (i + 1)) + 3 ≤ n by omega)
  refine (endsFrom_itemAt hi).bind fun item hitem => .ite (fun hop => ?_) fun _ =>
    .ite (fun hop => ?_) fun _ => hcall.rule .operand hi hn
  · have hbehind := hrow.succ_lt_of_isOperator hitem hop
    exact (hsigned hbehind).bind fun ⟨value, next⟩ ⟨hle, hlt⟩ => .pure ⟨by omega, hlt⟩
  · have hbehind := hrow.succ_lt_of_isOperator hitem hop
    exact (hsigned hbehind).mono (Advances.of_le (Nat.le_succ _))

theorem endsFrom_operandAt (hrow : row.IsEnded) (hcall : row.CallsEnd n call)
    (hi : i < row.length) (hn : 6 * (row.length - i) + 1 ≤ n) :
    Walk.EndsFrom n (fun depth => row.operandAt (call depth) i) (row.Advances (i + 1)) := by
  refine (hcall.rule .atom hi hn).bind fun ⟨value, next⟩ ⟨hle, hlt⟩ => ?_
  refine (endsFrom_itemAt hlt).bind fun item hitem => ?_
  cases hkind : item.kind with
  | unit u =>
    have hbehind := hrow.succ_lt_length hitem (by simp [hkind])
    exact (Walk.endsFrom_ofOutcome _).bind fun value _ => .pure ⟨Nat.le_succ_of_le hle, hbehind⟩
  | _ => exact .pure ⟨hle, hlt⟩

theorem endsFrom_enclosedAt (hrow : row.IsEnded) (hcall : row.CallsEnd n call) (cause : Cause)
    (position : ℕ) (hi : i < row.length) (hn : 6 * (row.length - i) + 6 ≤ n) :
    Walk.EndsFrom n (fun depth => row.enclosedAt (call depth) cause position i)
      (row.Advances (i + 1)) := by
  refine (hcall.rule .sum hi hn).bind fun ⟨value, last⟩ ⟨hle, hlt⟩ => ?_
  refine (endsFrom_itemAt hlt).bind fun closing hclosing => .ite (fun hcloses => ?_) fun _ =>
    .fail _ _
  exact .pure ⟨Nat.le_succ_of_le hle, hrow.succ_lt_length hclosing (by simp [hcloses])⟩

theorem endsFrom_atomAt (hrow : row.IsEnded) (hcall : row.CallsEnd n call) (hi : i < row.length)
    (hn : 6 * (row.length - i) ≤ n) :
    Walk.EndsFrom n (fun depth => row.atomAt ctx env (call depth) i) (row.Advances (i + 1)) := by
  refine (endsFrom_itemAt hi).bind fun item hitem => ?_
  cases hkind : item.kind with
  | number value => exact .pure ⟨le_rfl, hrow.succ_lt_length hitem (by simp [hkind])⟩
  | «variable» =>
    have hbehind := hrow.succ_lt_length hitem (by simp [hkind])
    cases hvalue : env.lookup item.text with
    | none => simpa only [hvalue] using .fail _ _
    | some value => simpa only [hvalue] using .pure ⟨le_rfl, hbehind⟩
  | function =>
    have hbehind := hrow.succ_lt_length hitem (by simp [hkind])
    refine (endsFrom_itemAt hbehind).bind fun opening hopening => .ite (fun hopens => ?_) fun _ =>
      .fail _ _
    have hinside := hrow.succ_lt_length hopening (by simp [hopens])
    refine (endsFrom_enclosedAt hrow hcall _ _ hinside (by omega)).bind
      fun ⟨argument, next⟩ ⟨hle, hlt⟩ => ?_
    exact (Walk.endsFrom_ofOutcome _).bind fun value _ => .pure ⟨by omega, hlt⟩
  | opening =>
    have hbehind := hrow.succ_lt_length hitem (by simp [hkind])
    exact (endsFrom_enclosedAt hrow hcall _ _ hbehind (by omega)).mono
      (Advances.of_le (Nat.le_succ _))
  | _ => exact .fail _ _

/-- **What a call does ends**, if the calls it makes do. -/
theorem endsFrom_callAt (hrow : row.IsEnded) (hcall : row.CallsEnd n call) (c : Call)
    (hi : i < row.length) (hn : c.depth row i ≤ n + 1) :
    Walk.EndsFrom n (fun depth => row.callAt ctx env (call depth) c i)
      (row.Advances (i + c.progress)) := by
  cases c with
  | rest chain left => exact endsFrom_restAt hrow hcall chain left hi hn
  | rule r =>
    cases r with
    | sum => exact endsFrom_chainAt hcall .sum hi (Nat.le_of_succ_le_succ hn)
    | product => exact endsFrom_chainAt hcall .product hi (Nat.le_of_succ_le_succ hn)
    | power => exact endsFrom_powerAt hrow hcall hi (Nat.le_of_succ_le_succ hn)
    | signed => exact endsFrom_signedAt hrow hcall hi (Nat.le_of_succ_le_succ hn)
    | operand => exact endsFrom_operandAt hrow hcall hi (Nat.le_of_succ_le_succ hn)
    | atom => exact endsFrom_atomAt hrow hcall hi (Nat.le_of_succ_le_succ hn)

end

/-! ### All calls -/

/-- **The calls of a walk end**: none leaves the row, and at each depth those end that it suffices
for. -/
theorem callsEnd_walk (ctx : Context) (env : Environment) (hrow : row.IsEnded) (n : ℕ) :
    row.CallsEnd n (row.walk ctx env) := by
  induction n with
  | zero =>
    intro c i hi hn
    cases c <;> simp only [Call.depth] at hn <;> omega
  | succ n ih =>
    intro c i hi hn
    obtain ⟨outcome, hcall, hP⟩ := endsFrom_callAt hrow ih c hi hn
    refine ⟨outcome, ⟨fun depth => ?_, fun depth hdepth => ?_⟩, hP⟩
    · cases depth with
      | zero => exact .inl rfl
      | succ below => exact hcall.pending_or below
    · obtain ⟨below, rfl⟩ := Nat.exists_eq_add_of_le' (Nat.le_of_add_left_le hdepth)
      exact hcall.of_le below (Nat.le_of_succ_le_succ hdepth)

/-- **The walk for the value of a row ends.** -/
theorem endsFrom_value (ctx : Context) (env : Environment) (hrow : row.IsEnded) :
    Walk.EndsFrom (6 * row.length + 6) (row.value ctx env) fun _ => True := by
  have hpos : 0 < row.length := by
    obtain ⟨last, hlast, -⟩ := hrow
    exact List.length_pos_of_mem (List.mem_of_getLast? hlast)
  refine (callsEnd_walk ctx env hrow _ (.rule .sum) 0 hpos le_rfl).bind
    fun ⟨value, next⟩ ⟨_, hlt⟩ => ?_
  exact (endsFrom_itemAt hlt).bind fun item _ => .ite (fun _ => .pure trivial) fun _ => .fail _ _

end Row

end Reckoner
