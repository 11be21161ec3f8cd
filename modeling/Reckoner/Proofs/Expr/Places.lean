import Reckoner.Expr.Basic

/-!
# Places matter to the blame only

The nodes of an expression say where in the line they were read. A fault quotes such a place;
nothing else depends on it. So an expression whose places are forgotten (`Expr.unplaced`) has
the same value, or fails for the same cause (`Expr.sameCause_eval`).

`SameCause` compares two outcomes in this way. As for `FaultsIn`, each operation has one lemma,
and chains go by `SameCause.bind`.
-/

namespace Reckoner

variable {α β : Type}

/-- **What a failure is put down to**, wherever it is found. -/
def Failure.cause (failure : Failure) : Cause := failure.toFault.cause

/-! ## Outcomes up to their places -/

/-- **Two outcomes with the same value, or the same cause.** -/
def SameCause (x y : Except Failure α) : Prop :=
  x.mapError Failure.cause = y.mapError Failure.cause

namespace SameCause

variable {x y : Except Failure α}

theorem refl (x : Except Failure α) : SameCause x x := rfl

theorem blamed (cause : Cause) (p q : Nat) :
    SameCause (.error (.at cause p) : Except Failure α) (.error (.at cause q)) := rfl

/-- **Chains of steps of the same cause are of the same cause.** -/
theorem bind {f g : α → Except Failure β} (h : SameCause x y)
    (hstep : ∀ a, SameCause (f a) (g a)) : SameCause (x >>= f) (y >>= g) := by
  cases x with
  | error failure =>
    cases y with
    | error failure' => exact congrArg Except.error (Except.error.inj h)
    | ok b => cases h
  | ok a =>
    cases y with
    | error failure' => cases h
    | ok b =>
      obtain rfl := Except.ok.inj h
      exact hstep a

theorem map (f : α → β) (h : SameCause x y) : SameCause (x.map f) (y.map f) := by
  have hbind (z : Except Failure α) : z.map f = z >>= fun a => .ok (f a) := by
    cases z <;> rfl
  rw [hbind, hbind]
  exact h.bind fun a => refl _

end SameCause

/-! ## Operations -/

variable (ctx : Context) (p q : Nat)

theorem sameCause_bounded (x : Decimal) : SameCause (bounded p x) (bounded q x) := by
  cases x with
  | finite a =>
    unfold bounded
    dsimp only
    split
    · exact .blamed _ p q
    · exact .refl _
  | _ => exact .refl _

theorem sameCause_powerExponent (x : Decimal) :
    SameCause (powerExponent p x) (powerExponent q x) := by
  cases x with
  | finite a =>
    unfold powerExponent
    dsimp only
    split
    · exact .blamed _ p q
    · cases a.toNat? with
      | none => exact .blamed _ p q
      | some n => exact .refl _
  | infinite negative => exact .blamed _ p q
  | nan => exact .refl _

theorem sameCause_powerValue (x y : Decimal) :
    SameCause (powerValue ctx p x y) (powerValue ctx q x y) := by
  refine (sameCause_powerExponent p q y).bind fun ⟨n, negative⟩ => ?_
  dsimp only
  split
  · exact .refl _
  · split
    · exact .blamed _ p q
    · cases ctx.power x n negative with
      | ok result => exact sameCause_bounded p q result
      | error signal =>
        cases signal with
        | overflow => exact .blamed _ p q
        | _ => exact .refl _

/-- **The place of an operator** matters to the blame only. -/
theorem Operator.sameCause_apply (op : Operator) (x y : Decimal) :
    SameCause (op.apply ctx p x y) (op.apply ctx q x y) := by
  have hbounded (result : Except Signal Decimal) :
      SameCause (signalled result >>= bounded p) (signalled result >>= bounded q) :=
    (SameCause.refl _).bind (sameCause_bounded p q)
  unfold Operator.apply
  cases op with
  | add => exact hbounded _
  | subtract => exact hbounded _
  | multiply => exact hbounded _
  | divide =>
    dsimp only
    split
    · exact .blamed _ p q
    · exact hbounded _
  | remainder =>
    dsimp only
    split
    · exact .blamed _ p q
    · exact hbounded _
  | power => exact sameCause_powerValue ctx p q x y

theorem UnitSuffix.sameCause_apply (u : UnitSuffix) (x : Decimal) :
    SameCause (u.apply p x) (u.apply q x) :=
  (SameCause.refl _).bind (sameCause_bounded p q)

theorem Context.sameCause_squareRoot (x : Decimal) :
    SameCause (ctx.squareRoot p x) (ctx.squareRoot q x) := by
  cases x with
  | finite a =>
    unfold squareRoot
    dsimp only
    split
    · exact .blamed _ p q
    · cases Binary.ofScaled? a with
      | none => exact .blamed _ p q
      | some b => exact .refl _
  | infinite negative => cases negative <;> exact .blamed _ p q
  | nan => exact .refl _

theorem Builtin.sameCause_apply (f : Builtin) (x : Decimal) :
    SameCause (f.apply ctx p x) (f.apply ctx q x) := by
  cases f with
  | sqrt => exact ctx.sameCause_squareRoot p q x
  | _ => exact .refl _

/-! ## Expressions -/

/-- **An expression whose places are forgotten.** -/
def Expr.unplaced : Expr → Expr
  | .number numeral => .number numeral
  | .answer => .answer
  | .variable name _ => .variable name 0
  | .negate operand => .negate operand.unplaced
  | .binary op _ left right => .binary op 0 left.unplaced right.unplaced
  | .inUnit u _ operand => .inUnit u 0 operand.unplaced
  | .call f _ argument => .call f 0 argument.unplaced
  | .missing cause _ => .missing cause 0
  | .thenStray operand cause _ => .thenStray operand.unplaced cause 0

/-- **An expression keeps its value, or its cause, when its places are forgotten.** -/
theorem Expr.sameCause_eval (env : Environment) (e : Expr) :
    SameCause (e.eval ctx env) (e.unplaced.eval ctx env) := by
  induction e with
  | number numeral => exact .refl _
  | answer => exact .refl _
  | «variable» name position =>
    rw [unplaced, eval, eval]
    cases env.lookup name with
    | some x => exact .refl _
    | none => exact .blamed _ position 0
  | negate operand ih => exact ih.map Decimal.negate
  | binary op position left right ihLeft ihRight =>
    exact ihLeft.bind fun x => ihRight.bind fun y => op.sameCause_apply ctx position 0 x y
  | inUnit u position operand ih => exact ih.bind fun x => u.sameCause_apply position 0 x
  | call f position argument ih => exact ih.bind fun x => f.sameCause_apply ctx position 0 x
  | missing cause position => exact .blamed cause position 0
  | thenStray operand cause position ih => exact ih.bind fun _ => .blamed cause position 0

end Reckoner
