import Reckoner.Proofs.Expr.Blame
import Reckoner.Proofs.Grammar.Reading

/-!
# Where the faults of a line are found

A fault names a cause and a place, and `Environment.Blames` says which go together:
a place is that of a token, of the kind the cause is about and in the situation it
complains of, or the end of the line. An operator is blamed for what it refuses, a
parenthesis for not being closed, a name for not being bound.

That no other faults occur is shown along the course of the reading
(`Course.faultsIn_eval`), in which every node still has the token it was read from at
hand. What is said about an unclosed parenthesis needs most: that what follows it is
a complete sum (`Course.exists_phrase`, which uses that it had a value) and that this
sum ends where it seems to (`Course.stops`).
-/

namespace Reckoner

/-- **What stands behind an opening parenthesis that is not closed**: a sum, and where
that is over no closing parenthesis. -/
def IsUnclosed (inside : List Token) : Prop :=
  ∃ (inner : Phrase .sum) (rest : List Token), inside = inner.tokens ++ rest
    ∧ Category.sum.Stops rest ∧ ∀ token ∈ rest.head?, token.lexeme ≠ .closing

/-- **Which faults a line of tokens may have**, up to its end at `stop`: each cause with
the places it is found at. -/
inductive Environment.Blames (env : Environment) (tokens : List Token) (stop : ℕ) :
    Fault → Prop
  /-- The line breaks off behind an operator. -/
  | unfinished {token : Token} {op : Operator} (getLast?_eq : tokens.getLast? = some token)
      (lexeme_eq : token.lexeme = .operator op) :
      Blames env tokens stop (.evaluation .unfinishedExpression token.position)
  /-- The line breaks off before an atom. -/
  | ended : Blames env tokens stop (.evaluation .unexpectedEnd stop)
  | operator {token : Token} {op : Operator} {cause : Cause} (mem : token ∈ tokens)
      (lexeme_eq : token.lexeme = .operator op) (refuses : op.Refuses cause) :
      Blames env tokens stop (.evaluation cause token.position)
  | unit {token : Token} {u : UnitSuffix} (mem : token ∈ tokens)
      (lexeme_eq : token.lexeme = .unit u) :
      Blames env tokens stop (.evaluation .resultTooLarge token.position)
  | function {token : Token} {f : Builtin} {cause : Cause} (mem : token ∈ tokens)
      (lexeme_eq : token.lexeme = .function f) (refuses : f.Refuses cause) :
      Blames env tokens stop (.evaluation cause token.position)
  | undefined {token : Token} {name : String} (mem : token ∈ tokens)
      (lexeme_eq : token.lexeme = .variable name) (lookup_eq : env.lookup name = none) :
      Blames env tokens stop (.evaluation (.undefinedVariable name) token.position)
  | unopened {before after : List Token} {token : Token} {f : Builtin}
      (tokens_eq : tokens = before ++ token :: after) (lexeme_eq : token.lexeme = .function f)
      (not_opening : ∀ next ∈ after.head?, next.lexeme ≠ .opening) :
      Blames env tokens stop (.evaluation (.expectedParenthesis f.text) token.position)
  | callUnclosed {before inside : List Token} {token opening : Token} {f : Builtin}
      (tokens_eq : tokens = before ++ token :: opening :: inside)
      (lexeme_eq : token.lexeme = .function f) (opens : opening.lexeme = .opening)
      (unclosed : IsUnclosed inside) :
      Blames env tokens stop (.evaluation .expectedClosingParen token.position)
  | groupUnclosed {before inside : List Token} {opening : Token}
      (tokens_eq : tokens = before ++ opening :: inside) (opens : opening.lexeme = .opening)
      (unclosed : IsUnclosed inside) :
      Blames env tokens stop (.evaluation .unmatchedParenthesis opening.position)
  | unexpected {token : Token} (mem : token ∈ tokens) :
      Blames env tokens stop (.evaluation (.unexpectedToken token.lexeme.text) token.position)

/-! ## Along the course of a reading -/

section Nodes

variable {P : Fault → Prop} {ctx : Context} {env : Environment} {e left right : Expr}

theorem Expr.faultsIn_eval_binary {op : Operator} {position : ℕ}
    (hleft : FaultsIn P (left.eval ctx env)) (hright : FaultsIn P (right.eval ctx env))
    (hop : ∀ cause, op.Refuses cause → P (.evaluation cause position)) :
    FaultsIn P ((Expr.binary op position left right).eval ctx env) := by
  rw [Expr.eval]
  exact hleft.bind fun x _ => hright.bind fun y _ => op.faultsIn_apply ctx x y hop

/-- The faults of an expression with a stray token behind it are its own, or the stray
token where it has a value. -/
theorem Expr.faultsIn_eval_thenStray {cause : Cause} {position : ℕ}
    (he : FaultsIn P (e.eval ctx env))
    (hstray : e.IsFaultless → P (.evaluation cause position)) :
    FaultsIn P ((Expr.thenStray e cause position).eval ctx env) := by
  rw [Expr.eval]
  exact he.bind fun x hx => .blamed (hstray (Expr.isFaultless_of_eval hx))

end Nodes

variable {tokens : List Token} {stop : ℕ}

/-- **An operator at the end of the line** is where the line breaks off. -/
theorem faultsIn_eval_unfinished {ctx : Context} {env : Environment} {token : Token}
    {op : Operator} {left : Expr} (hend : [token] <:+ tokens)
    (lexeme_eq : token.lexeme = .operator op)
    (hleft : FaultsIn (env.Blames tokens stop) (left.eval ctx env)) :
    FaultsIn (env.Blames tokens stop) ((unfinished op token.position left).eval ctx env) := by
  have hlast : tokens.getLast? = some token := by
    obtain ⟨before, rfl⟩ := hend
    exact List.getLast?_concat
  rw [unfinished, Expr.eval]
  refine hleft.bind fun _ _ => (FaultsIn.blamed (.unfinished hlast lexeme_eq)).bind ?_
  -- the operand that is missing has no value, so the operator is not applied
  intro _ hvalue
  cases hvalue

/-- A sum that was read behind an opening parenthesis, and no closing one behind it. -/
theorem Course.isUnclosed {ts rest : List Token} {e : Expr} (h : Course stop .sum ts e rest)
    (hunits : UnitsFollow ts) (he : e.IsFaultless)
    (not_closing : ∀ token ∈ rest.head?, token.lexeme ≠ .closing) : IsUnclosed ts := by
  obtain ⟨inner, rfl⟩ := h.exists_phrase he
  exact ⟨inner, rest, rfl, h.stops hunits (Category.stops_atom _), not_closing⟩

/-- **The faults of what is read are found where they belong.** -/
theorem Course.faultsIn_eval {c : Category} {ts rest : List Token} {e : c.Tree}
    (h : Course stop c ts e rest) (ctx : Context) (env : Environment) (hts : ts <:+ tokens)
    (hunits : UnitsFollow tokens) :
    c.Gives (fun e => FaultsIn (env.Blames tokens stop) (e.eval ctx env)) e := by
  induction h with
  | sum first_course _ ihFirst ihTail =>
    exact ihTail (first_course.suffix.trans hts) _ (ihFirst hts)
  | sumEnd => exact fun left hleft => hleft
  | sumUnfinished lexeme_eq =>
    exact fun left hleft => faultsIn_eval_unfinished hts lexeme_eq hleft
  | sumStep lexeme_eq _ _ term_course _ ihTerm ihTail =>
    intro left hleft
    have hmore := (List.suffix_cons _ _).trans hts
    refine ihTail (term_course.suffix.trans hmore) _ ?_
    exact Expr.faultsIn_eval_binary hleft (ihTerm hmore) fun cause =>
      .operator (hts.subset List.mem_cons_self) lexeme_eq
  | product first_course _ ihFirst ihTail =>
    exact ihTail (first_course.suffix.trans hts) _ (ihFirst hts)
  | productEnd => exact fun left hleft => hleft
  | productUnfinished lexeme_eq =>
    exact fun left hleft => faultsIn_eval_unfinished hts lexeme_eq hleft
  | productStep lexeme_eq _ _ factor_course _ ihFactor ihTail =>
    intro left hleft
    have hmore := (List.suffix_cons _ _).trans hts
    refine ihTail (factor_course.suffix.trans hmore) _ ?_
    exact Expr.faultsIn_eval_binary hleft (ihFactor hmore) fun cause =>
      .operator (hts.subset List.mem_cons_self) lexeme_eq
  | plain _ _ ih => exact ih hts
  | powerUnfinished base_course lexeme_eq ih =>
    exact faultsIn_eval_unfinished (base_course.suffix.trans hts) lexeme_eq (ih hts)
  | raised base_course lexeme_eq _ _ ihBase ihExponent =>
    have hafter := base_course.suffix.trans hts
    exact Expr.faultsIn_eval_binary (ihBase hts) (ihExponent ((List.suffix_cons _ _).trans hafter))
      fun cause => .operator (hafter.subset List.mem_cons_self) lexeme_eq
  | minus _ _ ih => exact (ih ((List.suffix_cons _ _).trans hts)).map
  | plus _ _ ih => exact ih ((List.suffix_cons _ _).trans hts)
  | unsigned _ _ ih => exact ih hts
  | bare _ _ ih => exact ih hts
  | inUnit atom_course lexeme_eq ih =>
    have hmem := (atom_course.suffix.trans hts).subset List.mem_cons_self
    exact (ih hts).bind fun x _ => UnitSuffix.faultsIn_apply _ x (.unit hmem lexeme_eq)
  | number => exact .ok _
  | answer => exact .ok _
  | @named token name lexeme_eq rest =>
    show FaultsIn _ (Expr.eval ctx env (.variable name token.position))
    rw [Expr.eval]
    split
    · exact .ok _
    · next hnone => exact .blamed (.undefined (hts.subset List.mem_cons_self) lexeme_eq hnone)
  | call lexeme_eq _ _ _ ih =>
    have hinside := ((List.suffix_cons _ _).trans (List.suffix_cons _ _)).trans hts
    exact (ih hinside).bind fun x _ => Builtin.faultsIn_apply ctx _ x fun cause =>
      .function (hts.subset List.mem_cons_self) lexeme_eq
  | callUnclosed lexeme_eq opens argument_course not_closing ih =>
    have hinside := ((List.suffix_cons _ _).trans (List.suffix_cons _ _)).trans hts
    obtain ⟨before, hbefore⟩ := hts
    exact Expr.faultsIn_eval_thenStray (ih hinside) fun hfaultless =>
      .callUnclosed hbefore.symm lexeme_eq opens
        (argument_course.isUnclosed (hunits.suffix hinside) hfaultless not_closing)
  | unopened lexeme_eq not_opening =>
    obtain ⟨before, hbefore⟩ := hts
    exact .blamed (.unopened hbefore.symm lexeme_eq not_opening)
  | group _ _ _ ih => exact ih ((List.suffix_cons _ _).trans hts)
  | groupUnclosed opens inner_course not_closing ih =>
    have hinside := (List.suffix_cons _ _).trans hts
    obtain ⟨before, hbefore⟩ := hts
    exact Expr.faultsIn_eval_thenStray (ih hinside) fun hfaultless =>
      .groupUnclosed hbefore.symm opens
        (inner_course.isUnclosed (hunits.suffix hinside) hfaultless not_closing)
  | ended => exact .blamed .ended
  | unexpected => exact .blamed (.unexpected (hts.subset List.mem_cons_self))

/-- **A fault of a line is found where it belongs**, as far as it is blamed on a place
at all. -/
theorem faultsIn_eval_ofTokens (ctx : Context) (env : Environment) (hunits : UnitsFollow tokens) :
    FaultsIn (env.Blames tokens stop) ((Expr.ofTokens tokens stop).eval ctx env) := by
  obtain ⟨e, rest, hcourse, hread⟩ := exists_course_readSum stop tokens
  have he : FaultsIn (env.Blames tokens stop) (e.eval ctx env) :=
    hcourse.faultsIn_eval ctx env (List.suffix_refl tokens) hunits
  cases rest with
  | nil => exact ofTokens_complete hread ▸ he
  | cons token rest =>
    have hmem : token ∈ tokens := hcourse.suffix.subset List.mem_cons_self
    rw [ofTokens_stray hread]
    exact Expr.faultsIn_eval_thenStray he fun _ => .unexpected hmem

end Reckoner
