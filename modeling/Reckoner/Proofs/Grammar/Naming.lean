import Reckoner.Proofs.Grammar.Reading

/-!
# A part of a line under a name

A sum in parentheses can be taken out of a line: it is evaluated on its own, its value is
given a name, and the name stands in its place. The line then comes to what it came to
before (`Naming.eval_ofTokens`), also where it is not well formed, under signs, before a
unit, as a base or an exponent, inside a function. Only the argument of a function cannot
be taken out with its parentheses, since these belong to the function.

Two lines, one of which has the name where the other has the group (`Naming.Shortens`),
are read along two courses of the same shape (`Naming.Shortens.course`). What a rule asks
of the next token has the same answer in both, since neither a name nor an opening
parenthesis goes on with anything; only a stray one is quoted differently, which is why
failures are compared up to the text they quote (`SameKind`).
-/

namespace Reckoner

/-! ## Outcomes up to what they quote -/

/-- **Outcomes of the same kind**: the same outcome, or two faults at one place which differ
in the text that they quote. -/
inductive SameKind {α : Type} : Except Failure α → Except Failure α → Prop
  | same (x : Except Failure α) : SameKind x x
  | quoting {cause cause' : Cause} (code_eq : cause'.code = cause.code) (position : ℕ) :
      SameKind (.error (.at cause position)) (.error (.at cause' position))

namespace SameKind

variable {α β : Type} {x x' : Except Failure α}

/-- **Steps of the same kind make chains of the same kind.** -/
theorem bind {f f' : α → Except Failure β} (h : SameKind x x')
    (hstep : ∀ a, SameKind (f a) (f' a)) : SameKind (x >>= f) (x' >>= f') := by
  cases h with
  | same =>
    cases x with
    | error failure => exact .same _
    | ok a => exact hstep a
  | quoting code_eq position => exact .quoting code_eq position

theorem map {f : α → β} (h : SameKind x x') : SameKind (x.map f) (x'.map f) := by
  cases h with
  | same => exact .same _
  | quoting code_eq position => exact .quoting code_eq position

end SameKind

section Nodes

variable {ctx : Context} {env env' : Environment} {e e' left left' right right' : Expr}

theorem Expr.sameKind_eval_binary (op : Operator) (position : ℕ)
    (hleft : SameKind (left.eval ctx env) (left'.eval ctx env'))
    (hright : SameKind (right.eval ctx env) (right'.eval ctx env')) :
    SameKind ((binary op position left right).eval ctx env)
      ((binary op position left' right').eval ctx env') := by
  rw [eval, eval]
  exact hleft.bind fun _ => hright.bind fun _ => .same _

theorem sameKind_eval_unfinished (op : Operator) (position : ℕ)
    (hleft : SameKind (left.eval ctx env) (left'.eval ctx env')) :
    SameKind ((unfinished op position left).eval ctx env)
      ((unfinished op position left').eval ctx env') :=
  Expr.sameKind_eval_binary op position hleft (.same _)

theorem Expr.sameKind_eval_thenStray {cause cause' : Cause} (position : ℕ)
    (he : SameKind (e.eval ctx env) (e'.eval ctx env')) (code_eq : cause'.code = cause.code) :
    SameKind ((thenStray e cause position).eval ctx env)
      ((thenStray e' cause' position).eval ctx env') := by
  rw [eval, eval]
  exact he.bind fun _ => .quoting code_eq position

end Nodes

/-- **Trees that come to outcomes of the same kind**, each in its environment. A tail does
if whatever stands to the left of it does. -/
def Category.Alike (ctx : Context) (env env' : Environment) :
    (c : Category) → c.Tree → c.Tree → Prop
  | .sumTail, e, e' | .productTail, e, e' => ∀ left left',
    SameKind (left.eval ctx env) (left'.eval ctx env') →
      SameKind ((e left).eval ctx env) ((e' left').eval ctx env')
  | .sum, e, e' | .product, e, e' | .power, e, e' | .signed, e, e' | .operand, e, e'
  | .atom, e, e' => SameKind (Expr.eval ctx env e) (Expr.eval ctx env' e')

/-! ## A name for a group -/

/-- **A name for a group**: a sum in parentheses, and the token of a variable at the place
where it begins. -/
structure Naming where
  opening : Token
  opens : opening.lexeme = .opening
  inner : Phrase .sum
  closing : Token
  closes : closing.lexeme = .closing
  token : Token
  name : String
  lexeme_eq : token.lexeme = .variable name
  position_eq : token.position = opening.position

namespace Naming

attribute [simp] lexeme_eq

/-- The tokens of the group. -/
def group (n : Naming) : List Token := n.opening :: (n.inner.tokens ++ [n.closing])

/-- **The name stands for the group** in an environment where it is bound to the value that
the group has, and nothing else is different. -/
structure StandsFor (n : Naming) (ctx : Context) (env env' : Environment) : Prop where
  exists_value : ∃ x, n.inner.eval ctx env = .ok x ∧ env'.lookup n.name = some x
  lookup_eq : ∀ name, name ≠ n.name → env'.lookup name = env.lookup name
  answer_eq : env'.answer = env.answer

/-- **A line is shortened** where the name is put in the place of the group. Nowhere else
does the line have the name, and a parenthesis that belongs to a function stays. -/
inductive Shortens (n : Naming) : List Token → List Token → Prop
  | nil : Shortens n [] []
  | keep {token : Token} {ts ts' : List Token} (other : token.lexeme ≠ .variable n.name)
      (same_argument : ∀ f, token.lexeme = .function f → ts'.head? = ts.head?)
      (later : Shortens n ts ts') : Shortens n (token :: ts) (token :: ts')
  | name {ts ts' : List Token} (later : Shortens n ts ts') :
      Shortens n (n.opening :: (n.inner.tokens ++ n.closing :: ts)) (n.token :: ts')

variable {n : Naming} {ts ts' more : List Token} {token : Token}

/-! ### What a shortened line begins with -/

namespace Shortens

theorem eq_nil (h : n.Shortens [] ts') : ts' = [] := by
  cases h
  rfl

/-- **What a token becomes**: it is kept, or the group begins with it. -/
theorem cons_cases (h : n.Shortens (token :: more) ts') :
    (∃ more', ts' = token :: more' ∧ token.lexeme ≠ .variable n.name
        ∧ (∀ f, token.lexeme = .function f → more'.head? = more.head?) ∧ n.Shortens more more')
      ∨ token = n.opening ∧ ∃ later later', more = n.inner.tokens ++ n.closing :: later
        ∧ ts' = n.token :: later' ∧ n.Shortens later later' := by
  cases h with
  | keep other same_argument later => exact .inl ⟨_, rfl, other, same_argument, later⟩
  | name later => exact .inr ⟨rfl, _, _, rfl, rfl, later⟩

/-- A token other than an opening parenthesis is kept. -/
theorem exists_of_ne_opening (h : n.Shortens (token :: more) ts')
    (hne : token.lexeme ≠ .opening) :
    ∃ more', ts' = token :: more' ∧ token.lexeme ≠ .variable n.name
      ∧ (∀ f, token.lexeme = .function f → more'.head? = more.head?)
      ∧ n.Shortens more more' := by
  obtain h | ⟨rfl, -⟩ := h.cons_cases
  · exact h
  · exact absurd n.opens hne

/-- What a token is followed by, where it is neither a parenthesis nor a function. -/
theorem exists_of_lexeme {lexeme : Lexeme} (h : n.Shortens (token :: more) ts')
    (lexeme_eq : token.lexeme = lexeme) (hne : lexeme ≠ .opening) :
    ∃ more', ts' = token :: more' ∧ n.Shortens more more' := by
  obtain ⟨more', rfl, -, -, hmore⟩ := h.exists_of_ne_opening (by rwa [lexeme_eq])
  exact ⟨more', rfl, hmore⟩

/-- What a shortened line begins with as before is kept. -/
theorem exists_of_head? (h : n.Shortens (token :: more) ts') (hhead : ts'.head? = some token) :
    ∃ more', ts' = token :: more' ∧ n.Shortens more more' := by
  obtain ⟨more', rfl, -, -, hmore⟩ | ⟨rfl, later, later', -, rfl, -⟩ := h.cons_cases
  · exact ⟨more', rfl, hmore⟩
  · have hname : n.token.lexeme = .opening := by rw [Option.some.inj hhead, n.opens]
    rw [n.lexeme_eq] at hname
    cases hname

theorem ne_nil (h : n.Shortens ts ts') (hne : ts ≠ []) : ts' ≠ [] := by
  cases h with
  | nil => exact absurd rfl hne
  | keep => exact List.cons_ne_nil _ _
  | name => exact List.cons_ne_nil _ _

/-- **What is not there to go on with is not there in the shortened line**, as long as no
name goes on with it. -/
theorem forall_head? {P : Token → Prop} (h : n.Shortens ts ts')
    (hts : ∀ token ∈ ts.head?, P token) (hname : P n.token) : ∀ token ∈ ts'.head?, P token := by
  cases h with
  | nil => exact nofun
  | keep => exact hts
  | name =>
    rintro _ ⟨⟩
    exact hname

end Shortens

/-! ## Two lines are read side by side -/

/-- A group is read as its phrase, whichever course the reading takes. -/
theorem eq_of_course {stop : ℕ} {inner : Expr} {later rest : List Token}
    (h : Course stop .sum (n.inner.tokens ++ n.closing :: later) inner rest) :
    inner = n.inner.toExpr ∧ rest = n.closing :: later := by
  have hread : (readSum stop (n.inner.tokens ++ n.closing :: later)).result = (inner, rest) :=
    h.reads
  have hphrase : (readSum stop (n.inner.tokens ++ n.closing :: later)).result
      = (n.inner.toExpr, n.closing :: later) :=
    n.inner.reads (Category.stops_closing n.closes later)
  exact Prod.mk.inj (hread.symm.trans hphrase)

/-- **A shortened line is read along a course of the same shape.** It leaves what the line
leaves, shortened, and the trees come to outcomes of the same kind. -/
theorem Shortens.course {ctx : Context} {env env' : Environment} {stop : ℕ} {c : Category}
    {e : c.Tree} {rest : List Token} (hname : n.StandsFor ctx env env')
    (h : Course stop c ts e rest) :
    ∀ {ts'}, n.Shortens ts ts' → ∃ e' rest', Course stop c ts' e' rest' ∧ n.Shortens rest rest'
      ∧ c.Alike ctx env env' e e' := by
  induction h with
  | sum _ _ ihFirst ihTail =>
    intro ts' hts
    obtain ⟨first', mid', hfirst, hmid, hfirstAlike⟩ := ihFirst hts
    obtain ⟨tail', rest', htail, hrest, htailAlike⟩ := ihTail hmid
    exact ⟨_, rest', .sum hfirst htail, hrest, htailAlike _ _ hfirstAlike⟩
  | sumEnd not_additive =>
    intro ts' hts
    exact ⟨_, ts', .sumEnd (hts.forall_head? not_additive (by simp)), hts,
      fun _ _ hleft => hleft⟩
  | sumUnfinished lexeme_eq additive =>
    intro ts' hts
    obtain ⟨more', rfl, hmore⟩ := hts.exists_of_lexeme lexeme_eq (by simp)
    obtain rfl := hmore.eq_nil
    exact ⟨_, _, .sumUnfinished lexeme_eq additive, .nil,
      fun _ _ hleft => sameKind_eval_unfinished _ _ hleft⟩
  | sumStep lexeme_eq additive ne_nil _ _ ihTerm ihTail =>
    intro ts' hts
    obtain ⟨more', rfl, hmore⟩ := hts.exists_of_lexeme lexeme_eq (by simp)
    obtain ⟨term', mid', hterm, hmid, htermAlike⟩ := ihTerm hmore
    obtain ⟨tail', rest', htail, hrest, htailAlike⟩ := ihTail hmid
    exact ⟨_, rest', .sumStep lexeme_eq additive (hmore.ne_nil ne_nil) hterm htail, hrest,
      fun _ _ hleft => htailAlike _ _ (Expr.sameKind_eval_binary _ _ hleft htermAlike)⟩
  | product _ _ ihFirst ihTail =>
    intro ts' hts
    obtain ⟨first', mid', hfirst, hmid, hfirstAlike⟩ := ihFirst hts
    obtain ⟨tail', rest', htail, hrest, htailAlike⟩ := ihTail hmid
    exact ⟨_, rest', .product hfirst htail, hrest, htailAlike _ _ hfirstAlike⟩
  | productEnd not_multiplicative =>
    intro ts' hts
    exact ⟨_, ts', .productEnd (hts.forall_head? not_multiplicative (by simp)), hts,
      fun _ _ hleft => hleft⟩
  | productUnfinished lexeme_eq multiplicative =>
    intro ts' hts
    obtain ⟨more', rfl, hmore⟩ := hts.exists_of_lexeme lexeme_eq (by simp)
    obtain rfl := hmore.eq_nil
    exact ⟨_, _, .productUnfinished lexeme_eq multiplicative, .nil,
      fun _ _ hleft => sameKind_eval_unfinished _ _ hleft⟩
  | productStep lexeme_eq multiplicative ne_nil _ _ ihFactor ihTail =>
    intro ts' hts
    obtain ⟨more', rfl, hmore⟩ := hts.exists_of_lexeme lexeme_eq (by simp)
    obtain ⟨factor', mid', hfactor, hmid, hfactorAlike⟩ := ihFactor hmore
    obtain ⟨tail', rest', htail, hrest, htailAlike⟩ := ihTail hmid
    exact ⟨_, rest', .productStep lexeme_eq multiplicative (hmore.ne_nil ne_nil) hfactor htail,
      hrest, fun _ _ hleft => htailAlike _ _ (Expr.sameKind_eval_binary _ _ hleft hfactorAlike)⟩
  | plain _ not_power ih =>
    intro ts' hts
    obtain ⟨base', rest', hbase, hrest, halike⟩ := ih hts
    exact ⟨_, rest', .plain hbase (hrest.forall_head? not_power (by simp)), hrest, halike⟩
  | powerUnfinished _ lexeme_eq ih =>
    intro ts' hts
    obtain ⟨base', after', hbase, hafter, halike⟩ := ih hts
    obtain ⟨more', rfl, hmore⟩ := hafter.exists_of_lexeme lexeme_eq (by simp)
    obtain rfl := hmore.eq_nil
    exact ⟨_, _, .powerUnfinished hbase lexeme_eq, .nil, sameKind_eval_unfinished _ _ halike⟩
  | raised _ lexeme_eq ne_nil _ ihBase ihExponent =>
    intro ts' hts
    obtain ⟨base', after', hbase, hafter, hbaseAlike⟩ := ihBase hts
    obtain ⟨more', rfl, hmore⟩ := hafter.exists_of_lexeme lexeme_eq (by simp)
    obtain ⟨exponent', rest', hexponent, hrest, hexponentAlike⟩ := ihExponent hmore
    exact ⟨_, rest', .raised hbase lexeme_eq (hmore.ne_nil ne_nil) hexponent, hrest,
      Expr.sameKind_eval_binary _ _ hbaseAlike hexponentAlike⟩
  | minus lexeme_eq _ ih =>
    intro ts' hts
    obtain ⟨more', rfl, hmore⟩ := hts.exists_of_lexeme lexeme_eq (by simp)
    obtain ⟨operand', rest', hoperand, hrest, halike⟩ := ih hmore
    exact ⟨_, rest', .minus lexeme_eq hoperand, hrest, halike.map⟩
  | plus lexeme_eq _ ih =>
    intro ts' hts
    obtain ⟨more', rfl, hmore⟩ := hts.exists_of_lexeme lexeme_eq (by simp)
    obtain ⟨operand', rest', hoperand, hrest, halike⟩ := ih hmore
    exact ⟨_, rest', .plus lexeme_eq hoperand, hrest, halike⟩
  | unsigned not_sign _ ih =>
    intro ts' hts
    obtain ⟨operand', rest', hoperand, hrest, halike⟩ := ih hts
    have not_sign' := hts.forall_head? not_sign (by simp)
    exact ⟨_, rest', .unsigned not_sign' hoperand, hrest, halike⟩
  | bare _ not_unit ih =>
    intro ts' hts
    obtain ⟨atom', rest', hatom, hrest, halike⟩ := ih hts
    exact ⟨_, rest', .bare hatom (hrest.forall_head? not_unit (by simp)), hrest, halike⟩
  | inUnit _ lexeme_eq ih =>
    intro ts' hts
    obtain ⟨atom', after', hatom, hafter, halike⟩ := ih hts
    obtain ⟨more', rfl, hmore⟩ := hafter.exists_of_lexeme lexeme_eq (by simp)
    exact ⟨_, more', .inUnit hatom lexeme_eq, hmore, halike.bind fun _ => .same _⟩
  | number lexeme_eq rest =>
    intro ts' hts
    obtain ⟨more', rfl, hmore⟩ := hts.exists_of_lexeme lexeme_eq (by simp)
    exact ⟨_, more', .number lexeme_eq more', hmore, .same _⟩
  | answer lexeme_eq rest =>
    intro ts' hts
    obtain ⟨more', rfl, hmore⟩ := hts.exists_of_lexeme lexeme_eq (by simp)
    refine ⟨_, more', .answer lexeme_eq more', hmore, ?_⟩
    show SameKind (Except.ok env.answer) (Except.ok env'.answer)
    rw [hname.answer_eq]
    exact .same _
  | @named token name lexeme_eq rest =>
    intro ts' hts
    obtain ⟨more', rfl, other, -, hmore⟩ := hts.exists_of_ne_opening (by simp [lexeme_eq])
    refine ⟨_, more', .named lexeme_eq more', hmore, ?_⟩
    show SameKind (Expr.eval ctx env (.variable name token.position))
      (Expr.eval ctx env' (.variable name token.position))
    have hother : name ≠ n.name := by
      rw [lexeme_eq] at other
      exact fun heq => other (congrArg Lexeme.variable heq)
    rw [Expr.eval, Expr.eval, hname.lookup_eq name hother]
    exact .same _
  | call lexeme_eq opens _ closes ih =>
    intro ts' hts
    obtain ⟨more', rfl, -, hsame, hmore⟩ := hts.exists_of_ne_opening (by simp [lexeme_eq])
    obtain ⟨inside', rfl, hinside⟩ := hmore.exists_of_head? (hsame _ lexeme_eq)
    obtain ⟨argument', after', hargument, hafter, halike⟩ := ih hinside
    obtain ⟨rest', rfl, hrest⟩ := hafter.exists_of_lexeme closes (by simp)
    exact ⟨_, rest', .call lexeme_eq opens hargument closes, hrest,
      halike.bind fun _ => .same _⟩
  | callUnclosed lexeme_eq opens _ not_closing ih =>
    intro ts' hts
    obtain ⟨more', rfl, -, hsame, hmore⟩ := hts.exists_of_ne_opening (by simp [lexeme_eq])
    obtain ⟨inside', rfl, hinside⟩ := hmore.exists_of_head? (hsame _ lexeme_eq)
    obtain ⟨argument', after', hargument, hafter, halike⟩ := ih hinside
    have not_closing' := hafter.forall_head? not_closing (by simp)
    exact ⟨_, _, .callUnclosed lexeme_eq opens hargument not_closing', .nil,
      Expr.sameKind_eval_thenStray _ halike rfl⟩
  | unopened lexeme_eq not_opening =>
    intro ts' hts
    obtain ⟨more', rfl, -, hsame, -⟩ := hts.exists_of_ne_opening (by simp [lexeme_eq])
    refine ⟨_, _, .unopened lexeme_eq ?_, .nil, .same _⟩
    rwa [hsame _ lexeme_eq]
  | group opens inner_course closes ih =>
    intro ts' hts
    obtain ⟨inside', rfl, -, -, hinside⟩ | ⟨rfl, later, later', rfl, rfl, hlater⟩ :=
      hts.cons_cases
    · obtain ⟨inner', after', hinner, hafter, halike⟩ := ih hinside
      obtain ⟨rest', rfl, hrest⟩ := hafter.exists_of_lexeme closes (by simp)
      exact ⟨_, rest', .group opens hinner closes, hrest, halike⟩
    -- the group that has the name: it is read as its phrase, and the name as its value
    · obtain ⟨rfl, heq⟩ := n.eq_of_course inner_course
      obtain ⟨rfl, rfl⟩ := List.cons.inj heq
      obtain ⟨x, hx, hlookup⟩ := hname.exists_value
      refine ⟨_, later', .named n.lexeme_eq later', hlater, ?_⟩
      show SameKind (n.inner.toExpr.eval ctx env)
        (Expr.eval ctx env' (.variable n.name n.token.position))
      have hinner : n.inner.toExpr.eval ctx env = n.inner.eval ctx env :=
        n.inner.eval_toExpr ctx env
      rw [hinner, hx, Expr.eval, hlookup]
      exact .same _
  | groupUnclosed opens inner_course not_closing ih =>
    intro ts' hts
    obtain ⟨inside', rfl, -, -, hinside⟩ | ⟨rfl, later, later', rfl, rfl, hlater⟩ :=
      hts.cons_cases
    · obtain ⟨inner', after', hinner, hafter, halike⟩ := ih hinside
      have not_closing' := hafter.forall_head? not_closing (by simp)
      exact ⟨_, _, .groupUnclosed opens hinner not_closing', .nil,
        Expr.sameKind_eval_thenStray _ halike rfl⟩
    · obtain ⟨-, rfl⟩ := n.eq_of_course inner_course
      exact absurd n.closes (not_closing n.closing rfl)
  | ended =>
    intro ts' hts
    obtain rfl := hts.eq_nil
    exact ⟨_, _, .ended, .nil, .same _⟩
  | @unexpected token _ not_starts =>
    intro ts' hts
    have hne : token.lexeme ≠ .opening := by
      intro hopening
      rw [hopening] at not_starts
      cases not_starts
    obtain ⟨more', rfl, -⟩ := hts.exists_of_ne_opening hne
    exact ⟨_, _, .unexpected not_starts, .nil, .same _⟩

/-! ## Lines -/

/-- **A shortened line comes to an outcome of the same kind.** -/
theorem Shortens.sameKind_eval {ctx : Context} {env env' : Environment}
    (hname : n.StandsFor ctx env env') (h : n.Shortens ts ts') (stop : ℕ) :
    SameKind ((Expr.ofTokens ts stop).eval ctx env)
      ((Expr.ofTokens ts' stop).eval ctx env') := by
  obtain ⟨e, rest, hcourse, hread⟩ := exists_course_readSum stop ts
  obtain ⟨e', rest', hcourse', hrest, halike⟩ := Shortens.course hname hcourse h
  have hread' : (readSum stop ts').result = (e', rest') := hcourse'.reads
  cases rest with
  | nil =>
    obtain rfl := hrest.eq_nil
    rw [ofTokens_complete hread, ofTokens_complete hread']
    exact halike
  | cons token rest =>
    rw [ofTokens_stray hread]
    obtain ⟨more', rfl, -⟩ | ⟨rfl, later, later', -, rfl, -⟩ := hrest.cons_cases
    · rw [ofTokens_stray hread']
      exact Expr.sameKind_eval_thenStray _ halike rfl
    -- the stray token is the parenthesis in one line and the name in the other
    · rw [ofTokens_stray hread', n.position_eq]
      exact Expr.sameKind_eval_thenStray _ halike rfl

/-- Tokens without the name are kept. -/
theorem shortens_self (h : ∀ token ∈ ts, token.lexeme ≠ .variable n.name) :
    n.Shortens ts ts := by
  induction ts with
  | nil => exact .nil
  | cons token ts ih =>
    obtain ⟨hfirst, hlater⟩ := List.forall_mem_cons.mp h
    exact .keep hfirst (fun _ _ => rfl) (ih hlater)

/-- **The name is put in the place of the group**, which does not stand right behind a
function. -/
theorem shortens_group {before after : List Token}
    (hbefore : ∀ token ∈ before.getLast?, ∀ f, token.lexeme ≠ .function f)
    (hfresh : ∀ token ∈ before ++ after, token.lexeme ≠ .variable n.name) :
    n.Shortens (before ++ (n.group ++ after)) (before ++ n.token :: after) := by
  induction before with
  | nil =>
    rw [List.nil_append, List.nil_append, group, List.cons_append, List.append_assoc]
    exact .name (shortens_self hfresh)
  | cons token before ih =>
    obtain ⟨hfirst, hlater⟩ := List.forall_mem_cons.mp hfresh
    cases before with
    | nil =>
      exact .keep hfirst (fun f hf => absurd hf (hbefore token rfl f)) (ih nofun hlater)
    | cons next before =>
      rw [List.getLast?_cons_cons] at hbefore
      exact .keep hfirst (fun _ _ => rfl) (ih hbefore hlater)

/-- **A part of a line may be given a name.** Where a sum in parentheses has a value and the
name is bound to it, a line with the group and the line with the name in its place come to
the same value, or to faults of the same kind at the same place. The group may not be the
argument of a function, and the name may not stand elsewhere in the line. -/
theorem eval_ofTokens (n : Naming) {ctx : Context} {env env' : Environment}
    (hname : n.StandsFor ctx env env') {before after : List Token}
    (hbefore : ∀ token ∈ before.getLast?, ∀ f, token.lexeme ≠ .function f)
    (hfresh : ∀ token ∈ before ++ after, token.lexeme ≠ .variable n.name) (stop : ℕ) :
    SameKind ((Expr.ofTokens (before ++ (n.group ++ after)) stop).eval ctx env)
      ((Expr.ofTokens (before ++ n.token :: after) stop).eval ctx env') :=
  (shortens_group hbefore hfresh).sameKind_eval hname stop

/-- The two in parentheses under the name `n`, at the third place of a line. -/
def two : Naming where
  opening := ⟨.opening, ['('], 2⟩
  opens := rfl
  inner := .sum (.product (.plain (.unsigned (.bare
    (.number ⟨.number ⟨['2'], none⟩, ['2'], 3⟩ ⟨['2'], none⟩ rfl)))) .productEnd) .sumEnd
  closing := ⟨.closing, [')'], 4⟩
  closes := rfl
  token := ⟨.variable "n", ['$', 'n'], 2⟩
  name := "n"
  lexeme_eq := rfl
  position_eq := rfl

/-- Where `n` is two, `9^(2)` and `9^$n` come to the same. -/
theorem eval_ofTokens_two :
    SameKind
      ((Expr.ofTokens ([⟨.number ⟨['9'], none⟩, ['9'], 0⟩, ⟨.operator .power, ['^'], 1⟩]
        ++ (two.group ++ [])) 5).eval (.working 50) ⟨fun _ => none, .ofNat 0⟩)
      ((Expr.ofTokens ([⟨.number ⟨['9'], none⟩, ['9'], 0⟩, ⟨.operator .power, ['^'], 1⟩]
        ++ two.token :: []) 5).eval (.working 50)
          ⟨fun name => if name = "n" then some (.ofNat 2) else none, .ofNat 0⟩) := by
  have hname : two.StandsFor (.working 50) ⟨fun _ => none, .ofNat 0⟩
      ⟨fun name => if name = "n" then some (.ofNat 2) else none, .ofNat 0⟩ :=
    ⟨⟨.ofNat 2, rfl, rfl⟩, fun name hne => if_neg hne, rfl⟩
  exact two.eval_ofTokens hname (by simp) (by simp) 5

end Naming

end Reckoner
