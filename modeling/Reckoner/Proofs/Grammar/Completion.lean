import Reckoner.Proofs.Expr.Blame
import Reckoner.Proofs.Grammar.Origin
import Reckoner.Proofs.Grammar.Reading

/-!
# Lines that break off

A line is unfinished if it ends behind an operator, at a point that its evaluation comes to.
Up to there everything has had a value, and what the operator waits for is an operand. The
line is then the beginning of a sum: it is one with any number behind it and a closing
parenthesis for each that is open (`IsBeginning`, `isBeginning_of_ofTokens`).

The open parentheses are those of the rules that were under way when the line broke off. A
course of the reading has them at hand (`Course.isBeginning`): a rule below which the line
breaks off leaves no token, so none of the rules around it has come to its own end.

The names of such a line are bound, since they have had values. What can be wrong with it
once it is completed is therefore arithmetic (`Expr.IsMadeOf.faultsIn_eval`).
-/

namespace Reckoner

/-! ## Names that are bound -/

namespace Environment

/-- **An environment binds a token**: if the token is a variable, it has a value. -/
def Binds (env : Environment) (token : Token) : Prop :=
  ∀ name, token.lexeme = .variable name → ∃ x, env.lookup name = some x

/-- **Tokens are bound up to a rest** that is left of them. -/
def BindsUpTo (env : Environment) (ts rest : List Token) : Prop :=
  ∀ token ∈ ts, token ∈ rest ∨ env.Binds token

variable {env : Environment} {token : Token} {lexeme : Lexeme} {ts mid rest : List Token}

theorem Binds.of_lexeme (h : token.lexeme = lexeme) (hne : ∀ name, lexeme ≠ .variable name) :
    env.Binds token := fun name hname => absurd (h.symm.trans hname) (hne name)

namespace BindsUpTo

theorem refl (env : Environment) (ts : List Token) : env.BindsUpTo ts ts :=
  fun _ htoken => .inl htoken

theorem trans (h : env.BindsUpTo ts mid) (hrest : env.BindsUpTo mid rest) :
    env.BindsUpTo ts rest := by
  intro token htoken
  obtain hmid | hbinds := h token htoken
  · exact hrest token hmid
  · exact .inr hbinds

theorem cons (hbinds : env.Binds token) (h : env.BindsUpTo ts rest) :
    env.BindsUpTo (token :: ts) rest :=
  List.forall_mem_cons.mpr ⟨.inr hbinds, h⟩

end BindsUpTo

end Environment

/-- **A statement about what was read, if it has a value**: for a tail, what stands to the
left of it has one as well. -/
def Category.IfValue (ctx : Context) (env : Environment) (P : Prop) : (c : Category) → c.Tree → Prop
  | .sumTail, e | .productTail, e => ∀ left x, (e left).eval ctx env = .ok x →
    (∃ y, left.eval ctx env = .ok y) ∧ P
  | .sum, e | .product, e | .power, e | .signed, e | .operand, e | .atom, e =>
    ∀ x, Expr.eval ctx env e = .ok x → P

section Course

variable {ctx : Context} {env : Environment} {stop : ℕ} {c : Category} {ts rest : List Token}
  {e : c.Tree}

/-- **Where there is a value, the names are bound** up to the tokens that are left. -/
theorem Course.bindsUpTo (h : Course stop c ts e rest) :
    c.IfValue ctx env (env.BindsUpTo ts rest) e := by
  induction h with
  | sum _ _ ihFirst ihTail =>
    intro x hx
    obtain ⟨⟨y, hy⟩, htail⟩ := ihTail _ x hx
    exact (ihFirst y hy).trans htail
  | sumEnd => exact fun left x hx => ⟨⟨x, hx⟩, .refl env _⟩
  -- the operand that is missing has no value
  | sumUnfinished => exact fun left x hx => absurd (Expr.isFaultless_of_eval hx).2 id
  | sumStep lexeme_eq _ _ _ _ ihTerm ihTail =>
    intro left x hx
    obtain ⟨⟨y, hy⟩, htail⟩ := ihTail _ x hx
    obtain ⟨l, hl, hy⟩ := exists_of_bind_eq_ok hy
    obtain ⟨r, hr, -⟩ := exists_of_bind_eq_ok hy
    exact ⟨⟨l, hl⟩, .cons (.of_lexeme lexeme_eq (by simp)) ((ihTerm r hr).trans htail)⟩
  | product _ _ ihFirst ihTail =>
    intro x hx
    obtain ⟨⟨y, hy⟩, htail⟩ := ihTail _ x hx
    exact (ihFirst y hy).trans htail
  | productEnd => exact fun left x hx => ⟨⟨x, hx⟩, .refl env _⟩
  | productUnfinished => exact fun left x hx => absurd (Expr.isFaultless_of_eval hx).2 id
  | productStep lexeme_eq _ _ _ _ ihFactor ihTail =>
    intro left x hx
    obtain ⟨⟨y, hy⟩, htail⟩ := ihTail _ x hx
    obtain ⟨l, hl, hy⟩ := exists_of_bind_eq_ok hy
    obtain ⟨r, hr, -⟩ := exists_of_bind_eq_ok hy
    exact ⟨⟨l, hl⟩, .cons (.of_lexeme lexeme_eq (by simp)) ((ihFactor r hr).trans htail)⟩
  | plain _ _ ih => exact ih
  | powerUnfinished => exact fun x hx => absurd (Expr.isFaultless_of_eval hx).2 id
  | raised _ lexeme_eq _ _ ihBase ihExponent =>
    intro x hx
    obtain ⟨l, hl, hx⟩ := exists_of_bind_eq_ok hx
    obtain ⟨r, hr, -⟩ := exists_of_bind_eq_ok hx
    exact (ihBase l hl).trans (.cons (.of_lexeme lexeme_eq (by simp)) (ihExponent r hr))
  | minus lexeme_eq _ ih =>
    intro x hx
    obtain ⟨y, hy, -⟩ := exists_of_map_eq_ok hx
    exact .cons (.of_lexeme lexeme_eq (by simp)) (ih y hy)
  | plus lexeme_eq _ ih => exact fun x hx => .cons (.of_lexeme lexeme_eq (by simp)) (ih x hx)
  | unsigned _ _ ih => exact ih
  | bare _ _ ih => exact ih
  | inUnit _ lexeme_eq ih =>
    intro x hx
    obtain ⟨y, hy, -⟩ := exists_of_bind_eq_ok hx
    exact (ih y hy).trans (.cons (.of_lexeme lexeme_eq (by simp)) (.refl env _))
  | number lexeme_eq rest =>
    exact fun x _ => .cons (.of_lexeme lexeme_eq (by simp)) (.refl env rest)
  | answer lexeme_eq rest =>
    exact fun x _ => .cons (.of_lexeme lexeme_eq (by simp)) (.refl env rest)
  | @named token name lexeme_eq rest =>
    intro x hx
    refine .cons (fun name' hname' => ?_) (.refl env rest)
    obtain rfl := Lexeme.variable.inj (lexeme_eq.symm.trans hname')
    cases hlookup : env.lookup name with
    | some y => exact ⟨y, rfl⟩
    | none =>
      rw [Expr.eval, hlookup] at hx
      cases hx
  | call lexeme_eq opens _ closes ih =>
    intro x hx
    obtain ⟨y, hy, -⟩ := exists_of_bind_eq_ok hx
    exact .cons (.of_lexeme lexeme_eq (by simp)) (.cons (.of_lexeme opens (by simp))
      ((ih y hy).trans (.cons (.of_lexeme closes (by simp)) (.refl env _))))
  | callUnclosed => exact fun x hx => absurd (Expr.isFaultless_of_eval hx) id
  | unopened => exact fun x hx => absurd (Expr.isFaultless_of_eval hx) id
  | group opens _ closes ih =>
    intro x hx
    exact .cons (.of_lexeme opens (by simp))
      ((ih x hx).trans (.cons (.of_lexeme closes (by simp)) (.refl env _)))
  | groupUnclosed => exact fun x hx => absurd (Expr.isFaultless_of_eval hx) id
  | ended => exact fun x hx => absurd (Expr.isFaultless_of_eval hx) id
  | unexpected => exact fun x hx => absurd (Expr.isFaultless_of_eval hx) id

end Course

/-! ## Where a line breaks off -/

/-- **An evaluation that breaks off** behind an operator. -/
def BreaksOff {α : Type} (x : Except Failure α) : Prop :=
  ∃ fault, x = .error (.fault fault) ∧ fault.cause = .unfinishedExpression

namespace BreaksOff

variable {α β : Type} {x : Except Failure α}

/-- **A chain breaks off in one of its steps.** -/
theorem of_bind {f : α → Except Failure β} (h : BreaksOff (x >>= f)) :
    BreaksOff x ∨ ∃ a, x = .ok a ∧ BreaksOff (f a) := by
  obtain ⟨fault, h, hcause⟩ := h
  obtain hx | ⟨a, ha, hf⟩ := of_bind_eq_error h
  · exact .inl ⟨fault, hx, hcause⟩
  · exact .inr ⟨a, ha, fault, hf, hcause⟩

theorem of_map {f : α → β} (h : BreaksOff (x.map f)) : BreaksOff x := by
  obtain ⟨fault, h, hcause⟩ := h
  exact ⟨fault, of_map_eq_error h, hcause⟩

theorem not_ok (a : α) : ¬ BreaksOff (.ok a : Except Failure α) := by
  rintro ⟨fault, ⟨⟩, -⟩

theorem cause_eq {cause : Cause} {position : ℕ}
    (h : BreaksOff (.error (.at cause position) : Except Failure α)) :
    cause = .unfinishedExpression := by
  obtain ⟨fault, h, hcause⟩ := h
  obtain rfl := Failure.fault.inj (Except.error.inj h)
  exact hcause

/-- What is blamed for other things only does not break off. -/
theorem not_of_faultsIn (h : FaultsIn (fun fault => fault.cause ≠ .unfinishedExpression) x) :
    ¬ BreaksOff x := by
  rintro ⟨fault, hx, hcause⟩
  exact h fault hx hcause

end BreaksOff

section Nodes

variable {ctx : Context} {env : Environment} {op : Operator} {position : ℕ} {e left right : Expr}

/-- Only an operand of an operator breaks off. -/
theorem BreaksOff.of_binary
    (h : BreaksOff ((Expr.binary op position left right).eval ctx env)) :
    BreaksOff (left.eval ctx env)
      ∨ (∃ x, left.eval ctx env = .ok x) ∧ BreaksOff (right.eval ctx env) := by
  rw [Expr.eval] at h
  obtain h | ⟨x, hx, h⟩ := h.of_bind
  · exact .inl h
  · obtain h | ⟨y, hy, h⟩ := h.of_bind
    · exact .inr ⟨⟨x, hx⟩, h⟩
    · refine absurd h (not_of_faultsIn (op.faultsIn_apply ctx x y fun cause hcause => ?_))
      cases hcause <;> simp [Fault.evaluation]

/-- Where the left operand has a value, the right one breaks off. -/
theorem BreaksOff.of_binary_right {x : Decimal}
    (h : BreaksOff ((Expr.binary op position left right).eval ctx env))
    (hx : left.eval ctx env = .ok x) : BreaksOff (right.eval ctx env) := by
  obtain hleft | ⟨-, hright⟩ := h.of_binary
  · rw [hx] at hleft
    exact absurd hleft (not_ok x)
  · exact hright

/-- The right operand of an operator with a value has one. -/
theorem Expr.exists_eval_right {y : Decimal}
    (h : (binary op position left right).eval ctx env = .ok y) :
    ∃ r, right.eval ctx env = .ok r := by
  obtain ⟨l, -, h⟩ := exists_of_bind_eq_ok h
  obtain ⟨r, hr, -⟩ := exists_of_bind_eq_ok h
  exact ⟨r, hr⟩

theorem BreaksOff.of_inUnit {u : UnitSuffix}
    (h : BreaksOff ((Expr.inUnit u position e).eval ctx env)) : BreaksOff (e.eval ctx env) := by
  rw [Expr.eval] at h
  obtain h | ⟨x, hx, h⟩ := h.of_bind
  · exact h
  · exact absurd h (not_of_faultsIn (u.faultsIn_apply x (by simp [Fault.evaluation])))

theorem BreaksOff.of_call {f : Builtin}
    (h : BreaksOff ((Expr.call f position e).eval ctx env)) : BreaksOff (e.eval ctx env) := by
  rw [Expr.eval] at h
  obtain h | ⟨x, hx, h⟩ := h.of_bind
  · exact h
  · refine absurd h (not_of_faultsIn (f.faultsIn_apply ctx x fun cause hcause => ?_))
    cases hcause <;> simp [Fault.evaluation]

/-- What comes before a stray token breaks off, unless the stray token is where the line
does. -/
theorem BreaksOff.of_thenStray {cause : Cause} (hcause : cause ≠ .unfinishedExpression)
    (h : BreaksOff ((Expr.thenStray e cause position).eval ctx env)) :
    BreaksOff (e.eval ctx env) := by
  rw [Expr.eval] at h
  obtain h | ⟨x, hx, h⟩ := h.of_bind
  · exact h
  · exact absurd h.cause_eq hcause

end Nodes

/-- **A tail goes on from the outcome on its left**, and so has no other failure where there
is one before it. -/
def Category.GoesOn (ctx : Context) (env : Environment) : (c : Category) → c.Tree → Prop
  | .sumTail, e | .productTail, e =>
    ∃ m : Decimal → Except Failure Decimal,
      ∀ left, (e left).eval ctx env = left.eval ctx env >>= m
  | _, _ => True

theorem Course.goesOn {stop : ℕ} {c : Category} {ts rest : List Token} {e : c.Tree}
    (h : Course stop c ts e rest) (ctx : Context) (env : Environment) : c.GoesOn ctx env e := by
  induction h with
  | sumEnd => exact ⟨.ok, fun left => (bind_pure _).symm⟩
  | sumUnfinished => exact ⟨_, fun left => rfl⟩
  | @sumStep token op _ _ _ term _ _ _ _ _ _ _ ihTail =>
    obtain ⟨m, hm⟩ := ihTail
    refine ⟨fun x => (term.eval ctx env >>= op.apply ctx token.position x) >>= m, fun left => ?_⟩
    rw [hm, Expr.eval, bind_assoc]
  | productEnd => exact ⟨.ok, fun left => (bind_pure _).symm⟩
  | productUnfinished => exact ⟨_, fun left => rfl⟩
  | @productStep token op _ _ _ factor _ _ _ _ _ _ _ ihTail =>
    obtain ⟨m, hm⟩ := ihTail
    refine ⟨fun x => (factor.eval ctx env >>= op.apply ctx token.position x) >>= m, fun left => ?_⟩
    rw [hm, Expr.eval, bind_assoc]
  | _ => trivial

/-! ## Beginnings -/

/-- **The beginning of a phrase**, up to an operator and with all its names bound: it is a
phrase with any number behind it and as many closing parentheses as are missing. -/
structure Environment.IsBeginning (env : Environment) (c : Category) (ts : List Token) : Prop where
  exists_last : ∃ token op, ts.getLast? = some token ∧ token.lexeme = .operator op
  binds : ∀ token ∈ ts, env.Binds token
  exists_missing : ∃ missing : ℕ, ∀ (one : Token) (numeral : Numeral) (closings : List Token),
    one.lexeme = .number numeral → closings.length = missing →
      (∀ closing ∈ closings, closing.lexeme = .closing) →
        ∃ d : Phrase c, d.tokens = ts ++ one :: closings

namespace Environment.IsBeginning

variable {env : Environment} {c c' : Category} {ts : List Token}

/-- It ends in an operator, whatever stands before it. -/
theorem exists_last_append (h : env.IsBeginning c ts) (before : List Token) :
    ∃ token op, (before ++ ts).getLast? = some token ∧ token.lexeme = .operator op := by
  obtain ⟨token, op, hlast, lexeme_eq⟩ := h.exists_last
  refine ⟨token, op, ?_, lexeme_eq⟩
  rw [List.getLast?_append, hlast]
  rfl

/-- **What stands before the beginning of a part** begins the whole with it, if its names are
bound. -/
theorem behind (h : env.IsBeginning c ts) (before : List Token)
    (hbefore : env.BindsUpTo (before ++ ts) ts)
    (hphrase : ∀ d : Phrase c, ∃ d' : Phrase c', d'.tokens = before ++ d.tokens) :
    env.IsBeginning c' (before ++ ts) := by
  obtain ⟨missing, hmissing⟩ := h.exists_missing
  refine ⟨h.exists_last_append before, fun token htoken => ?_, missing,
    fun one numeral closings hone hlength hclosings => ?_⟩
  · obtain hts | hbinds := hbefore token htoken
    · exact h.binds token hts
    · exact hbinds
  · obtain ⟨d, hd⟩ := hmissing one numeral closings hone hlength hclosings
    obtain ⟨d', hd'⟩ := hphrase d
    exact ⟨d', by rw [hd', hd, List.append_assoc]⟩

/-- The beginning of a part with nothing before it. -/
theorem part (h : env.IsBeginning c ts)
    (hphrase : ∀ d : Phrase c, ∃ d' : Phrase c', d'.tokens = d.tokens) :
    env.IsBeginning c' ts :=
  h.behind [] (.refl env ts) hphrase

/-- **A sum that has been opened** lacks one closing parenthesis more. -/
theorem enclosed (h : env.IsBeginning .sum ts) (before : List Token)
    (hbefore : ∀ token ∈ before, env.Binds token)
    (hphrase : ∀ (inner : Phrase .sum) (closing : Token), closing.lexeme = .closing →
      ∃ d : Phrase c, d.tokens = before ++ (inner.tokens ++ [closing])) :
    env.IsBeginning c (before ++ ts) := by
  obtain ⟨missing, hmissing⟩ := h.exists_missing
  refine ⟨h.exists_last_append before, List.forall_mem_append.mpr ⟨hbefore, h.binds⟩,
    missing + 1, ?_⟩
  intro one numeral closings hone hlength hclosings
  obtain rfl | ⟨inner, last, rfl⟩ := List.eq_nil_or_concat closings
  · cases hlength
  · rw [List.concat_eq_append] at hlength hclosings ⊢
    obtain ⟨hinner, hlast⟩ := List.forall_mem_append.mp hclosings
    have hinnerLength : inner.length = missing := by
      rw [List.length_append, List.length_singleton] at hlength
      exact Nat.succ.inj hlength
    obtain ⟨sum, hsum⟩ := hmissing one numeral inner hone hinnerLength hinner
    obtain ⟨d, hd⟩ := hphrase sum last (hlast last (List.mem_singleton_self last))
    exact ⟨d, by rw [hd, hsum]; simp⟩

/-- **The operator behind which a line breaks off** lacks no more than a number. -/
theorem unfinished {token : Token} {op : Operator} (lexeme_eq : token.lexeme = .operator op)
    (before : List Token) (hbefore : env.BindsUpTo (before ++ [token]) [token])
    (hphrase : ∀ power : Phrase .power,
      ∃ d : Phrase c, d.tokens = before ++ token :: power.tokens) :
    env.IsBeginning c (before ++ [token]) := by
  refine ⟨⟨token, op, List.getLast?_concat, lexeme_eq⟩, fun other hother => ?_, 0,
    fun one numeral closings hone hlength _ => ?_⟩
  · obtain hlast | hbinds := hbefore other hother
    · exact List.mem_singleton.mp hlast ▸ .of_lexeme lexeme_eq (by simp)
    · exact hbinds
  · obtain rfl := List.length_eq_zero_iff.mp hlength
    obtain ⟨d, hd⟩ := hphrase (.plain (.unsigned (.bare (.number one numeral hone))))
    exact ⟨d, by rw [hd, List.append_assoc]; rfl⟩

end Environment.IsBeginning

/-- **A statement about what was read, if it breaks off** where what stands to the left of it
has a value. -/
def Category.IfBreaksOff (ctx : Context) (env : Environment) (P : Prop) :
    (c : Category) → c.Tree → Prop
  | .sumTail, e | .productTail, e => ∀ left x, left.eval ctx env = .ok x →
    BreaksOff ((e left).eval ctx env) → P
  | .sum, e | .product, e | .power, e | .signed, e | .operand, e | .atom, e =>
    BreaksOff (Expr.eval ctx env e) → P

/-- **What breaks off is a beginning**, and no token is left behind it. -/
theorem Course.isBeginning {stop : ℕ} {c : Category} {ts rest : List Token} {e : c.Tree}
    (h : Course stop c ts e rest) (ctx : Context) (env : Environment) :
    c.IfBreaksOff ctx env (rest = [] ∧ env.IsBeginning c ts) e := by
  induction h with
  | sum first_course tail_course ihFirst ihTail =>
    intro hbreaks
    obtain ⟨m, hm⟩ := tail_course.goesOn ctx env
    rw [hm] at hbreaks
    obtain hfirst | ⟨x, hx, htail⟩ := hbreaks.of_bind
    · obtain ⟨rfl, hbegins⟩ := ihFirst hfirst
      exact ⟨List.suffix_nil.mp tail_course.suffix,
        hbegins.part fun d => ⟨.sum d .sumEnd, List.append_nil _⟩⟩
    · have hbinds : env.BindsUpTo _ _ := first_course.bindsUpTo x hx
      obtain ⟨first, rfl⟩ := first_course.exists_phrase (Expr.isFaultless_of_eval hx)
      obtain ⟨hrest, hbegins⟩ := ihTail _ x hx (by rwa [hm, hx])
      exact ⟨hrest, hbegins.behind first.tokens hbinds fun d => ⟨.sum first d, rfl⟩⟩
  | sumEnd =>
    intro left x hx hbreaks
    rw [hx] at hbreaks
    exact absurd hbreaks (BreaksOff.not_ok x)
  | sumUnfinished lexeme_eq additive =>
    intro left x hx hbreaks
    exact ⟨rfl, .unfinished lexeme_eq [] (.refl env _) fun d =>
      ⟨.sumStep _ _ lexeme_eq additive (.product d .productEnd) .sumEnd, by simp [Phrase.tokens]⟩⟩
  | @sumStep token op _ _ _ _ _ lexeme_eq additive _ term_course tail_course ihTerm ihTail =>
    intro left x hx hbreaks
    have htoken : env.Binds token := .of_lexeme lexeme_eq (by simp)
    obtain ⟨m, hm⟩ := tail_course.goesOn ctx env
    rw [hm] at hbreaks
    obtain hstep | ⟨y, hy, htail⟩ := hbreaks.of_bind
    · obtain ⟨rfl, hbegins⟩ := ihTerm (hstep.of_binary_right hx)
      exact ⟨List.suffix_nil.mp tail_course.suffix,
        hbegins.behind [token] (.cons htoken (.refl env _)) fun d =>
          ⟨.sumStep token op lexeme_eq additive d .sumEnd, by simp [Phrase.tokens]⟩⟩
    · obtain ⟨r, hr⟩ := Expr.exists_eval_right hy
      have hbinds : env.BindsUpTo _ _ := term_course.bindsUpTo r hr
      obtain ⟨term, rfl⟩ := term_course.exists_phrase (Expr.isFaultless_of_eval hr)
      obtain ⟨hrest, hbegins⟩ := ihTail _ y hy (by rwa [hm, hy])
      exact ⟨hrest, hbegins.behind (token :: term.tokens) (.cons htoken hbinds) fun d =>
        ⟨.sumStep token op lexeme_eq additive term d, rfl⟩⟩
  | product first_course tail_course ihFirst ihTail =>
    intro hbreaks
    obtain ⟨m, hm⟩ := tail_course.goesOn ctx env
    rw [hm] at hbreaks
    obtain hfirst | ⟨x, hx, htail⟩ := hbreaks.of_bind
    · obtain ⟨rfl, hbegins⟩ := ihFirst hfirst
      exact ⟨List.suffix_nil.mp tail_course.suffix,
        hbegins.part fun d => ⟨.product d .productEnd, List.append_nil _⟩⟩
    · have hbinds : env.BindsUpTo _ _ := first_course.bindsUpTo x hx
      obtain ⟨first, rfl⟩ := first_course.exists_phrase (Expr.isFaultless_of_eval hx)
      obtain ⟨hrest, hbegins⟩ := ihTail _ x hx (by rwa [hm, hx])
      exact ⟨hrest, hbegins.behind first.tokens hbinds fun d => ⟨.product first d, rfl⟩⟩
  | productEnd =>
    intro left x hx hbreaks
    rw [hx] at hbreaks
    exact absurd hbreaks (BreaksOff.not_ok x)
  | productUnfinished lexeme_eq multiplicative =>
    intro left x hx hbreaks
    exact ⟨rfl, .unfinished lexeme_eq [] (.refl env _) fun d =>
      ⟨.productStep _ _ lexeme_eq multiplicative d .productEnd, by simp [Phrase.tokens]⟩⟩
  | @productStep token op _ _ _ _ _ lexeme_eq multiplicative _ factor_course tail_course ihFactor
      ihTail =>
    intro left x hx hbreaks
    have htoken : env.Binds token := .of_lexeme lexeme_eq (by simp)
    obtain ⟨m, hm⟩ := tail_course.goesOn ctx env
    rw [hm] at hbreaks
    obtain hstep | ⟨y, hy, htail⟩ := hbreaks.of_bind
    · obtain ⟨rfl, hbegins⟩ := ihFactor (hstep.of_binary_right hx)
      exact ⟨List.suffix_nil.mp tail_course.suffix,
        hbegins.behind [token] (.cons htoken (.refl env _)) fun d =>
          ⟨.productStep token op lexeme_eq multiplicative d .productEnd, by simp [Phrase.tokens]⟩⟩
    · obtain ⟨r, hr⟩ := Expr.exists_eval_right hy
      have hbinds : env.BindsUpTo _ _ := factor_course.bindsUpTo r hr
      obtain ⟨factor, rfl⟩ := factor_course.exists_phrase (Expr.isFaultless_of_eval hr)
      obtain ⟨hrest, hbegins⟩ := ihTail _ y hy (by rwa [hm, hy])
      exact ⟨hrest, hbegins.behind (token :: factor.tokens) (.cons htoken hbinds) fun d =>
        ⟨.productStep token op lexeme_eq multiplicative factor d, rfl⟩⟩
  | plain _ _ ih =>
    intro hbreaks
    obtain ⟨hrest, hbegins⟩ := ih hbreaks
    exact ⟨hrest, hbegins.part fun d => ⟨.plain d, rfl⟩⟩
  | @powerUnfinished _ token _ base_course lexeme_eq ih =>
    intro hbreaks
    obtain hbase | ⟨⟨x, hx⟩, -⟩ := hbreaks.of_binary
    · obtain ⟨hrest, -⟩ := ih hbase
      cases hrest
    · have hbinds : env.BindsUpTo _ _ := base_course.bindsUpTo x hx
      obtain ⟨base, rfl⟩ := base_course.exists_phrase (Expr.isFaultless_of_eval hx)
      exact ⟨rfl, .unfinished lexeme_eq base.tokens hbinds fun d =>
        ⟨.raised base token lexeme_eq d, rfl⟩⟩
  | @raised _ more _ token _ _ base_course lexeme_eq _ _ ihBase ihExponent =>
    intro hbreaks
    obtain hbase | ⟨⟨x, hx⟩, hexponent⟩ := hbreaks.of_binary
    · obtain ⟨hrest, -⟩ := ihBase hbase
      cases hrest
    · have hbinds : env.BindsUpTo _ _ := base_course.bindsUpTo x hx
      have htoken : env.BindsUpTo (token :: more) more :=
        .cons (.of_lexeme lexeme_eq (by simp)) (.refl env more)
      obtain ⟨base, rfl⟩ := base_course.exists_phrase (Expr.isFaultless_of_eval hx)
      obtain ⟨hrest, hbegins⟩ := ihExponent hexponent
      refine ⟨hrest, ?_⟩
      rw [List.append_cons]
      refine hbegins.behind (base.tokens ++ [token]) ?_ fun d =>
        ⟨.raised base token lexeme_eq d, List.append_cons ..⟩
      rw [← List.append_cons]
      exact hbinds.trans htoken
  | @minus token _ _ _ lexeme_eq _ ih =>
    intro hbreaks
    obtain ⟨hrest, hbegins⟩ := ih hbreaks.of_map
    exact ⟨hrest, hbegins.behind [token] (.cons (.of_lexeme lexeme_eq (by simp)) (.refl env _))
      fun d => ⟨.minus token lexeme_eq d, rfl⟩⟩
  | @plus token _ _ _ lexeme_eq _ ih =>
    intro hbreaks
    obtain ⟨hrest, hbegins⟩ := ih hbreaks
    exact ⟨hrest, hbegins.behind [token] (.cons (.of_lexeme lexeme_eq (by simp)) (.refl env _))
      fun d => ⟨.plus token lexeme_eq d, rfl⟩⟩
  | unsigned _ _ ih =>
    intro hbreaks
    obtain ⟨hrest, hbegins⟩ := ih hbreaks
    exact ⟨hrest, hbegins.part fun d => ⟨.unsigned d, rfl⟩⟩
  | bare _ _ ih =>
    intro hbreaks
    obtain ⟨hrest, hbegins⟩ := ih hbreaks
    exact ⟨hrest, hbegins.part fun d => ⟨.bare d, rfl⟩⟩
  | inUnit _ _ ih =>
    intro hbreaks
    obtain ⟨hrest, -⟩ := ih hbreaks.of_inUnit
    cases hrest
  | number => exact fun hbreaks => absurd hbreaks (BreaksOff.not_ok _)
  | answer => exact fun hbreaks => absurd hbreaks (BreaksOff.not_ok _)
  | @named token name _ _ =>
    intro hbreaks
    rw [Expr.eval] at hbreaks
    split at hbreaks
    · exact absurd hbreaks (BreaksOff.not_ok _)
    · cases hbreaks.cause_eq
  | call _ _ _ _ ih =>
    intro hbreaks
    obtain ⟨hrest, -⟩ := ih hbreaks.of_call
    cases hrest
  | @callUnclosed token opening f _ _ _ lexeme_eq opens _ _ ih =>
    intro hbreaks
    obtain ⟨-, hbegins⟩ := ih (hbreaks.of_thenStray (by simp))
    refine ⟨rfl, hbegins.enclosed [token, opening] ?_ fun inner closing closes =>
      ⟨.call token f lexeme_eq opening opens inner closing closes, rfl⟩⟩
    exact List.forall_mem_cons.mpr ⟨.of_lexeme lexeme_eq (by simp),
      List.forall_mem_singleton.mpr (.of_lexeme opens (by simp))⟩
  | unopened => exact fun hbreaks => absurd hbreaks.cause_eq (by simp)
  | group _ _ _ ih =>
    intro hbreaks
    obtain ⟨hrest, -⟩ := ih hbreaks
    cases hrest
  | @groupUnclosed opening _ _ _ opens _ _ ih =>
    intro hbreaks
    obtain ⟨-, hbegins⟩ := ih (hbreaks.of_thenStray (by simp))
    exact ⟨rfl, hbegins.enclosed [opening]
      (List.forall_mem_singleton.mpr (.of_lexeme opens (by simp))) fun inner closing closes =>
        ⟨.group opening opens inner closing closes, rfl⟩⟩
  | ended => exact fun hbreaks => absurd hbreaks.cause_eq (by simp)
  | unexpected => exact fun hbreaks => absurd hbreaks.cause_eq (by simp)

/-- **A line that breaks off is the beginning of a sum.** -/
theorem isBeginning_of_ofTokens {ctx : Context} {env : Environment} {tokens : List Token}
    {stop : ℕ} (h : BreaksOff ((Expr.ofTokens tokens stop).eval ctx env)) :
    env.IsBeginning .sum tokens := by
  obtain ⟨e, rest, hcourse, hread⟩ := exists_course_readSum stop tokens
  have hbeginning : BreaksOff (e.eval ctx env) → rest = [] ∧ env.IsBeginning .sum tokens :=
    hcourse.isBeginning ctx env
  cases rest with
  | nil =>
    rw [ofTokens_complete hread] at h
    exact (hbeginning h).2
  | cons token rest =>
    rw [ofTokens_stray hread] at h
    exact (hbeginning (h.of_thenStray (by simp))).2

/-! ## What can be wrong with a complete line -/

/-- **What may be wrong with the arithmetic** of a line. -/
def Cause.isArithmetic : Cause → Bool
  | .invalidNumber | .divisionByZero | .moduloByZero | .exponentTooLarge | .negativePower
  | .negativeSqrt | .resultTooLarge => true
  | _ => false

/-- **A fault of the arithmetic.** -/
def Fault.IsArithmetic (fault : Fault) : Prop :=
  fault.phase = .evaluation ∧ fault.cause.isArithmetic = true

theorem Operator.Refuses.isArithmetic {op : Operator} {cause : Cause} (h : op.Refuses cause) :
    cause.isArithmetic = true := by
  cases h <;> rfl

theorem Builtin.Refuses.isArithmetic {f : Builtin} {cause : Cause} (h : f.Refuses cause) :
    cause.isArithmetic = true := by
  cases h <;> rfl

/-- A signal amounts to a fault of the arithmetic. -/
theorem Signal.isArithmetic_cause (signal : Signal) : signal.cause.isArithmetic = true := by
  cases signal <;> rfl

/-- **Nothing is wrong with a phrase.** -/
theorem Phrase.isFaultless_toExpr {c : Category} (d : Phrase c) :
    c.Gives Expr.IsFaultless d.toExpr := by
  induction d with
  | sum first tail ihFirst ihTail => exact ihTail _ ihFirst
  | sumEnd => exact fun left hleft => hleft
  | sumStep token op lexeme_eq additive term tail ihTerm ihTail =>
    exact fun left hleft => ihTail _ ⟨hleft, ihTerm⟩
  | product first tail ihFirst ihTail => exact ihTail _ ihFirst
  | productEnd => exact fun left hleft => hleft
  | productStep token op lexeme_eq multiplicative factor tail ihFactor ihTail =>
    exact fun left hleft => ihTail _ ⟨hleft, ihFactor⟩
  | plain base ih => exact ih
  | raised base token lexeme_eq exponent ihBase ihExponent => exact ⟨ihBase, ihExponent⟩
  | minus token lexeme_eq operand ih => exact ih
  | plus token lexeme_eq operand ih => exact ih
  | unsigned operand ih => exact ih
  | bare atom ih => exact ih
  | inUnit atom token u lexeme_eq ih => exact ih
  | number token numeral lexeme_eq => trivial
  | answer token lexeme_eq => trivial
  | named token name lexeme_eq => trivial
  | call token f lexeme_eq opening opens argument closing closes ih => exact ih
  | group opening opens inner closing closes ih => exact ih

/-- **Where nothing is wrong with a line and its names are bound**, only its arithmetic can
fail. -/
theorem Expr.IsMadeOf.faultsIn_eval {tokens : List Token} {e : Expr} (h : e.IsMadeOf tokens)
    {ctx : Context} {env : Environment} (hbinds : ∀ token ∈ tokens, env.Binds token)
    (hfaultless : e.IsFaultless) : FaultsIn Fault.IsArithmetic (e.eval ctx env) := by
  induction h with
  | number => exact .ok _
  | answer => exact .ok _
  | named mem lexeme_eq =>
    obtain ⟨x, hx⟩ := hbinds _ mem _ lexeme_eq
    rw [eval, hx]
    exact .ok x
  | negate _ ih => exact (ih hfaultless).map
  | binary _ _ _ _ ihLeft ihRight =>
    rw [eval]
    exact (ihLeft hfaultless.1).bind fun x _ => (ihRight hfaultless.2).bind fun y _ =>
      Operator.faultsIn_apply ctx _ x y fun _ hcause => ⟨rfl, hcause.isArithmetic⟩
  | inUnit _ _ _ ih =>
    exact (ih hfaultless).bind fun x _ => UnitSuffix.faultsIn_apply _ x ⟨rfl, rfl⟩
  | call _ _ _ ih =>
    exact (ih hfaultless).bind fun x _ =>
      Builtin.faultsIn_apply ctx _ x fun _ hcause => ⟨rfl, hcause.isArithmetic⟩
  | missing => exact hfaultless.elim
  | thenStray => exact hfaultless.elim

/-- **A sum whose names are bound** fails for its arithmetic only. -/
theorem Phrase.faultsIn_eval_toExpr (d : Phrase .sum) {ctx : Context} {env : Environment}
    (hbinds : ∀ token ∈ d.tokens, env.Binds token) :
    FaultsIn Fault.IsArithmetic (d.toExpr.eval ctx env) := by
  have hmade := isMadeOf_ofTokens d.tokens 0
  rw [d.ofTokens_tokens] at hmade
  exact hmade.faultsIn_eval hbinds d.isFaultless_toExpr

end Reckoner
