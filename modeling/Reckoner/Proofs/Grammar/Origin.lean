import Reckoner.Proofs.Grammar.Course

/-!
# What a tree is made of

A line need not be well formed to be read: a fault in it is a node of the tree. So
there is a tree for every row of tokens, and it makes nothing up. Each of its nodes
stands for a token of the line, at the place of that token, or for a fault
(`isMadeOf_ofTokens`). The lemma before it is an induction on the course of the
reading, with the tokens of the whole line held fixed.

What a line refers to is therefore seen from its tokens, whether it has a value or
not. Two environments in which its words mean the same give it the same value or
the same failure (`Expr.IsMadeOf.eval_eq`).
-/

namespace Reckoner

/-- **A tree made of tokens**: every node stands for one of them, or for a fault. -/
inductive Expr.IsMadeOf (tokens : List Token) : Expr → Prop
  | number {token : Token} {numeral : Numeral} (mem : token ∈ tokens)
      (lexeme_eq : token.lexeme = .number numeral) : IsMadeOf tokens (.number numeral)
  | answer {token : Token} (mem : token ∈ tokens) (lexeme_eq : token.lexeme = .answer) :
      IsMadeOf tokens .answer
  | named {token : Token} {name : String} (mem : token ∈ tokens)
      (lexeme_eq : token.lexeme = .variable name) :
      IsMadeOf tokens (.variable name token.position)
  | negate {operand : Expr} (operand_isMadeOf : IsMadeOf tokens operand) :
      IsMadeOf tokens (.negate operand)
  | binary {token : Token} {op : Operator} {left right : Expr} (mem : token ∈ tokens)
      (lexeme_eq : token.lexeme = .operator op) (left_isMadeOf : IsMadeOf tokens left)
      (right_isMadeOf : IsMadeOf tokens right) :
      IsMadeOf tokens (.binary op token.position left right)
  | inUnit {token : Token} {u : UnitSuffix} {operand : Expr} (mem : token ∈ tokens)
      (lexeme_eq : token.lexeme = .unit u) (operand_isMadeOf : IsMadeOf tokens operand) :
      IsMadeOf tokens (.inUnit u token.position operand)
  | call {token : Token} {f : Builtin} {argument : Expr} (mem : token ∈ tokens)
      (lexeme_eq : token.lexeme = .function f) (argument_isMadeOf : IsMadeOf tokens argument) :
      IsMadeOf tokens (.call f token.position argument)
  | missing (cause : Cause) (position : ℕ) : IsMadeOf tokens (.missing cause position)
  | thenStray {operand : Expr} (operand_isMadeOf : IsMadeOf tokens operand) (cause : Cause)
      (position : ℕ) : IsMadeOf tokens (.thenStray operand cause position)

variable {tokens : List Token}

theorem isMadeOf_unfinished {e : Expr} {token : Token} {op : Operator} (mem : token ∈ tokens)
    (lexeme_eq : token.lexeme = .operator op) (hleft : e.IsMadeOf tokens) :
    (unfinished op token.position e).IsMadeOf tokens :=
  .binary mem lexeme_eq hleft (.missing _ _)

/-- **What a rule reads is made of tokens** if it is given no others. -/
theorem Course.isMadeOf {stop : ℕ} {c : Category} {ts rest : List Token} {e : c.Tree}
    (h : Course stop c ts e rest) (hts : ts <:+ tokens) : c.Gives (Expr.IsMadeOf tokens) e := by
  induction h with
  | sum first_course _ ihFirst ihTail =>
    exact ihTail (first_course.suffix.trans hts) _ (ihFirst hts)
  | sumEnd => exact fun left hleft => hleft
  | sumUnfinished lexeme_eq =>
    exact fun left hleft => isMadeOf_unfinished (hts.subset List.mem_cons_self) lexeme_eq hleft
  | sumStep lexeme_eq _ _ term_course _ ihTerm ihTail =>
    have hmore := (List.suffix_cons _ _).trans hts
    exact fun left hleft => ihTail (term_course.suffix.trans hmore) _
      (.binary (hts.subset List.mem_cons_self) lexeme_eq hleft (ihTerm hmore))
  | product first_course _ ihFirst ihTail =>
    exact ihTail (first_course.suffix.trans hts) _ (ihFirst hts)
  | productEnd => exact fun left hleft => hleft
  | productUnfinished lexeme_eq =>
    exact fun left hleft => isMadeOf_unfinished (hts.subset List.mem_cons_self) lexeme_eq hleft
  | productStep lexeme_eq _ _ factor_course _ ihFactor ihTail =>
    have hmore := (List.suffix_cons _ _).trans hts
    exact fun left hleft => ihTail (factor_course.suffix.trans hmore) _
      (.binary (hts.subset List.mem_cons_self) lexeme_eq hleft (ihFactor hmore))
  | plain _ _ ih => exact ih hts
  | powerUnfinished base_course lexeme_eq ih =>
    have hmem := (base_course.suffix.trans hts).subset List.mem_cons_self
    exact isMadeOf_unfinished hmem lexeme_eq (ih hts)
  | raised base_course lexeme_eq _ _ ihBase ihExponent =>
    have hafter := base_course.suffix.trans hts
    exact .binary (hafter.subset List.mem_cons_self) lexeme_eq (ihBase hts)
      (ihExponent ((List.suffix_cons _ _).trans hafter))
  | minus _ _ ih => exact .negate (ih ((List.suffix_cons _ _).trans hts))
  | plus _ _ ih => exact ih ((List.suffix_cons _ _).trans hts)
  | unsigned _ _ ih => exact ih hts
  | bare _ _ ih => exact ih hts
  | inUnit atom_course lexeme_eq ih =>
    have hmem := (atom_course.suffix.trans hts).subset List.mem_cons_self
    exact .inUnit hmem lexeme_eq (ih hts)
  | number lexeme_eq => exact .number (hts.subset List.mem_cons_self) lexeme_eq
  | answer lexeme_eq => exact .answer (hts.subset List.mem_cons_self) lexeme_eq
  | named lexeme_eq => exact .named (hts.subset List.mem_cons_self) lexeme_eq
  | call lexeme_eq _ _ _ ih =>
    have hinside := ((List.suffix_cons _ _).trans (List.suffix_cons _ _)).trans hts
    exact .call (hts.subset List.mem_cons_self) lexeme_eq (ih hinside)
  | callUnclosed _ _ _ _ ih =>
    have hinside := ((List.suffix_cons _ _).trans (List.suffix_cons _ _)).trans hts
    exact .thenStray (ih hinside) _ _
  | group _ _ _ ih => exact ih ((List.suffix_cons _ _).trans hts)
  | groupUnclosed _ _ _ ih => exact .thenStray (ih ((List.suffix_cons _ _).trans hts)) _ _
  | unopened => exact .missing _ _
  | ended => exact .missing _ _
  | unexpected => exact .missing _ _

/-! ## Lines -/

/-- **The tree of a line is made of its tokens**, whether the line is well formed or
not. -/
theorem isMadeOf_ofTokens (tokens : List Token) (stop : ℕ) :
    (Expr.ofTokens tokens stop).IsMadeOf tokens := by
  obtain ⟨e, rest, hcourse, hread⟩ := exists_course_readSum stop tokens
  have htree : e.IsMadeOf tokens := hcourse.isMadeOf (List.suffix_refl tokens)
  cases rest with
  | nil => exact ofTokens_complete hread ▸ htree
  | cons token rest => exact ofTokens_stray hread ▸ .thenStray htree _ _

/-- **What the words of a line mean decides its value.** Where two environments
agree on the variables of the line, and on the last answer if the line refers to it,
the line has the same value or the same failure in both. -/
theorem Expr.IsMadeOf.eval_eq {e : Expr} (h : e.IsMadeOf tokens) (ctx : Context)
    {env env' : Environment}
    (hlookup : ∀ token ∈ tokens, ∀ name, token.lexeme = .variable name →
      env'.lookup name = env.lookup name)
    (hanswer : ∀ token ∈ tokens, token.lexeme = .answer → env'.answer = env.answer) :
    e.eval ctx env' = e.eval ctx env := by
  induction h with
  | number => rfl
  | answer mem lexeme_eq => exact congrArg Except.ok (hanswer _ mem lexeme_eq)
  | named mem lexeme_eq => rw [eval, eval, hlookup _ mem _ lexeme_eq]
  | negate _ ih => rw [eval, eval, ih]
  | binary _ _ _ _ ihLeft ihRight => rw [eval, eval, ihLeft, ihRight]
  | inUnit _ _ _ ih => rw [eval, eval, ih]
  | call _ _ _ ih => rw [eval, eval, ih]
  | missing => rfl
  | thenStray _ _ _ ih => rw [eval, eval, ih]

end Reckoner
