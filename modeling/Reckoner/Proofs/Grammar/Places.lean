import Reckoner.Proofs.Expr.Places
import Reckoner.Proofs.Grammar.Reading

/-!
# Reading sees only the lexemes

A rule of the grammar looks at the lexemes of the tokens it is given. Where these stand, and
how they are spelled, goes into the places of the tree at most: tokens without spelling and
position are read along the same course, to the same tree with its places forgotten
(`Course.unplaced`). So two lines with the same lexemes are one expression up to its places
(`Expr.unplaced_ofTokens`).
-/

namespace Reckoner

/-- **A token of which only the lexeme is known.** -/
def Token.bare (token : Token) : Token := ⟨token.lexeme, [], 0⟩

/-- A tree and the one with its places forgotten; for a tail, in whatever stands on its
left. -/
def Category.Unplaced : (c : Category) → c.Tree → c.Tree → Prop
  | .sumTail, e, e' | .productTail, e, e' => ∀ left : Expr, e' left.unplaced = (e left).unplaced
  | .sum, e, e' | .product, e, e' | .power, e, e' | .signed, e, e' | .operand, e, e'
  | .atom, e, e' => e' = Expr.unplaced e

variable {stop : ℕ} {ts rest tokens tokens' : List Token}

/-- The first of the bare tokens is the first token, bare. -/
private theorem forall_mem_head?_bare {p : Token → Prop} (h : ∀ token ∈ ts.head?, p token.bare) :
    ∀ token ∈ (ts.map Token.bare).head?, p token := by
  cases ts with
  | nil => exact nofun
  | cons token ts =>
    rintro _ ⟨⟩
    exact h token rfl

private theorem map_bare_ne_nil (h : ts ≠ []) : ts.map Token.bare ≠ [] :=
  mt List.map_eq_nil_iff.mp h

/-- **A course does not depend on places**, but for those of its tree. -/
theorem Course.unplaced {c : Category} {e : c.Tree} (h : Course stop c ts e rest) :
    ∃ e', Course 0 c (ts.map Token.bare) e' (rest.map Token.bare) ∧ c.Unplaced e e' := by
  induction h with
  | @sum ts mid rest first tail _ _ ihFirst ihTail =>
    obtain ⟨_, hfirst, rfl⟩ := ihFirst
    obtain ⟨tail', htail, heq⟩ := ihTail
    exact ⟨_, .sum hfirst htail, heq first⟩
  | sumEnd not_additive =>
    exact ⟨_, .sumEnd (forall_mem_head?_bare not_additive), fun left => rfl⟩
  | sumUnfinished lexeme_eq additive =>
    exact ⟨_, .sumUnfinished lexeme_eq additive, fun left => rfl⟩
  | @sumStep token op ts mid rest term tail lexeme_eq additive ne_nil _ _ ihTerm ihTail =>
    obtain ⟨_, hterm, rfl⟩ := ihTerm
    obtain ⟨tail', htail, heq⟩ := ihTail
    exact ⟨_, .sumStep lexeme_eq additive (map_bare_ne_nil ne_nil) hterm htail,
      fun left => heq (.binary op token.position left term)⟩
  | @product ts mid rest first tail _ _ ihFirst ihTail =>
    obtain ⟨_, hfirst, rfl⟩ := ihFirst
    obtain ⟨tail', htail, heq⟩ := ihTail
    exact ⟨_, .product hfirst htail, heq first⟩
  | productEnd not_multiplicative =>
    exact ⟨_, .productEnd (forall_mem_head?_bare not_multiplicative), fun left => rfl⟩
  | productUnfinished lexeme_eq multiplicative =>
    exact ⟨_, .productUnfinished lexeme_eq multiplicative, fun left => rfl⟩
  | @productStep token op ts mid rest factor tail lexeme_eq multiplicative ne_nil _ _ ihFactor
      ihTail =>
    obtain ⟨_, hfactor, rfl⟩ := ihFactor
    obtain ⟨tail', htail, heq⟩ := ihTail
    exact ⟨_, .productStep lexeme_eq multiplicative (map_bare_ne_nil ne_nil) hfactor htail,
      fun left => heq (.binary op token.position left factor)⟩
  | plain _ not_power ih =>
    obtain ⟨_, hbase, rfl⟩ := ih
    exact ⟨_, .plain hbase (forall_mem_head?_bare not_power), rfl⟩
  | powerUnfinished _ lexeme_eq ih =>
    obtain ⟨_, hbase, rfl⟩ := ih
    exact ⟨_, .powerUnfinished hbase lexeme_eq, rfl⟩
  | raised _ lexeme_eq ne_nil _ ihBase ihExponent =>
    obtain ⟨_, hbase, rfl⟩ := ihBase
    obtain ⟨_, hexponent, rfl⟩ := ihExponent
    exact ⟨_, .raised hbase lexeme_eq (map_bare_ne_nil ne_nil) hexponent, rfl⟩
  | minus lexeme_eq _ ih =>
    obtain ⟨_, hoperand, rfl⟩ := ih
    exact ⟨_, .minus lexeme_eq hoperand, rfl⟩
  | plus lexeme_eq _ ih =>
    obtain ⟨_, hoperand, rfl⟩ := ih
    exact ⟨_, .plus lexeme_eq hoperand, rfl⟩
  | unsigned not_sign _ ih =>
    obtain ⟨_, hoperand, rfl⟩ := ih
    exact ⟨_, .unsigned (forall_mem_head?_bare not_sign) hoperand, rfl⟩
  | bare _ not_unit ih =>
    obtain ⟨_, hatom, rfl⟩ := ih
    exact ⟨_, .bare hatom (forall_mem_head?_bare not_unit), rfl⟩
  | inUnit _ lexeme_eq ih =>
    obtain ⟨_, hatom, rfl⟩ := ih
    exact ⟨_, .inUnit hatom lexeme_eq, rfl⟩
  | @number token numeral lexeme_eq rest =>
    have hbare : token.bare.lexeme = .number numeral := lexeme_eq
    exact ⟨_, .number hbare _, rfl⟩
  | @answer token lexeme_eq rest =>
    have hbare : token.bare.lexeme = .answer := lexeme_eq
    exact ⟨_, .answer hbare _, rfl⟩
  | @named token name lexeme_eq rest =>
    have hbare : token.bare.lexeme = .variable name := lexeme_eq
    exact ⟨_, .named hbare _, rfl⟩
  | call lexeme_eq opens _ closes ih =>
    obtain ⟨_, hargument, rfl⟩ := ih
    exact ⟨_, .call lexeme_eq opens hargument closes, rfl⟩
  | callUnclosed lexeme_eq opens _ not_closing ih =>
    obtain ⟨_, hargument, rfl⟩ := ih
    exact ⟨_, .callUnclosed lexeme_eq opens hargument (forall_mem_head?_bare not_closing), rfl⟩
  | unopened lexeme_eq not_opening =>
    exact ⟨_, .unopened lexeme_eq (forall_mem_head?_bare not_opening), rfl⟩
  | group opens _ closes ih =>
    obtain ⟨_, hinner, rfl⟩ := ih
    exact ⟨_, .group opens hinner closes, rfl⟩
  | groupUnclosed opens _ not_closing ih =>
    obtain ⟨_, hinner, rfl⟩ := ih
    exact ⟨_, .groupUnclosed opens hinner (forall_mem_head?_bare not_closing), rfl⟩
  | ended => exact ⟨_, .ended, rfl⟩
  | unexpected not_starts => exact ⟨_, .unexpected not_starts, rfl⟩

/-! ## Lines -/

/-- **The expression of a line of tokens, with its places forgotten**, is that of the bare
tokens. -/
theorem Expr.unplaced_ofTokens (tokens : List Token) (stop : ℕ) :
    (Expr.ofTokens tokens stop).unplaced = Expr.ofTokens (tokens.map Token.bare) 0 := by
  obtain ⟨e, rest, hcourse, hread⟩ := exists_course_readSum stop tokens
  obtain ⟨_, hbare, rfl⟩ := hcourse.unplaced
  have hreadBare : (readSum 0 (tokens.map Token.bare)).result = (e.unplaced, rest.map Token.bare) :=
    hbare.reads
  cases rest with
  | nil => rw [ofTokens_complete hread, ofTokens_complete hreadBare]
  | cons token rest =>
    rw [ofTokens_stray hread, ofTokens_stray hreadBare]
    rfl

/-- **Lines with the same lexemes** are worth the same, or fail for the same cause. -/
theorem Expr.sameCause_ofTokens (h : tokens.map (·.lexeme) = tokens'.map (·.lexeme))
    (stop stop' : ℕ) (ctx : Context) (env : Environment) :
    SameCause ((Expr.ofTokens tokens stop).eval ctx env)
      ((Expr.ofTokens tokens' stop').eval ctx env) := by
  have hbare : tokens.map Token.bare = tokens'.map Token.bare := by
    have hmap (ts : List Token) :
        ts.map Token.bare = (ts.map (·.lexeme)).map fun lexeme => ⟨lexeme, [], 0⟩ := by
      rw [List.map_map]
      rfl
    rw [hmap, hmap, h]
  have htree : (Expr.ofTokens tokens stop).unplaced = (Expr.ofTokens tokens' stop').unplaced := by
    rw [Expr.unplaced_ofTokens, Expr.unplaced_ofTokens, hbare]
  have hvalue := Expr.sameCause_eval ctx env (Expr.ofTokens tokens stop)
  rw [htree] at hvalue
  exact hvalue.trans (Expr.sameCause_eval ctx env (Expr.ofTokens tokens' stop')).symm

end Reckoner
