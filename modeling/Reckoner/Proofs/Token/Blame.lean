import Reckoner.Proofs.Grammar.Course
import Reckoner.Proofs.Token.Spelling

/-!
# What cutting a line into tokens is blamed on, and where units stand

A line without tokens is blamed on a character of it: one that no token starts with,
which the message quotes, or a point without digits (`lexerBlames_of_tokenize`).

A line that has tokens has its units right behind numbers (`unitsFollow_of_tokenize`).
A name is a unit only there, so the reader never comes upon a unit that it has not
gone on with.
-/

namespace Reckoner

variable {left : Left} {c : Char} {cs text : List Char} {lexeme : Lexeme} {more : ℕ}
  {tokens : List Token}

/-! ## Lines without tokens -/

/-- **What a line is blamed for that cannot be cut into tokens**, and on which
character. -/
inductive LexerBlames (text : List Char) : Fault → Prop
  | character {c : Char} {position : ℕ} (getElem?_eq : text[position]? = some c) :
      LexerBlames text (.lexing (.unexpectedCharacter c.toString) position)
  | point {position : ℕ} (getElem?_eq : text[position]? = some '.') :
      LexerBlames text (.lexing .invalidNumber position)

/-- A token is missing at a character that none starts with, or at a point. -/
theorem cause_of_lexemeAt {cause : Cause} (h : lexemeAt left c cs = .error cause) :
    cause = .unexpectedCharacter c.toString ∨ cause = .invalidNumber ∧ c = '.' := by
  unfold lexemeAt numeralAt at h
  split at h
  · split at h
    · next hpoint =>
      dsimp only at h
      split at h
      · exact .inr ⟨(Except.error.inj h).symm, hpoint⟩
      · cases h
    · dsimp only at h
      split at h <;> cases h
  · split at h
    · cases h
    · split_ifs at h
      exact .inl (Except.error.inj h).symm

theorem lexerBlames_of_tokensFrom {position : ℕ} {fault : Fault} {before : List Char}
    (hbefore : before.length = position) (h : tokensFrom position left cs = .error fault) :
    LexerBlames (before ++ cs) fault := by
  -- the characters already cut must stay in view, for positions count from the start
  fun_induction tokensFrom position left cs generalizing before with
  | case1 position left => cases h
  | case2 position left c cs hblank ih =>
    rw [List.append_cons]
    exact ih (by rw [List.length_append, hbefore, List.length_singleton]) h
  | case3 position left c cs hblank cause hlexeme =>
    obtain rfl := Except.error.inj h
    have hc : (before ++ c :: cs)[position]? = some c := by
      rw [← hbefore, List.getElem?_append_right le_rfl, Nat.sub_self]
      rfl
    obtain rfl | ⟨rfl, rfl⟩ := cause_of_lexemeAt hlexeme
    · exact .character hc
    · exact .point hc
  | case4 position left c cs hblank lexeme more hlexeme spelling next =>
    rename_i ih
    obtain ⟨hmore, -⟩ := isSpelled_of_lexemeAt (.ofNat 0) hlexeme
    have htext : before ++ c :: cs = (before ++ spelling) ++ cs.drop more := by
      rw [List.append_assoc, List.cons_append, List.take_append_drop]
    rw [htext]
    refine ih ?_ (of_map_eq_error h)
    rw [List.length_append, hbefore, List.length_cons, List.length_take_of_le hmore]
    omega

/-- **A line that has no tokens is blamed on one of its characters.** -/
theorem lexerBlames_of_tokenize {fault : Fault} (h : tokenize text = .error fault) :
    LexerBlames text fault := lexerBlames_of_tokensFrom List.length_nil h

/-! ## Units -/

/-- A name is a unit only behind a number. -/
theorem endsInNumber_of_nameLexeme {name : List Char} {u : UnitSuffix}
    (h : nameLexeme left name = .unit u) : left.endsInNumber = true := by
  unfold nameLexeme at h
  dsimp only at h
  split at h
  · cases h
  · split at h
    · split at h
      · assumption
      · cases h
    · split at h <;> cases h

theorem endsInNumber_of_lexemeAt {u : UnitSuffix} (h : lexemeAt left c cs = .ok (.unit u, more)) :
    left.endsInNumber = true := by
  generalize hlexeme : Lexeme.unit u = lexeme at h
  cases cut_of_lexemeAt h with
  | dollar eq_dollar => exact endsInNumber_of_nameLexeme hlexeme.symm
  | bare isLetter not_decimal not_times => exact endsInNumber_of_nameLexeme hlexeme.symm
  | _ => cases hlexeme

/-- **Behind the left, units stand right behind numbers.** -/
theorem unitsFollow_of_tokensFrom {position : ℕ} (h : tokensFrom position left cs = .ok tokens) :
    UnitsFollow tokens
      ∧ ∀ token ∈ tokens.head?, ∀ u, token.lexeme = .unit u → left.endsInNumber = true := by
  fun_induction tokensFrom position left cs generalizing tokens with
  | case1 position left =>
    obtain rfl := Except.ok.inj h
    exact ⟨.nil, by simp⟩
  | case2 position left c cs hblank ih => exact ih h
  | case3 position left c cs hblank cause hlexeme => cases h
  | case4 position left c cs hblank lexeme more hlexeme spelling next =>
    rename_i ih
    obtain ⟨tokens, htokens, rfl⟩ := exists_of_map_eq_ok h
    obtain ⟨hchain, hhead⟩ := ih htokens
    refine ⟨List.isChain_cons.mpr ⟨hhead, hchain⟩, ?_⟩
    intro token ht u hu
    obtain rfl := Option.some.inj ht
    obtain rfl : lexeme = .unit u := hu
    exact endsInNumber_of_lexemeAt hlexeme

theorem unitsFollow_of_tokenize (h : tokenize text = .ok tokens) : UnitsFollow tokens :=
  (unitsFollow_of_tokensFrom h).1

end Reckoner
