import Reckoner.Proofs.Token.Written

/-!
# Lines that go on

A token is the longest one at its place, so what follows a line may change its last token,
or be changed by it. The tokens before that one have ended within the line, and stay; so does
the last one if no token goes on with what follows (`lexemeAt_append`). An operator stays in
any case, for it is a single character wherever it stands. So the tokens of a line that ends
in an operator are the first ones of every line that begins with it (`tokensFrom_append`).
-/

namespace Reckoner

open Unicode (isDecimal isBlank isWordChar)

variable {left : Left} {c : Char} {cs tail : List Char} {lexeme : Lexeme} {more : ℕ}
  {tokens : List Token}

/-! ## One token -/

/-- **No token goes on** with these characters: they begin with no part of a name or a
number. -/
def EndsToken (tail : List Char) : Prop := ∀ d ∈ tail.head?, isWordChar d = false ∧ d ≠ '.'

theorem EndsToken.endsNumber (h : EndsToken tail) : EndsNumber tail := by
  intro d hd
  obtain ⟨hword, hpoint⟩ := h d hd
  refine ⟨Bool.eq_false_of_not_eq_true fun hdecimal => ?_, hpoint⟩
  exact Bool.false_ne_true (hword.symm.trans (isWordChar_of_isDecimal hdecimal))

section Runs

variable {p : Char → Bool}

/-- What ends within a text, or at the end of it, ends there in the longer one. -/
theorem takeWhile_append_of_ends
    (h : (cs.takeWhile p).length < cs.length ∨ ∀ d ∈ tail.head?, p d = false) :
    (cs ++ tail).takeWhile p = cs.takeWhile p := by
  rw [List.takeWhile_append]
  split
  · next hwhole =>
    have hcs : cs.takeWhile p = cs := (List.takeWhile_prefix p).eq_of_length hwhole
    have hstops := h.resolve_left hwhole.not_lt
    rw [hcs]
    cases tail with
    | nil => exact List.append_nil cs
    | cons d tail =>
      rw [List.takeWhile_cons_of_neg (by rw [hstops d rfl]; exact Bool.false_ne_true),
        List.append_nil]
  · rfl

/-- What is left behind it is left there, with more behind it. -/
theorem dropWhile_append_of_ends
    (h : (cs.takeWhile p).length < cs.length ∨ ∀ d ∈ tail.head?, p d = false) :
    (cs ++ tail).dropWhile p = cs.dropWhile p ++ tail := by
  have hsplit := List.takeWhile_append_dropWhile (p := p) (l := cs ++ tail)
  rw [takeWhile_append_of_ends h] at hsplit
  have hcs := List.takeWhile_append_dropWhile (p := p) (l := cs)
  rw [← List.append_cancel_left_eq (cs.takeWhile p), hsplit, ← List.append_assoc, hcs]

end Runs

/-- A number that has ended is the same one in the longer text. -/
theorem numeralAt_append (h : numeralAt c cs = .ok (lexeme, more))
    (hends : more < cs.length ∨ EndsNumber tail) :
    numeralAt c (cs ++ tail) = .ok (lexeme, more) := by
  have hdigits : more < cs.length ∨ ∀ d ∈ tail.head?, isDecimal d = false :=
    hends.imp_right fun htail d hd => (htail d hd).1
  unfold numeralAt at h ⊢
  split at h
  · next hpoint =>
    rw [if_pos hpoint]
    dsimp only at h ⊢
    split at h
    · cases h
    · next hplaces =>
      obtain ⟨rfl, rfl⟩ := Prod.mk.inj (Except.ok.inj h)
      rw [takeWhile_append_of_ends hdigits, if_neg hplaces]
  · next hpoint =>
    rw [if_neg hpoint]
    have hlength : (cs.takeWhile isDecimal).length + (cs.dropWhile isDecimal).length
        = cs.length := by
      rw [← List.length_append, List.takeWhile_append_dropWhile]
    dsimp only at h ⊢
    split at h
    · next rest hrest =>
      obtain ⟨rfl, rfl⟩ := Prod.mk.inj (Except.ok.inj h)
      rw [hrest, List.length_cons] at hlength
      have hpoint : (cs.takeWhile isDecimal).length < cs.length := by omega
      have hplaces : (rest.takeWhile isDecimal).length < rest.length
          ∨ ∀ d ∈ tail.head?, isDecimal d = false := hdigits.imp_left (by omega)
      rw [takeWhile_append_of_ends (.inl hpoint), dropWhile_append_of_ends (.inl hpoint), hrest]
      simp only [List.cons_append, takeWhile_append_of_ends hplaces]
    · next hrest =>
      obtain ⟨rfl, rfl⟩ := Prod.mk.inj (Except.ok.inj h)
      rw [takeWhile_append_of_ends hdigits, dropWhile_append_of_ends hdigits]
      cases hdrop : cs.dropWhile isDecimal with
      | nil =>
        rw [hdrop, List.length_nil] at hlength
        have htail := hends.resolve_left (by omega)
        cases tail with
        | nil => rfl
        | cons d tail =>
          split
          · next heq => exact absurd (List.cons.inj heq).1 (htail d rfl).2
          · rfl
      | cons d rest =>
        rw [List.cons_append]
        split
        · next heq => exact absurd (by rw [hdrop, (List.cons.inj heq).1]) (hrest rest)
        · rfl

/-- **A token that has ended** is the same one in the longer text: it ends within the text, or
no token goes on with what follows. -/
theorem lexemeAt_append (h : lexemeAt left c cs = .ok (lexeme, more))
    (hends : more < cs.length ∨ EndsToken tail) :
    lexemeAt left c (cs ++ tail) = .ok (lexeme, more) := by
  refine Cut.lexemeAt_eq ?_
  cases cut_of_lexemeAt h with
  | numeral starts numeralAt_eq =>
    exact .numeral starts (numeralAt_append numeralAt_eq (hends.imp_right (·.endsNumber)))
  | operator symbol_eq => exact .operator symbol_eq
  | times isTimes multiplies => exact .times isTimes multiplies
  | opening eq_opening => exact .opening eq_opening
  | closing eq_closing => exact .closing eq_closing
  | dollar eq_dollar =>
    rw [← takeWhile_append_of_ends (hends.imp_right fun htail d hd => (htail d hd).1)]
    exact .dollar eq_dollar
  | bare isLetter not_decimal not_times =>
    have htake : (cs ++ tail).takeWhile isBareChar = cs.takeWhile isBareChar :=
      takeWhile_append_of_ends
        (hends.imp_right fun htail d hd => by rw [isBareChar, (htail d hd).1, Bool.false_and])
    rw [← htake]
    exact .bare isLetter not_decimal not_times

/-- A name is no operator. -/
theorem nameLexeme_ne_operator (left : Left) (name : List Char) (op : Operator) :
    nameLexeme left name ≠ .operator op := by
  unfold nameLexeme
  dsimp only
  split
  · exact Lexeme.noConfusion
  · split
    · split <;> exact Lexeme.noConfusion
    · split <;> exact Lexeme.noConfusion

/-- **An operator is one character**, whatever follows it. -/
theorem lexemeAt_operator {op : Operator} (h : lexemeAt left c cs = .ok (.operator op, more)) :
    more = 0 ∧ ∀ cs', lexemeAt left c cs' = .ok (.operator op, 0) := by
  generalize hlexeme : Lexeme.operator op = lexeme at h
  cases cut_of_lexemeAt h with
  | operator symbol_eq =>
    obtain rfl := Lexeme.operator.inj hlexeme
    exact ⟨rfl, fun cs' => (Cut.operator symbol_eq).lexemeAt_eq⟩
  | times isTimes multiplies =>
    obtain rfl := Lexeme.operator.inj hlexeme
    exact ⟨rfl, fun cs' => (Cut.times isTimes multiplies).lexemeAt_eq⟩
  | dollar eq_dollar => exact absurd hlexeme.symm (nameLexeme_ne_operator left _ op)
  | bare isLetter not_decimal not_times =>
    exact absurd hlexeme.symm (nameLexeme_ne_operator left _ op)
  | _ => cases hlexeme

/-! ## All tokens -/

/-- **The tokens of a text that ends in an operator** are the first ones of every longer
text. -/
theorem tokensFrom_append {position : ℕ} (h : tokensFrom position left cs = .ok tokens)
    (hlast : ∀ token ∈ tokens.getLast?, ∃ op, token.lexeme = .operator op) :
    ∃ position' left', ∀ tail, tokensFrom position left (cs ++ tail)
      = (tokensFrom position' left' tail).map (tokens ++ ·) := by
  fun_induction tokensFrom position left cs generalizing tokens with
  | case1 position left =>
    obtain rfl := Except.ok.inj h
    refine ⟨position, left, fun tail => ?_⟩
    exact (congrFun Except.map_id _).symm
  | case2 position left c cs hblank ih =>
    obtain ⟨position', left', htail⟩ := ih h hlast
    refine ⟨position', left', fun tail => ?_⟩
    rw [List.cons_append, tokensFrom, if_pos hblank, htail]
  | case3 position left c cs hblank cause hlexeme => cases h
  | case4 position left c cs hblank lexeme more hlexeme spelling next =>
    rename_i ih
    obtain ⟨later, hlater, rfl⟩ := exists_of_map_eq_ok h
    obtain ⟨hmore, -⟩ := isSpelled_of_lexemeAt (.ofNat 0) hlexeme
    have hgoesOn : ∀ tail, lexemeAt left c (cs ++ tail) = .ok (lexeme, more) := by
      intro tail
      cases later with
      | nil =>
        obtain ⟨op, rfl⟩ : ∃ op, lexeme = .operator op := hlast _ rfl
        obtain ⟨rfl, hoperator⟩ := lexemeAt_operator hlexeme
        exact hoperator _
      | cons token later =>
        refine lexemeAt_append hlexeme (.inl (hmore.lt_of_ne fun hend => ?_))
        rw [hend, List.drop_length, tokensFrom] at hlater
        cases hlater
    have hlastLater : ∀ token ∈ later.getLast?, ∃ op, token.lexeme = .operator op := by
      cases later with
      | nil => rintro _ ⟨⟩
      | cons token later => exact hlast
    obtain ⟨position', left', htail⟩ := ih hlater hlastLater
    refine ⟨position', left', fun tail => ?_⟩
    rw [List.cons_append, tokensFrom, if_neg hblank, hgoesOn]
    dsimp only
    rw [List.take_append_of_le_length hmore, List.drop_append_of_le_length hmore, htail]
    cases tokensFrom position' left' tail <;> rfl

end Reckoner
