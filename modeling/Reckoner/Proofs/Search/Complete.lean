import Reckoner.Proofs.Session.Line
import Reckoner.Proofs.Token.Spelling
import Reckoner.Search.Detection

/-!
# What has a value is complete

Before a text is evaluated while it is typed, it is looked at character by character:
it must not end in an operator, its parentheses must match, and no call may be open.
The grammar knows nothing of characters, it derives tokens. This module carries the
four conditions over from phrases to texts.

* A phrase closes what it opens, at any depth (`Phrase.openDepth?_append`), and its
  last token is no operator (`Phrase.endsInOperand`); both by induction on the phrase.
* The parentheses of a text are those of its tokens
  (`filter_isParenthesis_of_tokenize`), and its last character, blanks aside, is in
  the last token.
* A text whose parentheses match has no open call in it
  (`anywhere_beginsOpenCall_of_openDepth?`), so the last condition follows from the
  one before. What it means that they match is said by counting them
  (`openDepth?_eq_some_iff`).

`Session.isComplete_of_evaluateQuietly` puts them together: looking at the text first
never keeps a value back.
-/

namespace Reckoner

open Search (fold isOperator isParenthesis openDepth? beginsWith beginsOpenCall anywhere isComplete)

/-! ## Parentheses -/

section Parentheses

variable {depth n : ℕ} {text : List Char}

theorem openDepth?_opening (depth : ℕ) (text : List Char) :
    openDepth? depth ('(' :: text) = openDepth? (depth + 1) text := by
  rw [openDepth?, if_pos rfl]

theorem openDepth?_closing (depth : ℕ) (text : List Char) :
    openDepth? depth (')' :: text) = if depth = 0 then none else openDepth? (depth - 1) text := by
  rw [openDepth?, if_neg (by decide), if_pos rfl]

theorem openDepth?_other {c : Char} (h : isParenthesis c = false) (depth : ℕ) (text : List Char) :
    openDepth? depth (c :: text) = openDepth? depth text := by
  rw [isParenthesis, Bool.or_eq_false_iff, beq_eq_false_iff_ne, beq_eq_false_iff_ne] at h
  rw [openDepth?, if_neg h.1, if_neg h.2]

theorem isParenthesis_iff {c : Char} : isParenthesis c = true ↔ c = '(' ∨ c = ')' := by
  rw [isParenthesis, Bool.or_eq_true, beq_iff_eq, beq_iff_eq]

/-- Only parentheses count. -/
theorem openDepth?_filter (depth : ℕ) (text : List Char) :
    openDepth? depth (text.filter isParenthesis) = openDepth? depth text := by
  induction text generalizing depth with
  | nil => rfl
  | cons c text ih =>
    cases hc : isParenthesis c with
    | false =>
      rw [List.filter_cons_of_neg (by rw [hc]; exact Bool.false_ne_true), openDepth?_other hc, ih]
    | true =>
      rw [List.filter_cons_of_pos hc]
      obtain rfl | rfl := isParenthesis_iff.mp hc
      · rw [openDepth?_opening, openDepth?_opening, ih]
      · rw [openDepth?_closing, openDepth?_closing, ih]

/-- What holds of all beginnings of a text, one after another. -/
theorem forall_beginning_cons_iff {p : List Char → Prop} {c : Char} :
    (∀ front, front <+: c :: text → p front) ↔ p [] ∧ ∀ front, front <+: text → p (c :: front) := by
  constructor
  · intro h
    exact ⟨h [] List.nil_prefix, fun front hfront =>
      h (c :: front) ((List.prefix_cons_inj c).mpr hfront)⟩
  · rintro ⟨hnil, hcons⟩ front hfront
    obtain rfl | ⟨rest, rfl, hrest⟩ := List.prefix_cons_iff.mp hfront
    · exact hnil
    · exact hcons rest hrest

/-- **How many parentheses are open** behind a text: as many as are opened and not closed, provided
that no beginning of the text closes more than there are. -/
theorem openDepth?_eq_some_iff : openDepth? depth text = some n
    ↔ (∀ front, front <+: text → front.count ')' ≤ depth + front.count '(')
      ∧ depth + text.count '(' = n + text.count ')' := by
  induction text generalizing depth with
  | nil => simp [openDepth?]
  | cons c text ih =>
    rw [forall_beginning_cons_iff]
    by_cases hopening : c = '('
    · rw [hopening, openDepth?_opening, ih]
      simp only [List.count_cons_self, List.count_cons_of_ne (show '(' ≠ ')' by decide),
        List.count_nil, Nat.zero_le, true_and]
      exact and_congr (forall₂_congr fun front _ => by omega) (by omega)
    by_cases hclosing : c = ')'
    · rw [hclosing, openDepth?_closing]
      simp only [List.count_cons_self, List.count_cons_of_ne (show ')' ≠ '(' by decide),
        List.count_nil, Nat.zero_le, true_and]
      split
      · next hzero =>
        -- the parenthesis alone is a beginning that closes too much
        refine iff_of_false nofun fun h => ?_
        have hle := h.1 [] List.nil_prefix
        rw [List.count_nil, List.count_nil] at hle
        omega
      · rw [ih]
        exact and_congr (forall₂_congr fun front _ => by omega) (by omega)
    · have hc : isParenthesis c = false := by
        rw [← Bool.not_eq_true, isParenthesis_iff]
        exact not_or.mpr ⟨hopening, hclosing⟩
      rw [openDepth?_other hc, ih]
      simp only [List.count_cons_of_ne hopening, List.count_cons_of_ne hclosing, List.count_nil,
        Nat.zero_le, true_and]

/-- **A parenthesis that is opened for good** keeps a text from matching. -/
theorem openDepth?_ne_some_zero (before : List Char) (hclosing : ')' ∉ text) (depth : ℕ) :
    openDepth? depth (before ++ '(' :: text) ≠ some 0 := by
  intro h
  obtain ⟨hbeginning, htotal⟩ := openDepth?_eq_some_iff.mp h
  have hle := hbeginning before (List.prefix_append before _)
  rw [List.count_append, List.count_append, List.count_cons_self,
    List.count_cons_of_ne (by decide), List.count_eq_zero_of_not_mem hclosing] at htotal
  omega

/-- What holds somewhere in a text holds of a part of it that goes to its end. -/
theorem exists_of_anywhere {p : List Char → Bool} (h : anywhere p text = true) :
    ∃ before rest, text = before ++ rest ∧ p rest = true := by
  induction text with
  | nil => exact ⟨[], [], rfl, h⟩
  | cons c text ih =>
    rw [anywhere, Bool.or_eq_true] at h
    obtain h | h := h
    · exact ⟨[], c :: text, rfl, h⟩
    · obtain ⟨before, rest, rfl, hrest⟩ := ih h
      exact ⟨c :: before, rest, rfl, hrest⟩

/-- **A text begins with a word** if it begins with characters that count as its letters, and goes
on behind these. -/
theorem beginsWith_append {letters word : List Char} (h : fold letters = word)
    (back : List Char) :
    beginsWith word (letters ++ back) = true ∧ (letters ++ back).drop word.length = back := by
  have hlength : letters.length = word.length := by rw [← h, fold, List.length_map]
  refine ⟨?_, List.drop_left' hlength⟩
  rw [beginsWith, List.take_left' hlength, h, beq_self_eq_true]

/-- **A text that begins with an open call**, taken apart: the letters of a function, blanks, and a
parenthesis that is opened for good. -/
theorem beginsOpenCall_iff : beginsOpenCall text = true
    ↔ ∃ letters blanks inside, text = letters ++ (blanks ++ '(' :: inside)
      ∧ (∃ f : Builtin, fold letters = f.text.toList)
      ∧ (∀ b ∈ blanks, Unicode.isBlank b = true) ∧ ')' ∉ inside := by
  rw [beginsOpenCall, List.any_eq_true]
  constructor
  · rintro ⟨f, -, h⟩
    obtain ⟨hletters, hinside⟩ := Bool.and_eq_true_iff.mp h
    split at hinside
    · next inside htrim =>
      have hsplit : text = text.take f.text.length
          ++ ((text.drop f.text.length).takeWhile Unicode.isBlank ++ '(' :: inside) := by
        rw [← htrim, Unicode.trimStart, List.takeWhile_append_dropWhile, List.take_append_drop]
      exact ⟨_, _, inside, hsplit, ⟨f, eq_of_beq hletters⟩,
        fun b hb => List.mem_takeWhile_imp hb, by simpa using hinside⟩
    · cases hinside
  · rintro ⟨letters, blanks, inside, rfl, ⟨f, hf⟩, hblanks, hinside⟩
    obtain ⟨hbegins, hdrop⟩ := beginsWith_append hf (blanks ++ '(' :: inside)
    replace hdrop : (letters ++ (blanks ++ '(' :: inside)).drop f.text.length
      = blanks ++ '(' :: inside := hdrop
    have hstart : Unicode.trimStart (blanks ++ '(' :: inside) = '(' :: inside := by
      rw [Unicode.trimStart_append_of_blank hblanks]
      exact Unicode.trimStart_eq_self fun d hd => Option.some.inj hd ▸ by decide
    refine ⟨f, by cases f <;> decide, Bool.and_eq_true_iff.mpr ⟨hbegins, ?_⟩⟩
    rw [hdrop, hstart]
    simpa using hinside

/-- **No call is open where the parentheses match.** -/
theorem anywhere_beginsOpenCall_of_openDepth? (h : openDepth? 0 text = some 0) :
    anywhere beginsOpenCall text = false := by
  by_contra hopen
  obtain ⟨before, rest, rfl, hrest⟩ := exists_of_anywhere (Bool.not_eq_false _ ▸ hopen)
  obtain ⟨letters, blanks, inside, rfl, -, -, hclosing⟩ := beginsOpenCall_iff.mp hrest
  rw [← List.append_assoc, ← List.append_assoc] at h
  exact openDepth?_ne_some_zero _ hclosing 0 h

end Parentheses

/-! ## Phrases -/

/-- **The parentheses of a lexeme.** -/
def Lexeme.parentheses : Lexeme → List Char
  | .opening => ['(']
  | .closing => [')']
  | _ => []

/-- The parentheses of tokens. -/
def parentheses (tokens : List Token) : List Char := tokens.flatMap (·.lexeme.parentheses)

theorem parentheses_append (tokens rest : List Token) :
    parentheses (tokens ++ rest) = parentheses tokens ++ parentheses rest :=
  List.flatMap_append

theorem parentheses_cons (token : Token) (rest : List Token) :
    parentheses (token :: rest) = token.lexeme.parentheses ++ parentheses rest :=
  List.flatMap_cons

/-- A pair of parentheses around something that closes what it opens. -/
theorem openDepth?_enclosed {opening closing : Token} (hopening : opening.lexeme = .opening)
    (hclosing : closing.lexeme = .closing) {inner : List Token} (depth : ℕ) (rest : List Char)
    (hinner : ∀ rest, openDepth? (depth + 1) (parentheses inner ++ rest)
      = openDepth? (depth + 1) rest) :
    openDepth? depth (parentheses (opening :: (inner ++ [closing])) ++ rest)
      = openDepth? depth rest := by
  rw [parentheses_cons, parentheses_append, parentheses_cons, hopening, hclosing]
  show openDepth? depth ('(' :: (parentheses inner ++ [')']) ++ rest) = _
  rw [List.cons_append, List.append_assoc, openDepth?_opening, hinner, List.singleton_append,
    openDepth?_closing, if_neg (Nat.succ_ne_zero depth), Nat.add_sub_cancel]

/-- **A phrase closes what it opens**: behind it, as much is open as before it. -/
theorem Phrase.openDepth?_append {c : Category} (d : Phrase c) (depth : ℕ) (rest : List Char) :
    openDepth? depth (parentheses d.tokens ++ rest) = openDepth? depth rest := by
  induction d generalizing depth rest with
  | sum first tail ihFirst ihTail =>
    rw [tokens, parentheses_append, List.append_assoc, ihFirst, ihTail]
  | sumEnd => rfl
  | sumStep token op lexeme_eq additive term tail ihTerm ihTail =>
    rw [tokens, parentheses_cons, lexeme_eq, parentheses_append]
    show openDepth? depth (parentheses term.tokens ++ parentheses tail.tokens ++ rest) = _
    rw [List.append_assoc, ihTerm, ihTail]
  | product first tail ihFirst ihTail =>
    rw [tokens, parentheses_append, List.append_assoc, ihFirst, ihTail]
  | productEnd => rfl
  | productStep token op lexeme_eq multiplicative factor tail ihFactor ihTail =>
    rw [tokens, parentheses_cons, lexeme_eq, parentheses_append]
    show openDepth? depth (parentheses factor.tokens ++ parentheses tail.tokens ++ rest) = _
    rw [List.append_assoc, ihFactor, ihTail]
  | plain base ih => exact ih depth rest
  | raised base token lexeme_eq exponent ihBase ihExponent =>
    rw [tokens, parentheses_append, parentheses_cons, lexeme_eq, List.append_assoc, ihBase]
    exact ihExponent depth rest
  | minus token lexeme_eq operand ih =>
    rw [tokens, parentheses_cons, lexeme_eq]
    exact ih depth rest
  | plus token lexeme_eq operand ih =>
    rw [tokens, parentheses_cons, lexeme_eq]
    exact ih depth rest
  | unsigned operand ih => exact ih depth rest
  | bare atom ih => exact ih depth rest
  | inUnit atom token u lexeme_eq ih =>
    rw [tokens, parentheses_append, parentheses_cons, lexeme_eq, List.append_assoc, ih]
    rfl
  | number token numeral lexeme_eq =>
    rw [tokens, parentheses_cons, lexeme_eq]
    rfl
  | answer token lexeme_eq =>
    rw [tokens, parentheses_cons, lexeme_eq]
    rfl
  | named token name lexeme_eq =>
    rw [tokens, parentheses_cons, lexeme_eq]
    rfl
  | call token f lexeme_eq opening opens argument closing closes ih =>
    rw [tokens, parentheses_cons, lexeme_eq]
    exact openDepth?_enclosed opens closes depth rest (ih (depth + 1))
  | group opening opens inner closing closes ih =>
    exact openDepth?_enclosed opens closes depth rest (ih (depth + 1))

/-- **Tokens that do not end in an operator.** -/
def EndsInOperand (tokens : List Token) : Prop :=
  ∀ token ∈ tokens.getLast?, ∀ op, token.lexeme ≠ .operator op

namespace EndsInOperand

variable {token : Token} {tokens rest : List Token}

theorem nil : EndsInOperand [] := nofun

theorem singleton (h : ∀ op, token.lexeme ≠ .operator op) : EndsInOperand [token] := by
  rintro _ ⟨⟩
  exact h

theorem append (h : EndsInOperand tokens) (hrest : EndsInOperand rest) :
    EndsInOperand (tokens ++ rest) := by
  cases rest with
  | nil =>
    rw [List.append_nil]
    exact h
  | cons token rest =>
    rw [EndsInOperand, List.getLast?_append_of_ne_nil _ (List.cons_ne_nil token rest)]
    exact hrest

theorem cons (hne : tokens ≠ []) (h : EndsInOperand tokens) : EndsInOperand (token :: tokens) := by
  rw [EndsInOperand, ← List.singleton_append, List.getLast?_append_of_ne_nil _ hne]
  exact h

end EndsInOperand

/-- **A phrase does not end in an operator.** -/
theorem Phrase.endsInOperand {c : Category} (d : Phrase c) : EndsInOperand d.tokens := by
  induction d with
  | sum first tail ihFirst ihTail => exact ihFirst.append ihTail
  | sumEnd => exact .nil
  | sumStep token op lexeme_eq additive term tail ihTerm ihTail =>
    -- the operator is not the last token, since a product has one
    have hne : term.tokens ++ tail.tokens ≠ [] :=
      List.append_ne_nil_of_left_ne_nil (term.tokens_ne_nil nofun nofun) _
    exact .cons hne (ihTerm.append ihTail)
  | product first tail ihFirst ihTail => exact ihFirst.append ihTail
  | productEnd => exact .nil
  | productStep token op lexeme_eq multiplicative factor tail ihFactor ihTail =>
    have hne : factor.tokens ++ tail.tokens ≠ [] :=
      List.append_ne_nil_of_left_ne_nil (factor.tokens_ne_nil nofun nofun) _
    exact .cons hne (ihFactor.append ihTail)
  | plain base ih => exact ih
  | raised base token lexeme_eq exponent ihBase ihExponent =>
    exact ihBase.append (.cons (exponent.tokens_ne_nil nofun nofun) ihExponent)
  | minus token lexeme_eq operand ih => exact .cons (operand.tokens_ne_nil nofun nofun) ih
  | plus token lexeme_eq operand ih => exact .cons (operand.tokens_ne_nil nofun nofun) ih
  | unsigned operand ih => exact ih
  | bare atom ih => exact ih
  | inUnit atom token u lexeme_eq ih => exact ih.append (.singleton fun op => by simp [lexeme_eq])
  | number token numeral lexeme_eq => exact .singleton fun op => by simp [lexeme_eq]
  | answer token lexeme_eq => exact .singleton fun op => by simp [lexeme_eq]
  | named token name lexeme_eq => exact .singleton fun op => by simp [lexeme_eq]
  | call token f lexeme_eq opening opens argument closing closes ih =>
    exact .cons (List.cons_ne_nil _ _) (.cons (by simp)
      (ih.append (.singleton fun op => by simp [closes])))
  | group opening opens inner closing closes ih =>
    exact .cons (by simp) (ih.append (.singleton fun op => by simp [closes]))

/-! ## Texts -/

section Texts

variable {line : List Char} {tokens : List Token}

/-- A plain character is no parenthesis. -/
theorem isParenthesis_of_isPlain {c : Char} (h : isPlain c = true) : isParenthesis c = false := by
  by_contra hparenthesis
  rw [Bool.not_eq_false, isParenthesis_iff] at hparenthesis
  obtain rfl | rfl := hparenthesis
  · exact absurd h (by decide)
  · exact absurd h (by decide)

/-- A plain character is no operator. -/
theorem isOperator_of_isPlain {c : Char} (h : isPlain c = true) : isOperator c = false := by
  by_contra hoperator
  obtain ⟨op, hop⟩ := Option.isSome_iff_exists.mp (Bool.not_eq_false _ ▸ hoperator)
  rw [← Operator.symbol_of_ofChar? hop] at h
  cases op <;> exact absurd h (by decide)

/-- The parentheses in the spelling of a token are those of its lexeme. -/
theorem filter_isParenthesis_spelling (h : tokenize line = .ok tokens) :
    ∀ token ∈ tokens, token.spelling.filter isParenthesis = token.lexeme.parentheses := by
  intro token htoken
  have hplain := isPlain_of_tokenize h token htoken
  have hspelled := isSpelled_of_tokenize h token htoken
  cases hlexeme : token.lexeme with
  | operator op =>
    rw [hlexeme] at hspelled
    obtain hspelling | ⟨-, hspelling | hspelling⟩ := hspelled
    · rw [hspelling]
      cases op <;> rfl
    · rw [hspelling]
      rfl
    · rw [hspelling]
      rfl
  | opening =>
    rw [hlexeme] at hspelled
    rw [hspelled]
    rfl
  | closing =>
    rw [hlexeme] at hspelled
    rw [hspelled]
    rfl
  | _ =>
    rw [hlexeme] at hplain
    exact List.filter_eq_nil_iff.mpr fun d hd => by
      rw [isParenthesis_of_isPlain (hplain rfl d hd)]
      exact Bool.false_ne_true

/-- A blank is no parenthesis. -/
theorem isParenthesis_of_isBlank {c : Char} (h : Unicode.isBlank c = true) :
    isParenthesis c = false := by
  by_contra hparenthesis
  rw [Bool.not_eq_false, isParenthesis_iff] at hparenthesis
  obtain rfl | rfl := hparenthesis
  · exact absurd h (by decide)
  · exact absurd h (by decide)

/-- **The parentheses of a text** are those of its tokens. -/
theorem filter_isParenthesis_of_tokenize (h : tokenize line = .ok tokens) :
    line.filter isParenthesis = parentheses tokens := by
  rw [(layout_of_tokensFrom (.ofNat 0) h).filter_eq fun c => isParenthesis_of_isBlank]
  exact List.flatMap_congr (filter_isParenthesis_spelling h)

/-- A token that is no operator has none in its spelling. -/
theorem isOperator_of_mem_spelling (h : tokenize line = .ok tokens) :
    ∀ token ∈ tokens, (∀ op, token.lexeme ≠ .operator op) →
      ∀ d ∈ token.spelling, isOperator d = false := by
  intro token htoken hne
  have hplain := isPlain_of_tokenize h token htoken
  have hspelled := isSpelled_of_tokenize h token htoken
  cases hlexeme : token.lexeme with
  | operator op => exact absurd hlexeme (hne op)
  | opening =>
    rw [hlexeme] at hspelled
    rw [hspelled, List.forall_mem_singleton]
    rfl
  | closing =>
    rw [hlexeme] at hspelled
    rw [hspelled, List.forall_mem_singleton]
    rfl
  | _ =>
    rw [hlexeme] at hplain
    exact fun d hd => isOperator_of_isPlain (hplain rfl d hd)

/-- **A text ends in an operator only if its tokens do.** -/
theorem endsInOperator_trim (h : tokenize line = .ok tokens) (htokens : EndsInOperand tokens) :
    Search.endsInOperator (Unicode.trim line) = false := by
  rw [Search.endsInOperator, Unicode.getLast?_trim, filter_not_isBlank_of_tokenize h]
  obtain rfl | ⟨before, last, rfl⟩ := List.eq_nil_or_concat tokens
  · rfl
  · rw [List.concat_eq_append] at h htokens ⊢
    have hmem : last ∈ before ++ [last] := List.mem_append_right _ (List.mem_singleton_self last)
    have hne : last.spelling ≠ [] := spelling_ne_nil_of_tokenize h last hmem
    rw [List.flatMap_append, List.flatMap_singleton, List.getLast?_append_of_ne_nil _ hne,
      Option.any_eq_false]
    intro d hd
    exact isOperator_of_mem_spelling h last hmem (htokens last (List.getLast?_concat ..)) d
      (List.mem_of_getLast? hd)

/-- **A text whose tokens are those of a sum is complete.** -/
theorem isComplete_of_phrase (d : Phrase .sum) (h : tokenize line = .ok d.tokens)
    (hblank : Unicode.isBlankText line = false) : isComplete line = true := by
  have htrimmed : Unicode.trim line ≠ [] := by
    rw [Ne, Unicode.trim_eq_nil_iff, hblank]
    exact Bool.false_ne_true
  have hdepth : openDepth? 0 (Unicode.trim line) = some 0 := by
    rw [← openDepth?_filter, Unicode.filter_trim fun c => isParenthesis_of_isBlank,
      filter_isParenthesis_of_tokenize h, ← List.append_nil (parentheses _), d.openDepth?_append]
    rfl
  rw [isComplete, endsInOperator_trim h d.endsInOperand, hdepth,
    anywhere_beginsOpenCall_of_openDepth? hdepth]
  simpa using htrimmed

end Texts

/-! ## Sessions -/

namespace Session

/-- A line that has a value is complete. -/
theorem isComplete_of_compute {s : Session} {text : String} {x : Decimal}
    (h : s.compute (some text) = .ok x) : isComplete text.toList = true := by
  obtain ⟨hblank, d, htokens, -⟩ := exists_phrase_of_compute h
  exact isComplete_of_phrase d htokens hblank

/-- **Whatever has a value is complete.** In every session, a text that can be
evaluated quietly passes the check that is made before a result is shown. -/
theorem isComplete_of_evaluateQuietly (s : Session) (line : Option String)
    {result : Decimal × Session} (h : s.evaluateQuietly line = .ok result) :
    ∃ text, line = some text ∧ isComplete text.toList = true := by
  obtain ⟨x, hx, -⟩ := exists_of_map_eq_ok h
  cases line with
  | none => cases hx
  | some text => exact ⟨text, rfl, isComplete_of_compute hx⟩

/-- A call, the letter that multiplies, a group, and a space that does not break at
the end. -/
theorem isComplete_of_call_times_group :
    (∃ result, (empty (.working 50)).evaluateQuietly (some "abs(-2)x(3k+1)\u00a0") = .ok result)
      ∧ isComplete "abs(-2)x(3k+1)\u00a0".toList = true := by
  have htree : (tokenize "abs(-2)x(3k+1)\u00a0".toList).map (Expr.ofTokens · 15)
      = .ok (.binary .multiply 7 (.call .abs 0 (.negate (.number ⟨['2'], none⟩)))
          (.binary .add 11 (.inUnit .thousand 10 (.number ⟨['3'], none⟩))
            (.number ⟨['1'], none⟩))) := by cbv
  have hvalue : (empty (.working 50)).compute (some "abs(-2)x(3k+1)\u00a0")
      = .ok (.finite ⟨false, 6002, 0⟩) := by
    rw [compute_eq_eval _ (by decide) htree]
    decide +kernel
  have hresult : (empty (.working 50)).evaluateQuietly (some "abs(-2)x(3k+1)\u00a0")
      = .ok (.finite ⟨false, 6002, 0⟩,
          { empty (.working 50) with answer := .finite ⟨false, 6002, 0⟩ }) := by
    rw [evaluateQuietly, hvalue]
    rfl
  obtain ⟨text, htext, hcomplete⟩ := isComplete_of_evaluateQuietly _ _ hresult
  rw [← Option.some.inj htext] at hcomplete
  exact ⟨⟨_, hresult⟩, hcomplete⟩

end Session

end Reckoner
