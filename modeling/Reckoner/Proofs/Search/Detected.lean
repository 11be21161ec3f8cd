import Reckoner.Proofs.Grammar.Neighbours
import Reckoner.Proofs.Search.Marks
import Reckoner.Proofs.Session.Line
import Reckoner.Proofs.Token.Blame
import Reckoner.Proofs.Token.CutOff

/-!
# Which calculations are recognised

Whether a text looks like a calculation is told by its characters, without reading it. Whether it
is one is told by its tokens. For a text that has a value and in which no item is named,
`looksLikeCalculation_iff_shows` says what the first test comes to in terms of the second:
`ShowsCalculation` lists the tokens that can be seen.

Operators that are written with their symbol, parentheses, functions, the last answer and names
behind a dollar sign can all be seen, and so can a unit behind a number, with two exceptions. A
number may end in its point, as in `5.k`, and a unit is only looked for behind a digit; and an `x`
may stand right behind the unit, as in `10kx5`, which is not among the characters that may follow
it there. The letter `x` for a product is itself no mark: `10x5` has a value, and shows nothing.

From the tokens to the text, a token is a part of the text, and the grammar says what stands behind
it. A function is called (`exists_opening_of_function`), and what comes after an operand that takes
no unit is an operator or a closing parenthesis (`goesOn_of_head?`), so that a unit ends where its
token does. From the text to the tokens, the letters of a mark are all in one token, since names
are cut as long as they can be (`exists_append_of_run`).
-/

namespace Reckoner.Search

open Unicode (isBlank isDecimal isLetter isWordChar trim trimStart)

variable {line : List Char} {tokens : List Token}

/-- **What shows in the tokens** that a text is a calculation. -/
inductive ShowsCalculation (line : List Char) (tokens : List Token) : Prop
  /-- An operator, written with its symbol and not with the letter `x`. -/
  | operator {token : Token} {op : Operator} (mem : token ∈ tokens)
      (spelling_eq : token.spelling = [op.symbol]) : ShowsCalculation line tokens
  | parenthesis {token : Token} (mem : token ∈ tokens)
      (lexeme_eq : token.lexeme = .opening ∨ token.lexeme = .closing) :
      ShowsCalculation line tokens
  | function {token : Token} {f : Builtin} (mem : token ∈ tokens)
      (lexeme_eq : token.lexeme = .function f) : ShowsCalculation line tokens
  | answer {token : Token} (mem : token ∈ tokens) (lexeme_eq : token.lexeme = .answer) :
      ShowsCalculation line tokens
  /-- A name behind a dollar sign. -/
  | dollar {token : Token} {c : Char} {name : List Char} (mem : token ∈ tokens)
      (spelling_eq : token.spelling = '$' :: c :: name) : ShowsCalculation line tokens
  /-- A unit, unless the number before it ends in a point or an `x` stands right behind it. -/
  | unit {number token : Token} {before after : List Token} {u : UnitSuffix}
      (tokens_eq : tokens = before ++ number :: token :: after)
      (lexeme_eq : token.lexeme = .unit u) (number_ends : number.spelling.getLast? ≠ some '.')
      (ends : ∀ c ∈ (line.drop (token.position + token.spelling.length)).head?,
        isTimesLetter c = false) :
      ShowsCalculation line tokens
  /-- A variable that has `ans` in its name, or ends like a number with a unit. -/
  | name {token : Token} {v : String} (mem : token ∈ tokens)
      (lexeme_eq : token.lexeme = .variable v)
      (shows : refersToVariable token.spelling = true ∨ hasUnit token.spelling = true) :
      ShowsCalculation line tokens

/-! ## From tokens to the text -/

/-- **A token stands in the trimmed text**, too, and what follows it there begins as before. -/
theorem exists_trim_eq_of_mem (h : tokenize line = .ok tokens) {token : Token}
    (hmem : token ∈ tokens) :
    ∃ front back, trim line = front ++ (token.spelling ++ back) := by
  obtain ⟨before, after, rfl⟩ := List.append_of_mem hmem
  obtain ⟨front, back, hline, -, -⟩ := exists_cutOff_append h
  have hblank := isBlank_of_mem_spelling h token hmem
  have hne := spelling_ne_nil_of_tokenize h token hmem
  rw [hline, Unicode.trim_append_append hne (fun c hc => hblank c (List.mem_of_mem_head? hc))
    (fun c hc => hblank c (List.mem_of_mem_getLast? hc))]
  exact ⟨_, _, rfl⟩

/-- A character of a token is in the trimmed text. -/
theorem mem_trim_of_mem_spelling (h : tokenize line = .ok tokens) {token : Token}
    (hmem : token ∈ tokens) {c : Char} (hc : c ∈ token.spelling) : c ∈ trim line := by
  obtain ⟨front, back, htrim⟩ := exists_trim_eq_of_mem h hmem
  rw [htrim]
  exact List.mem_append_right _ (List.mem_append_left _ hc)

theorem hasMark_of_isParenthesis (h : tokenize line = .ok tokens) {token : Token}
    (hmem : token ∈ tokens) (hlexeme : token.lexeme = .opening ∨ token.lexeme = .closing) :
    hasMark (trim line) = true := by
  have hspelled := isSpelled_of_tokenize h token hmem
  have hparenthesis : ∃ c ∈ token.spelling, isParenthesis c = true := by
    obtain hlexeme | hlexeme := hlexeme
    · rw [hlexeme] at hspelled
      exact ⟨'(', by rw [hspelled]; simp, rfl⟩
    · rw [hlexeme] at hspelled
      exact ⟨')', by rw [hspelled]; simp, rfl⟩
  obtain ⟨c, hc, hparenthesis⟩ := hparenthesis
  have hany : (trim line).any isParenthesis = true :=
    List.any_eq_true.mpr ⟨c, mem_trim_of_mem_spelling h hmem hc, hparenthesis⟩
  rw [hasMark, hany, Bool.or_true, Bool.true_or, Bool.true_or]

/-- What refers to a variable in a part of the text does so in the text. -/
theorem refersToVariable_append {part : List Char} (h : refersToVariable part = true)
    (front back : List Char) : refersToVariable (front ++ (part ++ back)) = true := by
  rw [refersToVariable_iff] at h ⊢
  obtain ⟨as, letters, bs, rfl, hletters⟩ | ⟨as, c, bs, rfl, hc⟩ := h
  · exact .inl ⟨front ++ as, letters, bs ++ back, by simp, hletters⟩
  · exact .inr ⟨front ++ as, c, bs ++ back, by simp, hc⟩

theorem hasMark_of_refersToVariable (h : refersToVariable line = true) : hasMark line = true := by
  rw [hasMark, h, Bool.or_true, Bool.true_or]

/-- A token that refers to a variable is a mark. -/
theorem hasMark_of_mem (h : tokenize line = .ok tokens) {token : Token} (hmem : token ∈ tokens)
    (hvariable : refersToVariable token.spelling = true) : hasMark (trim line) = true := by
  obtain ⟨front, back, htrim⟩ := exists_trim_eq_of_mem h hmem
  rw [htrim]
  exact hasMark_of_refersToVariable (refersToVariable_append hvariable front back)

theorem hasMark_of_hasUnit (h : hasUnit line = true) : hasMark line = true := by
  rw [hasMark, h, Bool.or_true]

/-- The word for the last answer is spelled as such. -/
theorem refersToVariable_of_answer (h : tokenize line = .ok tokens) {token : Token}
    (hmem : token ∈ tokens) (hlexeme : token.lexeme = .answer) :
    refersToVariable token.spelling = true := by
  have hspelled := isSpelled_of_tokenize h token hmem
  rw [hlexeme] at hspelled
  have hlower : Unicode.lower (withoutDollar token.spelling) = "ans".toList := by
    rw [← String.toList_ofList (l := Unicode.lower _), ← hspelled]
    rfl
  have hfold : fold (withoutDollar token.spelling) = "ans".toList :=
    isPlainWord_ans.fold_eq hlower
  have hsplit : ∃ front, token.spelling = front ++ (withoutDollar token.spelling ++ []) := by
    unfold withoutDollar
    split
    · next name heq => exact ⟨['$'], by simp [heq]⟩
    · exact ⟨[], by simp⟩
  obtain ⟨front, hsplit⟩ := hsplit
  exact refersToVariable_iff.mpr (.inl ⟨front, _, [], hsplit, hfold⟩)

/-- A name behind a dollar sign is spelled as such. -/
theorem refersToVariable_of_dollar (h : tokenize line = .ok tokens) {token : Token}
    (hmem : token ∈ tokens) {c : Char} {name : List Char}
    (hspelling : token.spelling = '$' :: c :: name) : refersToVariable token.spelling = true := by
  obtain ⟨before, after, rfl⟩ := List.append_of_mem hmem
  obtain ⟨front, back, -, -, hcut⟩ := exists_cutOff_append h
  have hlooks := hcut.looks
  rw [hspelling] at hlooks
  have hc : isWordChar c = true := by
    generalize token.lexeme = lexeme at hlooks
    cases hlooks with
    | number digits => exact absurd (digits '$' List.mem_cons_self) (by decide)
    | dollar word ends => exact word c List.mem_cons_self
    | bare letter word ends => exact absurd letter (by decide)
  rw [hspelling]
  exact refersToVariable_iff.mpr (.inr ⟨[], c, name, rfl, hc⟩)

/-! ### Units -/

/-- A name goes on with an operand only as a unit. -/
theorem exists_unit_of_goesOn {left : Left} {name : List Char}
    (h : (nameLexeme left name).goesOn = true) : ∃ u, nameLexeme left name = .unit u := by
  unfold nameLexeme at h ⊢
  dsimp only at h ⊢
  split at h
  · cases h
  · split at h
    · next u hu =>
      split_ifs at h ⊢ with hleft
      · exact ⟨u, rfl⟩
      · cases h
    · split_ifs at h <;> cases h

/-- **A unit may end** where an operand is over and no letter multiplies. -/
theorem endsUnit_of_cutOff {token : Token} {back : List Char} {after : List Token}
    (hcut : CutOff token back after)
    (hnext : ∀ next ∈ after.head?, next.lexeme.goesOn = true ∧ ∀ u, next.lexeme ≠ .unit u)
    (htimes : ∀ c ∈ back.head?, isTimesLetter c = true →
      Left.multiplies ⟨token.spelling.getLast?, some token.lexeme⟩ = false) :
    endsUnit back = true := by
  cases back with
  | nil => rfl
  | cons c rest =>
    cases hblank : isBlank c with
    | true => rw [endsUnit, hblank, Bool.true_or, Bool.true_or]
    | false =>
      obtain ⟨next, after', more, rfl, hnextCut⟩ := hcut.exists_next hblank
      obtain ⟨hgoes, hunit⟩ := hnext next rfl
      generalize next.lexeme = lexeme at hnextCut hgoes hunit
      cases hnextCut with
      | numeral starts numeralAt_eq => cases hgoes
      | @operator op symbol_eq =>
        rw [endsUnit, isOperator, ← symbol_eq, op.ofChar?_symbol]
        simp
      | times isTimes multiplies =>
        rw [htimes c rfl isTimes] at multiplies
        cases multiplies
      | opening eq_opening => cases hgoes
      | closing eq_closing =>
        rw [eq_closing]
        rfl
      | dollar eq_dollar =>
        obtain ⟨u, hu⟩ := exists_unit_of_goesOn hgoes
        exact absurd hu (hunit u)
      | bare letter not_decimal not_times =>
        obtain ⟨u, hu⟩ := exists_unit_of_goesOn hgoes
        exact absurd hu (hunit u)

/-- What may stand behind a unit may do so at the end of a trimmed text. -/
theorem endsUnit_of_prefix {cs ds : List Char} (h : cs <+: ds) (hends : endsUnit ds = true) :
    endsUnit cs = true := by
  cases cs with
  | nil => rfl
  | cons c cs =>
    obtain ⟨rest, rfl⟩ := h
    exact hends

/-- **A number with a unit in a part of the text** is one in the trimmed text, if the unit may end
where the part does. -/
theorem hasUnit_trim {front part back : List Char} (hline : line = front ++ (part ++ back))
    (hfirst : ∀ c ∈ part.head?, isBlank c = false) (hlast : ∀ c ∈ part.getLast?, isBlank c = false)
    (hpart : hasUnit part = true) (hends : endsUnit back = true) : hasUnit (trim line) = true := by
  have hne : part ≠ [] := by
    rintro rfl
    cases hpart
  rw [hline, Unicode.trim_append_append hne hfirst hlast]
  have hends' : endsUnit (back.rdropWhile isBlank) = true :=
    endsUnit_of_prefix (List.rdropWhile_prefix _ _) hends
  obtain ⟨as, d, blanks, letters, bs, rfl, hd, hblanks, hu, hbs⟩ := hasUnit_iff.mp hpart
  refine hasUnit_iff.mpr ⟨trimStart front ++ as, d, blanks, letters,
    bs ++ back.rdropWhile isBlank, by simp, hd, hblanks, hu, ?_⟩
  cases bs with
  | nil => exact hends'
  | cons b bs => exact hbs

/-- **The next token behind a unit or a variable**, if there is one, is an operator or a closing
parenthesis. -/
theorem goesOn_of_head? (d : Phrase .sum) (h : tokenize line = .ok d.tokens)
    {before after : List Token} {token : Token} (htokens : d.tokens = before ++ token :: after)
    (hends : token.lexeme.endsOperand = true) (hunit : token.lexeme.takesUnit = false) :
    ∀ next ∈ after.head?, next.lexeme.goesOn = true ∧ ∀ u, next.lexeme ≠ .unit u := by
  intro next hnext
  obtain ⟨rest, rfl⟩ := List.head?_eq_some_iff.mp hnext
  have hchain := d.isChain_neighbour
  have hunits := unitsFollow_of_tokenize h
  rw [htokens] at hchain hunits
  have hsuffix : token :: next :: rest <:+ before ++ token :: next :: rest :=
    List.suffix_append _ _
  refine ⟨(List.isChain_cons_cons.mp (hchain.suffix hsuffix)).1 hends, fun u hu => ?_⟩
  have htakes := (List.isChain_cons_cons.mp (hunits.suffix hsuffix)).1 u hu
  rw [hunit] at htakes
  cases htakes

/-- A unit is spelled with characters that count as its letters, unless a dollar sign stands
before it. -/
theorem fold_eq_of_unit (h : tokenize line = .ok tokens) {token : Token} (hmem : token ∈ tokens)
    {u : UnitSuffix} (hlexeme : token.lexeme = .unit u) :
    fold token.spelling = u.text.toList ∨ ∃ c name, token.spelling = '$' :: c :: name := by
  have hspelled := isSpelled_of_tokenize h token hmem
  rw [hlexeme] at hspelled
  have hlower : Unicode.lower (withoutDollar token.spelling) = u.text.toList := by
    rw [← String.toList_ofList (l := Unicode.lower _), ← hspelled]
    rfl
  have hfold := (isPlainWord_unit u).2.fold_eq hlower
  unfold withoutDollar at hfold
  split at hfold
  · next name heq =>
    cases name with
    | nil => exact absurd hfold.symm (isPlainWord_unit u).1
    | cons c name => exact .inr ⟨c, name, heq⟩
  · exact .inl hfold

/-- A number ends in a digit or in its point. -/
theorem exists_concat_of_number (h : tokenize line = .ok tokens) {token : Token}
    (hmem : token ∈ tokens) {n : Numeral} (hlexeme : token.lexeme = .number n) :
    ∃ digits e, token.spelling = digits ++ [e] ∧ (isDecimal e = true ∨ e = '.') := by
  have hspelled := isSpelled_of_tokenize h token hmem
  rw [hlexeme] at hspelled
  obtain ⟨-, x, -, hliteral⟩ := hspelled
  obtain hnil | ⟨digits, e, hspelling⟩ := List.eq_nil_or_concat token.spelling
  · exact absurd hnil (spelling_ne_nil_of_tokenize h token hmem)
  · rw [List.concat_eq_append] at hspelling
    exact ⟨digits, e, hspelling, hliteral.forall_mem e (by simp [hspelling])⟩

/-- **A number and the letters of a unit** behind blanks are seen in the trimmed text, if the unit
may end where they do and the number has no point there. -/
theorem hasUnit_of_literal (h : tokenize line = .ok tokens) {number token : Token}
    (hnumber : number ∈ tokens) (htoken : token ∈ tokens) {n : Numeral}
    (hlexeme : number.lexeme = .number n) (hpoint : number.spelling.getLast? ≠ some '.')
    {u : UnitSuffix} (hfold : fold token.spelling = u.text.toList) {front blanks back : List Char}
    (hline : line = front ++ (number.spelling ++ (blanks ++ (token.spelling ++ back))))
    (hblanks : ∀ b ∈ blanks, isBlank b = true) (hends : endsUnit back = true) :
    hasUnit (trim line) = true := by
  have hnumberNe := spelling_ne_nil_of_tokenize h number hnumber
  have htokenNe := spelling_ne_nil_of_tokenize h token htoken
  have hblank := isBlank_of_mem_spelling h
  obtain ⟨digits, e, hspelling, he⟩ := exists_concat_of_number h hnumber hlexeme
  have hdigit : isDecimal e = true := by
    refine he.resolve_right ?_
    rintro rfl
    exact hpoint (by rw [hspelling, List.getLast?_concat])
  have hpart : hasUnit (number.spelling ++ (blanks ++ token.spelling)) = true :=
    hasUnit_iff.mpr ⟨digits, e, blanks, token.spelling, [], by simp [hspelling], hdigit, hblanks,
      ⟨u, hfold⟩, rfl⟩
  have hmiddle : line = front ++ (number.spelling ++ (blanks ++ token.spelling) ++ back) := by
    simp [hline]
  refine hasUnit_trim hmiddle (fun c hc => ?_) (fun c hc => ?_) hpart hends
  · rw [List.head?_append_of_ne_nil _ hnumberNe] at hc
    exact hblank number hnumber c (List.mem_of_mem_head? hc)
  · rw [List.getLast?_append_of_ne_nil _ (List.append_ne_nil_of_right_ne_nil _ htokenNe),
      List.getLast?_append_of_ne_nil _ htokenNe] at hc
    exact hblank token htoken c (List.mem_of_mem_getLast? hc)

/-- What stands behind the end of a token. -/
theorem drop_finish (front : List Char) {spelling back : List Char}
    (hline : line = front ++ (spelling ++ back)) {position : ℕ}
    (hposition : position = 0 + front.length) : line.drop (position + spelling.length) = back := by
  rw [hline, ← List.append_assoc, hposition, Nat.zero_add, ← List.length_append, List.drop_left]

/-- **A unit behind a number** can be seen, unless the number ends in a point or an `x` stands
behind the unit. -/
theorem hasMark_of_unit (d : Phrase .sum) (h : tokenize line = .ok d.tokens)
    {before after : List Token} {number token : Token} {u : UnitSuffix}
    (htokens : d.tokens = before ++ number :: token :: after) (hlexeme : token.lexeme = .unit u)
    (hpoint : number.spelling.getLast? ≠ some '.')
    (htimes : ∀ c ∈ (line.drop (token.position + token.spelling.length)).head?,
      isTimesLetter c = false) : hasMark (trim line) = true := by
  have hnumberMem : number ∈ d.tokens := by simp [htokens]
  have htokenMem : token ∈ d.tokens := by simp [htokens]
  obtain hfold | ⟨c, name, hdollar⟩ := fold_eq_of_unit h htokenMem hlexeme
  swap
  · exact hasMark_of_mem h htokenMem (refersToVariable_of_dollar h htokenMem hdollar)
  -- the number and its unit in the line, with blanks between them
  have hcut := h
  rw [htokens] at hcut
  obtain ⟨front, behind, hline, hnumberAt, hnumber⟩ := exists_cutOff_append hcut
  obtain ⟨blanks, back, hblanks, rfl, htokenAt, htoken⟩ := exists_cutOff_cons hnumber.goes_on
  have hback : line.drop (token.position + token.spelling.length) = back := by
    refine drop_finish (front ++ number.spelling ++ blanks) (by simp [hline]) ?_
    rw [htokenAt, hnumberAt, List.length_append, List.length_append, Nat.zero_add, Nat.zero_add]
  have hends : endsUnit back = true := by
    refine endsUnit_of_cutOff htoken ?_ fun c hc htrue => ?_
    · have hsplit : d.tokens = (before ++ [number]) ++ token :: after := by simp [htokens]
      exact goesOn_of_head? d h hsplit (by rw [hlexeme]; rfl) (by rw [hlexeme]; rfl)
    · rw [htimes c (hback ▸ hc)] at htrue
      cases htrue
  have htakes : number.lexeme.takesUnit = true := by
    have hunits := unitsFollow_of_tokenize h
    rw [htokens] at hunits
    exact (List.isChain_cons_cons.mp (hunits.suffix (List.suffix_append _ _))).1 u hlexeme
  cases hlexemeN : number.lexeme with
  | answer => exact hasMark_of_mem h hnumberMem (refersToVariable_of_answer h hnumberMem hlexemeN)
  | number n =>
    exact hasMark_of_hasUnit (hasUnit_of_literal h hnumberMem htokenMem hlexemeN hpoint hfold hline
      hblanks hends)
  | _ =>
    rw [hlexemeN] at htakes
    cases htakes

/-- A variable that ends like a number with a unit is seen as one. -/
theorem hasMark_of_name (d : Phrase .sum) (h : tokenize line = .ok d.tokens) {token : Token}
    (hmem : token ∈ d.tokens) {v : String} (hlexeme : token.lexeme = .variable v)
    (hunit : hasUnit token.spelling = true) : hasMark (trim line) = true := by
  obtain ⟨before, after, htokens⟩ := List.append_of_mem hmem
  have hcut := h
  rw [htokens] at hcut
  obtain ⟨front, back, hline, -, hcut⟩ := exists_cutOff_append hcut
  have hblank := isBlank_of_mem_spelling h token hmem
  have hplain := isPlain_of_tokenize h token hmem (by rw [hlexeme]; rfl)
  refine hasMark_of_hasUnit (hasUnit_trim hline (fun c hc => hblank c (List.mem_of_mem_head? hc))
    (fun c hc => hblank c (List.mem_of_mem_getLast? hc)) hunit ?_)
  have hnext := goesOn_of_head? d h htokens (by rw [hlexeme]; rfl) (by rw [hlexeme]; rfl)
  refine endsUnit_of_cutOff hcut hnext fun c hc htimes => ?_
  -- the name ends in the letters of the unit, and no `x` multiplies behind a letter
  obtain ⟨as, e, blanks, letters, bs, hspelling, -, -, ⟨u, hu⟩, hbs⟩ := hasUnit_iff.mp hunit
  obtain ⟨hne, hletters⟩ := letters_of_unit hu
  obtain rfl : bs = [] := by
    cases bs with
    | nil => rfl
    | cons b bs =>
      have hb := hplain b (by simp [hspelling])
      rw [endsUnit, isBlank_of_isPlain hb, isOperator_of_isPlain hb,
        isParenthesis_of_isPlain hb] at hbs
      cases hbs
  obtain ⟨init, last, rfl⟩ := (List.eq_nil_or_concat letters).resolve_left hne
  obtain ⟨hletter, hdecimal, -⟩ := hletters last (by simp)
  have hlast : token.spelling.getLast? = some last := by
    have hsplit : token.spelling = (as ++ e :: (blanks ++ init)) ++ [last] := by simp [hspelling]
    rw [hsplit, List.getLast?_concat]
  have hclosing : last ≠ ')' := by
    rintro rfl
    exact absurd hletter (by decide)
  rw [hlast, hlexeme, Left.multiplies]
  simp [hdecimal, hclosing]

/-- **What shows in the tokens can be seen in the text.** -/
theorem ShowsCalculation.hasMark (d : Phrase .sum) (h : tokenize line = .ok d.tokens)
    (hshows : ShowsCalculation line d.tokens) : hasMark (trim line) = true := by
  cases hshows with
  | @operator token op mem spelling_eq =>
    have hany : (trim line).any isOperator = true := by
      refine List.any_eq_true.mpr ⟨op.symbol, mem_trim_of_mem_spelling h mem ?_, ?_⟩
      · rw [spelling_eq]
        exact List.mem_singleton_self _
      · rw [isOperator, op.ofChar?_symbol]
        rfl
    rw [Search.hasMark, hany, Bool.true_or, Bool.true_or, Bool.true_or]
  | parenthesis mem lexeme_eq => exact hasMark_of_isParenthesis h mem lexeme_eq
  | function mem lexeme_eq =>
    obtain ⟨opening, hopening, hlexeme⟩ := d.exists_opening_of_function mem lexeme_eq
    exact hasMark_of_isParenthesis h hopening (.inl hlexeme)
  | answer mem lexeme_eq =>
    exact hasMark_of_mem h mem (refersToVariable_of_answer h mem lexeme_eq)
  | dollar mem spelling_eq =>
    exact hasMark_of_mem h mem (refersToVariable_of_dollar h mem spelling_eq)
  | unit tokens_eq lexeme_eq number_ends ends =>
    exact hasMark_of_unit d h tokens_eq lexeme_eq number_ends ends
  | name mem lexeme_eq shows =>
    obtain hvariable | hunit := shows
    · exact hasMark_of_mem h mem hvariable
    · exact hasMark_of_name d h mem lexeme_eq hunit

/-! ## From the text to tokens -/

/-- **Every character of the trimmed text** that is not blank is in a token. -/
theorem exists_token_of_mem_trim (h : tokenize line = .ok tokens) {c : Char} (hc : c ∈ trim line)
    (hblank : isBlank c = false) : ∃ token ∈ tokens, c ∈ token.spelling := by
  have hmem : c ∈ line.filter (!isBlank ·) :=
    List.mem_filter.mpr ⟨Unicode.mem_of_mem_trim hc, by rw [hblank]; rfl⟩
  rwa [filter_not_isBlank_of_tokenize h, List.mem_flatMap] at hmem

/-- An operator in the text is one of the tokens. -/
theorem shows_of_isOperator (h : tokenize line = .ok tokens)
    (hany : (trim line).any isOperator = true) : ShowsCalculation line tokens := by
  obtain ⟨c, hc, hoperator⟩ := List.any_eq_true.mp hany
  obtain ⟨op, hop⟩ := Option.isSome_iff_exists.mp hoperator
  obtain rfl := Operator.symbol_of_ofChar? hop
  obtain ⟨token, htoken, hmem⟩ := exists_token_of_mem_trim h hc (by cases op <;> decide)
  cases hsign : token.lexeme.isSign with
  | false =>
    rw [isOperator_of_isPlain (isPlain_of_tokenize h token htoken hsign _ hmem)] at hoperator
    cases hoperator
  | true =>
    have hspelled := isSpelled_of_tokenize h token htoken
    obtain ⟨d, -, hspelling⟩ := hspelled.exists_signChar hsign
    rw [hspelling, List.mem_singleton] at hmem
    exact .operator htoken (hmem ▸ hspelling)

/-- A parenthesis in the text is one of the tokens. -/
theorem shows_of_isParenthesis (h : tokenize line = .ok tokens)
    (hany : (trim line).any isParenthesis = true) : ShowsCalculation line tokens := by
  obtain ⟨c, hc, hparenthesis⟩ := List.any_eq_true.mp hany
  have hblank : isBlank c = false := by
    obtain rfl | rfl := isParenthesis_iff.mp hparenthesis <;> decide
  obtain ⟨token, htoken, hmem⟩ := exists_token_of_mem_trim h hc hblank
  have hfilter := filter_isParenthesis_spelling h token htoken
  have hin : c ∈ token.lexeme.parentheses := by
    rw [← hfilter]
    exact List.mem_filter.mpr ⟨hmem, hparenthesis⟩
  cases hlexeme : token.lexeme with
  | opening => exact .parenthesis htoken (.inl hlexeme)
  | closing => exact .parenthesis htoken (.inr hlexeme)
  | _ =>
    rw [hlexeme] at hin
    cases hin

/-- A name is a function, a unit, the last answer or a variable. -/
theorem nameLexeme_cases (left : Left) (name : List Char) :
    (∃ f, nameLexeme left name = .function f) ∨ (∃ u, nameLexeme left name = .unit u)
      ∨ nameLexeme left name = .answer ∨ ∃ v, nameLexeme left name = .variable v := by
  unfold nameLexeme
  dsimp only
  split
  · next f _ => exact .inl ⟨f, rfl⟩
  · split
    · next u _ =>
      split_ifs
      · exact .inr (.inl ⟨u, rfl⟩)
      · exact .inr (.inr (.inr ⟨_, rfl⟩))
    · split_ifs
      · exact .inr (.inr (.inl rfl))
      · exact .inr (.inr (.inr ⟨_, rfl⟩))

/-- **A name that is no unit** shows a calculation if a variable in its place would. -/
theorem shows_of_name (h : tokenize line = .ok tokens) {token : Token} (hmem : token ∈ tokens)
    {left : Left} {name : List Char} (hlexeme : token.lexeme = nameLexeme left name)
    (hunit : ∀ u : UnitSuffix, fold token.spelling ≠ u.text.toList)
    (hvariable : ∀ v, token.lexeme = .variable v → ShowsCalculation line tokens) :
    ShowsCalculation line tokens := by
  obtain ⟨f, hf⟩ | ⟨u, hu⟩ | hanswer | ⟨v, hv⟩ := nameLexeme_cases left name
  · exact .function hmem (hlexeme.trans hf)
  · obtain hfold | ⟨c, name, hdollar⟩ := fold_eq_of_unit h hmem (hlexeme.trans hu)
    · exact absurd hfold (hunit u)
    · exact .dollar hmem hdollar
  · exact .answer hmem (hlexeme.trans hanswer)
  · exact hvariable v (hlexeme.trans hv)

/-- What stands in the trimmed text stands in the text, with blanks at the ends. -/
theorem exists_eq_of_trim_eq {front back : List Char} (h : trim line = front ++ back) :
    ∃ before after, line = before ++ front ++ (back ++ after)
      ∧ ∀ c ∈ after, isBlank c = true := by
  obtain ⟨before, after, -, hafter, hline⟩ := Unicode.exists_append_trim_append line
  refine ⟨before, after, ?_, hafter⟩
  rw [h] at hline
  simpa using hline

/-- The word for the last answer stands in one token. -/
theorem shows_of_letters {front letters back : List Char}
    (h : tokenize (front ++ (letters ++ back)) = .ok tokens) (hfold : fold letters = "ans".toList) :
    ShowsCalculation (front ++ (letters ++ back)) tokens := by
  have hletters := isPlainWord_ans.of_fold hfold
  obtain ⟨c, cs, rfl⟩ := List.exists_cons_of_ne_nil fun hnil : letters = [] =>
    absurd hfold (by rw [hnil]; decide)
  obtain ⟨⟨hletter, hdecimal, hbare⟩, hcs⟩ := List.forall_mem_cons.mp hletters
  have hblank : isBlank c = false := Unicode.isBlank_of_isWordChar (isWordChar_of_isLetter hletter)
  obtain ⟨before, token, after, -, start, rest, rear, rfl, hspelling, -, hbs, -, hcut⟩ :=
    exists_cutOff_of_mem hblank h
  have hmem : token ∈ before ++ token :: after := by simp
  obtain ⟨d, name, hdollar⟩ | ⟨n, -, hdigits⟩ | ⟨⟨left, name, hlexeme⟩, -, hends⟩ :=
    (hspelling ▸ hcut.looks).of_isBareChar hbare
  · exact .dollar hmem (hspelling.trans hdollar)
  · obtain h | rfl := hdigits c (by simp)
    · rw [hdecimal] at h
      cases h
    · exact absurd hletter (by decide)
  · obtain ⟨rest, rfl, -⟩ :=
      exists_append_of_run (p := isBareChar) hbs (fun d hd => (hcs d hd).2.2) hends
    refine shows_of_name h hmem hlexeme (fun u hu => ?_) fun v hv => .name hmem hv
      (.inl (refersToVariable_iff.mpr (.inl ⟨start, c :: cs, rest, hspelling, hfold⟩)))
    have hoccurs : occursIn "ans".toList (fold token.spelling) = true :=
      occursIn_fold_iff.mpr ⟨start, c :: cs, rest, hspelling, hfold⟩
    rw [hu] at hoccurs
    cases u <;> exact absurd hoccurs (by decide)

/-- A name behind a dollar sign is in one token with it. -/
theorem shows_of_dollar {front back : List Char} {c : Char} (hc : isWordChar c = true)
    (h : tokenize (front ++ '$' :: c :: back) = .ok tokens) :
    ShowsCalculation (front ++ '$' :: c :: back) tokens := by
  obtain ⟨before, token, after, -, start, rest, rear, rfl, hspelling, -, hbs, -, hcut⟩ :=
    exists_cutOff_of_mem (by decide) h
  have hmem : token ∈ before ++ token :: after := by simp
  have hdollar : '$' ∈ token.spelling := by simp [hspelling]
  have hlooks := hcut.looks
  generalize hspelled : token.spelling = spelling at hlooks hdollar
  generalize token.lexeme = lexeme at hlooks
  cases hlooks with
  | sign isSign mem =>
    obtain rfl := List.mem_singleton.mp hdollar
    exact absurd mem (by decide)
  | number digits => exact absurd (digits '$' hdollar) (by decide)
  | @dollar lexeme name word ends =>
    cases name with
    | cons d name => exact .dollar hmem hspelled
    | nil =>
      -- the character behind the dollar sign would have gone on with the token
      rw [hspelled] at hspelling
      obtain rfl : rest = [] := by cases start <;> simp_all
      rw [ends c (by rw [← List.nil_append rear, ← hbs]; rfl)] at hc
      cases hc
  | @bare left e name letter word ends =>
    obtain rfl | hname := List.mem_cons.mp hdollar
    · exact absurd letter (by decide)
    · exact absurd (word '$' hname) (by decide)

/-- **What refers to a variable** in the text does so in one of the tokens. -/
theorem shows_of_refersToVariable (h : tokenize line = .ok tokens)
    (hvariable : refersToVariable (trim line) = true) : ShowsCalculation line tokens := by
  obtain ⟨front, letters, back, htrim, hfold⟩ | ⟨front, c, back, htrim, hc⟩ :=
    refersToVariable_iff.mp hvariable
  · obtain ⟨before, after, rfl, -⟩ := exists_eq_of_trim_eq htrim
    rw [List.append_assoc letters] at h ⊢
    exact shows_of_letters h hfold
  · obtain ⟨before, after, rfl, -⟩ := exists_eq_of_trim_eq htrim
    exact shows_of_dollar hc h

/-! ### Units -/

/-- No character that goes on with a name may stand behind a unit. -/
theorem eq_nil_of_endsUnit {rest rear : List Char} (h : endsUnit (rest ++ rear) = true)
    (hrest : ∀ c ∈ rest, isBareChar c = true) : rest = [] := by
  cases rest with
  | nil => rfl
  | cons c rest =>
    have hplain : isPlain c = true :=
      isPlain_of_isWordChar (Bool.and_eq_true_iff.mp (hrest c List.mem_cons_self)).1
    rw [List.cons_append, endsUnit, isBlank_of_isPlain hplain, isOperator_of_isPlain hplain,
      isParenthesis_of_isPlain hplain] at h
    cases h

/-- A digit is not part of a unit. -/
theorem fold_ne_of_isDecimal {spelling : List Char} {c : Char} (hmem : c ∈ spelling)
    (hc : isDecimal c = true) (u : UnitSuffix) : fold spelling ≠ u.text.toList := by
  intro hfold
  rw [((letters_of_unit hfold).2 c hmem).2.1] at hc
  cases hc

/-- **A number token with the letters of a unit behind it** has the unit as the next token. -/
theorem shows_of_number (d : Phrase .sum) {before after : List Token} {token : Token} {n : Numeral}
    (htokens : d.tokens = before ++ token :: after) (hlexeme : token.lexeme = .number n)
    (hpoint : token.spelling.getLast? ≠ some '.')
    {blanks letters back : List Char} {u : UnitSuffix}
    (hcut : CutOff token (blanks ++ (letters ++ back)) after)
    (hblanks : ∀ b ∈ blanks, isBlank b = true) (hfold : fold letters = u.text.toList)
    (hends : endsUnit back = true)
    (hline : line.drop (token.position + token.spelling.length) = blanks ++ (letters ++ back)) :
    ShowsCalculation line d.tokens := by
  obtain ⟨hne, hletters⟩ := letters_of_unit hfold
  obtain ⟨next, after, rest, rear, left, name, rfl, hspelling, rfl, hrest, hname, hposition⟩ :=
    exists_cutOff_of_letters hblanks hne hletters hcut.goes_on
  obtain rfl := eq_nil_of_endsUnit hends hrest
  have hgoes : next.lexeme.goesOn = true := by
    have hchain := d.isChain_neighbour
    rw [htokens] at hchain
    exact (List.isChain_cons_cons.mp (hchain.suffix (List.suffix_append _ _))).1
      (by rw [hlexeme]; rfl)
  rw [hname] at hgoes
  obtain ⟨v, hv⟩ := exists_unit_of_goesOn hgoes
  refine .unit htokens (hname.trans hv) hpoint fun c hc => ?_
  have hdrop : line.drop (next.position + next.spelling.length) = rear := by
    rw [hposition, hspelling, Nat.add_assoc, ← List.drop_drop, hline, ← List.append_assoc]
    exact List.drop_left' (by simp)
  rw [hdrop] at hc
  obtain ⟨rear, rfl⟩ := List.head?_eq_some_iff.mp hc
  by_contra htimes
  obtain rfl | rfl := isTimesLetter_iff.mp (Bool.not_eq_false _ ▸ htimes)
  · cases hends
  · cases hends

/-- Letters, with blanks before them or without, do not go on with a number. -/
theorem eq_nil_of_digits {rest rear blanks letters back : List Char}
    (heq : blanks ++ (letters ++ back) = rest ++ rear) (hblanks : ∀ b ∈ blanks, isBlank b = true)
    (hne : letters ≠ []) (hletters : ∀ c ∈ letters, isLetter c = true ∧ isDecimal c = false)
    (hrest : ∀ c ∈ rest, isDecimal c = true ∨ c = '.') : rest = [] := by
  cases rest with
  | nil => rfl
  | cons r rest =>
    have hr := hrest r List.mem_cons_self
    cases blanks with
    | nil =>
      obtain ⟨c, cs, rfl⟩ := List.exists_cons_of_ne_nil hne
      obtain ⟨rfl, -⟩ := List.cons.inj heq
      obtain ⟨hletter, hdecimal⟩ := hletters c List.mem_cons_self
      obtain hr | rfl := hr
      · rw [hdecimal] at hr
        cases hr
      · exact absurd hletter (by decide)
    | cons b blanks =>
      obtain ⟨rfl, -⟩ := List.cons.inj heq
      have hb := hblanks b List.mem_cons_self
      rw [isBlank_of_isPlain (isPlain_of_isDecimal hr)] at hb
      cases hb

/-- **A variable with a digit in it**, which the letters of a unit stand behind, ends with these
letters: blanks end a name, and no other name can stand behind a variable. -/
theorem shows_of_variable (d : Phrase .sum) (h : tokenize line = .ok d.tokens)
    {before after : List Token} {token : Token} {v : String}
    (htokens : d.tokens = before ++ token :: after) (hlexeme : token.lexeme = .variable v)
    {init rest rear blanks letters back : List Char} {digit : Char} {u : UnitSuffix}
    (hspelling : token.spelling = init ++ digit :: rest) (hcut : CutOff token rear after)
    (heq : blanks ++ (letters ++ back) = rest ++ rear) (hdigit : isDecimal digit = true)
    (hbare : ∀ c ∈ rest, isBareChar c = true) (hstop : ∀ c ∈ rear.head?, isBareChar c = false)
    (hblanks : ∀ b ∈ blanks, isBlank b = true) (hfold : fold letters = u.text.toList)
    (hends : endsUnit back = true) : ShowsCalculation line d.tokens := by
  obtain ⟨hne, hletters⟩ := letters_of_unit hfold
  cases blanks with
  | nil =>
    rw [List.nil_append] at heq
    obtain ⟨rest, rfl, rfl⟩ :=
      exists_append_of_run (p := isBareChar) heq (fun c hc => (hletters c hc).2.2) hstop
    obtain rfl := eq_nil_of_endsUnit hends fun c hc => hbare c (List.mem_append_right _ hc)
    exact .name (by simp [htokens]) hlexeme (.inr (hasUnit_iff.mpr
      ⟨init, digit, [], letters, [], hspelling, hdigit, nofun, ⟨u, hfold⟩, rfl⟩))
  | cons b blanks =>
    obtain rfl : rest = [] := by
      cases rest with
      | nil => rfl
      | cons r rest =>
        obtain ⟨rfl, -⟩ := List.cons.inj heq
        have hb := hblanks b List.mem_cons_self
        have hword := (Bool.and_eq_true_iff.mp (hbare b List.mem_cons_self)).1
        rw [Unicode.isBlank_of_isWordChar hword] at hb
        cases hb
    rw [List.nil_append] at heq
    rw [← heq] at hcut
    obtain ⟨next, after, -, -, left, name, rfl, -, -, -, hname, -⟩ :=
      exists_cutOff_of_letters hblanks hne hletters hcut.goes_on
    obtain ⟨hgoes, hunit⟩ :=
      goesOn_of_head? d h htokens (by rw [hlexeme]; rfl) (by rw [hlexeme]; rfl) next rfl
    rw [hname] at hgoes
    obtain ⟨w, hw⟩ := exists_unit_of_goesOn hgoes
    exact absurd (hname.trans hw) (hunit w)

/-- **A digit with the letters of a unit behind it** is in a number with this unit, or in a name
that ends so. -/
theorem shows_of_digit (d : Phrase .sum) {front blanks letters back : List Char} {digit : Char}
    {u : UnitSuffix} (hline : line = front ++ digit :: (blanks ++ (letters ++ back)))
    (h : tokenize line = .ok d.tokens) (hdigit : isDecimal digit = true)
    (hblanks : ∀ b ∈ blanks, isBlank b = true) (hfold : fold letters = u.text.toList)
    (hends : endsUnit back = true) : ShowsCalculation line d.tokens := by
  have hnotBlank := Unicode.isBlank_of_isWordChar (isWordChar_of_isDecimal hdigit)
  obtain ⟨before, token, after, start, init, rest, rear, htokens, hspelling, rfl, hbs, hposition,
    hcut⟩ := exists_cutOff_of_mem hnotBlank (hline ▸ h)
  have hmem : token ∈ d.tokens := by simp [htokens]
  have hdigitMem : digit ∈ token.spelling := by simp [hspelling]
  obtain ⟨c, name, hdollar⟩ | ⟨n, hlexeme, hdigits⟩ | ⟨⟨left, name, hlexeme⟩, hbare, hstop⟩ :=
    (hspelling ▸ hcut.looks).of_isBareChar (isBareChar_of_isDecimal hdigit)
  · exact .dollar hmem (hspelling.trans hdollar)
  · -- the digit is the last character of the number
    obtain ⟨hne, hletters⟩ := letters_of_unit hfold
    obtain rfl : rest = [] := eq_nil_of_digits hbs hblanks hne
      (fun c hc => ⟨(hletters c hc).1, (hletters c hc).2.1⟩) fun c hc => hdigits c (by simp [hc])
    rw [List.nil_append] at hbs
    rw [← hbs] at hcut
    refine shows_of_number d htokens hlexeme ?_ hcut hblanks hfold hends ?_
    · rw [hspelling, List.getLast?_concat]
      rintro ⟨⟩
      exact absurd hdigit (by decide)
    · exact drop_finish start (by simp [hline, hspelling]) hposition
  · refine shows_of_name h hmem hlexeme (fold_ne_of_isDecimal hdigitMem hdigit) fun v hv => ?_
    exact shows_of_variable d h htokens hv hspelling hcut hbs hdigit hbare hstop hblanks hfold hends

/-- **A number with a unit** in the text is one of the tokens with its unit, or stands in a name. -/
theorem shows_of_hasUnit (d : Phrase .sum) (h : tokenize line = .ok d.tokens)
    (hunit : hasUnit (trim line) = true) : ShowsCalculation line d.tokens := by
  obtain ⟨front, digit, blanks, letters, back, htrim, hdigit, hblanks, ⟨u, hfold⟩, hends⟩ :=
    hasUnit_iff.mp hunit
  obtain ⟨before, after, hline, hafter⟩ := exists_eq_of_trim_eq htrim
  have hends : endsUnit (back ++ after) = true := by
    cases back with
    | cons c back => exact hends
    | nil =>
      cases after with
      | nil => rfl
      | cons c after =>
        rw [List.nil_append, endsUnit, hafter c List.mem_cons_self]
        rfl
  have hsplit : line = before ++ front ++ digit :: (blanks ++ (letters ++ (back ++ after))) := by
    simpa using hline
  exact shows_of_digit d hsplit h hdigit hblanks hfold hends

/-- **What can be seen in the text** shows in its tokens. -/
theorem shows_of_hasMark (d : Phrase .sum) (h : tokenize line = .ok d.tokens)
    (hmark : hasMark (trim line) = true) : ShowsCalculation line d.tokens := by
  rw [hasMark, Bool.or_eq_true, Bool.or_eq_true, Bool.or_eq_true] at hmark
  obtain ((hoperator | hparenthesis) | hvariable) | hunit := hmark
  · exact shows_of_isOperator h hoperator
  · exact shows_of_isParenthesis h hparenthesis
  · exact shows_of_refersToVariable h hvariable
  · exact shows_of_hasUnit d h hunit

/-! ## Sessions -/

/-- **Which calculations are recognised.** A text that has a value in some session and in which
no item is named looks like a calculation exactly if one shows in its tokens. -/
theorem looksLikeCalculation_iff_shows {s : Session} {text : String} {x : Decimal}
    (h : s.compute (some text) = .ok x) (hitem : namesItem (trim text.toList) = false) :
    ∃ tokens, tokenize text.toList = .ok tokens
      ∧ (looksLikeCalculation text.toList = true ↔ ShowsCalculation text.toList tokens) := by
  obtain ⟨-, d, htokens, -⟩ := Session.exists_phrase_of_compute h
  refine ⟨d.tokens, htokens, ?_⟩
  rw [looksLikeCalculation_iff hitem]
  exact ⟨shows_of_hasMark d htokens, ShowsCalculation.hasMark d htokens⟩

/-- A unit in capitals, with a blank before it. -/
theorem looksLikeCalculation_thousands : ∃ tokens, tokenize "2.5 K".toList = .ok tokens
    ∧ (looksLikeCalculation "2.5 K".toList = true ↔ ShowsCalculation "2.5 K".toList tokens) :=
  looksLikeCalculation_iff_shows (s := .empty (.working 50)) (x := .finite ⟨false, 25000, -1⟩)
    (by decide +kernel) (by decide +kernel)

/-- **An `x` behind a unit** hides it: the text has a value, and is not taken for a calculation. -/
theorem looksLikeCalculation_thousands_times :
    (Session.empty (.working 50)).compute (some "10kx5") = .ok (.finite ⟨false, 50000, 0⟩)
      ∧ tokenize "10kx5".toList = .ok [⟨.number ⟨['1', '0'], none⟩, ['1', '0'], 0⟩,
        ⟨.unit .thousand, ['k'], 2⟩, ⟨.operator .multiply, ['x'], 3⟩,
        ⟨.number ⟨['5'], none⟩, ['5'], 4⟩]
      ∧ namesItem (trim "10kx5".toList) = false
      ∧ looksLikeCalculation "10kx5".toList = false := by
  decide +kernel

end Reckoner.Search
