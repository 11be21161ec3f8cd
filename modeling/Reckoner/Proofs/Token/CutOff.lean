import Reckoner.Proofs.Token.Spelling

/-!
# What stands behind a token

Reading goes from token to token, and what it leaves behind each of them is read in the same way.
`CutOff` keeps this for a token of a line: how it was recognised, and which text it leaves for
the tokens behind it. Every token of a line is cut off somewhere (`exists_cutOff_append`), the
first one behind blanks only (`exists_cutOff_cons`), and every character that is not blank is in
one of them (`exists_cutOff_of_mem`).

A token is the longest one there is. What this says of its characters and of the next one behind
them is different for numbers, signs and names, and for names with and without a dollar sign:
`CutOff.looks` has a case for each.
-/

namespace Reckoner

open Unicode (isBlank isDecimal isLetter isWordChar)

variable {position : ℕ} {left : Left} {text back : List Char} {token : Token}
  {tokens before after : List Token}

/-- **A token is cut off** and leaves a text, from which the tokens behind it are read. -/
structure CutOff (token : Token) (back : List Char) (after : List Token) : Prop where
  cut : ∃ left c rest more, Cut left c rest token.lexeme more
    ∧ token.spelling = c :: rest.take more ∧ back = rest.drop more
  goes_on : tokensFrom (token.position + token.spelling.length)
    ⟨token.spelling.getLast?, some token.lexeme⟩ back = .ok after

/-! ## Tokens in a line -/

/-- **The first token of a line** stands behind blanks. -/
theorem exists_cutOff_cons (h : tokensFrom position left text = .ok (token :: after)) :
    ∃ blanks back, (∀ b ∈ blanks, isBlank b = true) ∧ text = blanks ++ (token.spelling ++ back)
      ∧ token.position = position + blanks.length ∧ CutOff token back after := by
  fun_induction tokensFrom position left text with
  | case1 position left => cases Except.ok.inj h
  | case2 position left c cs hblank ih =>
    obtain ⟨blanks, back, hblanks, rfl, hposition, hcut⟩ := ih h
    refine ⟨c :: blanks, back, List.forall_mem_cons.mpr ⟨hblank, hblanks⟩, rfl, ?_, hcut⟩
    rw [hposition, List.length_cons]
    omega
  | case3 position left c cs hblank cause hlexeme => cases h
  | case4 position left c cs hblank lexeme more hlexeme spelling next =>
    obtain ⟨tokens, htokens, heq⟩ := exists_of_map_eq_ok h
    obtain ⟨rfl, rfl⟩ := List.cons.inj heq
    obtain ⟨hmore, -⟩ := isSpelled_of_lexemeAt (.ofNat 0) hlexeme
    refine ⟨[], cs.drop more, List.forall_mem_nil _, ?_, rfl,
      ⟨left, c, cs, more, cut_of_lexemeAt hlexeme, rfl, rfl⟩, ?_⟩
    · show c :: cs = c :: (cs.take more ++ cs.drop more)
      rw [List.take_append_drop]
    · show tokensFrom (position + (c :: cs.take more).length) next _ = _
      rw [List.length_cons, List.length_take_of_le hmore]
      exact htokens

/-- **Every token of a line** is cut off somewhere. -/
theorem exists_cutOff_append (h : tokensFrom position left text = .ok (before ++ token :: after)) :
    ∃ front back, text = front ++ (token.spelling ++ back)
      ∧ token.position = position + front.length ∧ CutOff token back after := by
  induction before generalizing position left text with
  | nil =>
    obtain ⟨blanks, back, -, htext, hposition, hcut⟩ := exists_cutOff_cons h
    exact ⟨blanks, back, htext, hposition, hcut⟩
  | cons first before ih =>
    obtain ⟨blanks, back, -, rfl, hfirst, -, hback⟩ := exists_cutOff_cons h
    obtain ⟨front, back, rfl, hposition, hcut⟩ := ih hback
    refine ⟨blanks ++ (first.spelling ++ front), back, by simp, ?_, hcut⟩
    rw [hposition, hfirst, List.length_append, List.length_append]
    omega

/-- A character of an appended text is in the one part or in the other. -/
theorem append_cons_eq_append {c : Char} {as bs front rear : List Char}
    (h : as ++ c :: bs = front ++ rear) :
    (∃ rest, front = as ++ c :: rest ∧ bs = rest ++ rear)
      ∨ ∃ start, as = front ++ start ∧ rear = start ++ c :: bs := by
  obtain ⟨rest, rfl, hrest⟩ | ⟨start, rfl, hstart⟩ := List.append_eq_append_iff.mp h
  · cases rest with
    | nil => exact .inr ⟨[], by simp, hrest.symm⟩
    | cons d rest =>
      obtain ⟨rfl, rfl⟩ := List.cons.inj hrest
      exact .inl ⟨rest, rfl, rfl⟩
  · exact .inr ⟨start, rfl, hstart⟩

/-- **Every character that is not blank** is in a token. -/
theorem exists_cutOff_of_mem {c : Char} (hblank : isBlank c = false) {as bs : List Char}
    (h : tokensFrom position left (as ++ c :: bs) = .ok tokens) :
    ∃ before token after front start rest back, tokens = before ++ token :: after
      ∧ token.spelling = start ++ c :: rest ∧ as = front ++ start ∧ bs = rest ++ back
      ∧ token.position = position + front.length ∧ CutOff token back after := by
  induction tokens generalizing position left as with
  | nil =>
    have hfilter := (layout_of_tokensFrom (.ofNat 0) h).filter_eq (p := (!isBlank ·))
      fun d hd => by rw [hd]; rfl
    have hmem : c ∈ (as ++ c :: bs).filter (!isBlank ·) :=
      List.mem_filter.mpr ⟨List.mem_append_right _ List.mem_cons_self, by rw [hblank]; rfl⟩
    rw [hfilter] at hmem
    cases hmem
  | cons token after ih =>
    obtain ⟨blanks, back, hblanks, htext, hposition, hcut⟩ := exists_cutOff_cons h
    obtain ⟨rest, rfl, -⟩ | ⟨start, rfl, hstart⟩ := append_cons_eq_append htext
    · have hc := hblanks c (List.mem_append_right _ List.mem_cons_self)
      rw [hblank] at hc
      cases hc
    obtain ⟨rest, hspelling, rfl⟩ | ⟨start, rfl, rfl⟩ := append_cons_eq_append hstart.symm
    · exact ⟨[], token, after, blanks, start, rest, back, rfl, hspelling, rfl, rfl, hposition, hcut⟩
    · obtain ⟨before, token', after', front, start, rest, back, rfl, hspelling, rfl, rfl,
        hposition', hcut'⟩ := ih hcut.goes_on
      refine ⟨token :: before, token', after', blanks ++ (token.spelling ++ front), start, rest,
        back, rfl, hspelling, by simp, rfl, ?_, hcut'⟩
      rw [hposition', hposition, List.length_append, List.length_append]
      omega

/-- **The next token** begins with the next character, unless this is blank. -/
theorem CutOff.exists_next {c : Char} {rest : List Char} (h : CutOff token (c :: rest) after)
    (hblank : isBlank c = false) :
    ∃ next after' more, after = next :: after'
      ∧ Cut ⟨token.spelling.getLast?, some token.lexeme⟩ c rest next.lexeme more := by
  have hrest := h.goes_on
  rw [tokensFrom, hblank, if_neg Bool.false_ne_true] at hrest
  split at hrest
  · cases hrest
  · next lexeme more hlexeme =>
    obtain ⟨after', -, rfl⟩ := exists_of_map_eq_ok hrest
    exact ⟨_, after', more, rfl, cut_of_lexemeAt hlexeme⟩

/-! ## What a token looks like -/

/-- **How a token looks**, given the text behind it. -/
inductive Looks (back : List Char) : Lexeme → List Char → Prop
  /-- A sign is a single character. -/
  | sign {lexeme : Lexeme} {c : Char} (isSign : lexeme.isSign = true) (mem : c ∈ signChars) :
      Looks back lexeme [c]
  /-- A number is made of digits and a point. -/
  | number {n : Numeral} {spelling : List Char}
      (digits : ∀ d ∈ spelling, isDecimal d = true ∨ d = '.') : Looks back (.number n) spelling
  /-- Behind a dollar sign, a name goes on as far as it can. -/
  | dollar {lexeme : Lexeme} {name : List Char} (word : ∀ d ∈ name, isWordChar d = true)
      (ends : ∀ d ∈ back.head?, isWordChar d = false) : Looks back lexeme ('$' :: name)
  /-- Without one it begins with a letter, and goes on to the next `x`. -/
  | bare {left : Left} {c : Char} {name : List Char} (letter : isLetter c = true)
      (word : ∀ d ∈ name, isBareChar d = true) (ends : ∀ d ∈ back.head?, isBareChar d = false) :
      Looks back (nameLexeme left (c :: name)) (c :: name)

/-- **Every token looks like one of its kind.** -/
theorem CutOff.looks (h : CutOff token back after) : Looks back token.lexeme token.spelling := by
  obtain ⟨left, c, rest, more, hcut, hspelling, rfl⟩ := h.cut
  rw [hspelling]
  have hends (p : Char → Bool) :
      ∀ d ∈ (rest.drop (rest.takeWhile p).length).head?, p d = false := by
    intro d hd
    rw [drop_length_takeWhile] at hd
    have hstop := List.head?_dropWhile_not p rest
    rw [hd] at hstop
    simpa using hstop
  have hrun (p : Char → Bool) : ∀ d ∈ rest.take (rest.takeWhile p).length, p d = true := by
    rw [take_length_takeWhile]
    exact fun d hd => List.mem_takeWhile_imp hd
  generalize token.lexeme = lexeme at hcut
  cases hcut with
  | numeral starts numeralAt_eq =>
    obtain ⟨numeral, -, hproper, -, hchars⟩ := exists_isProper_of_numeralAt starts numeralAt_eq
    rw [← hchars]
    exact .number hproper.mem_chars
  | @operator op symbol_eq =>
    rw [← symbol_eq]
    exact .sign rfl (by cases op <;> decide)
  | times isTimes multiplies =>
    obtain rfl | rfl := isTimesLetter_iff.mp isTimes <;> exact .sign rfl (by decide)
  | opening eq_opening =>
    rw [eq_opening]
    exact .sign rfl (by decide)
  | closing eq_closing =>
    rw [eq_closing]
    exact .sign rfl (by decide)
  | dollar eq_dollar =>
    rw [eq_dollar]
    exact .dollar (hrun isWordChar) (hends isWordChar)
  | bare isLetter not_decimal not_times =>
    have hbare := @Looks.bare _ left c _ isLetter (hrun isBareChar) (hends isBareChar)
    rw [take_length_takeWhile] at hbare ⊢
    exact hbare

/-! ## Names -/

/-- No sign goes on with a name: the letter that multiplies does not. -/
theorem isBareChar_of_mem_signChars {c : Char} (h : c ∈ signChars) : isBareChar c = false := by
  have hall : signChars.all (!isBareChar ·) = true := by decide
  simpa using List.all_eq_true.mp hall c h

/-- A digit goes on with a name. -/
theorem isBareChar_of_isDecimal {c : Char} (h : isDecimal c = true) : isBareChar c = true := by
  have htimes : isTimesLetter c = false := by
    by_contra htimes
    obtain rfl | rfl := isTimesLetter_iff.mp (Bool.not_eq_false _ ▸ htimes)
    · exact absurd h (by decide)
    · exact absurd h (by decide)
  rw [isBareChar, isWordChar_of_isDecimal h, htimes]
  rfl

/-- **A token with a letter or a digit in it** is a number, or a name; and then, if there is no
dollar sign before it, all that goes on with the name is in the token. -/
theorem Looks.of_isBareChar {lexeme : Lexeme} {start rest : List Char} {c : Char}
    (h : Looks back lexeme (start ++ c :: rest)) (hc : isBareChar c = true) :
    (∃ d name, start ++ c :: rest = '$' :: d :: name)
      ∨ (∃ n, lexeme = .number n ∧ ∀ d ∈ start ++ c :: rest, isDecimal d = true ∨ d = '.')
      ∨ (∃ left name, lexeme = nameLexeme left name) ∧ (∀ d ∈ rest, isBareChar d = true)
        ∧ ∀ d ∈ back.head?, isBareChar d = false := by
  generalize hspelling : start ++ c :: rest = spelling at h
  cases h with
  | sign isSign mem =>
    have hmem : c ∈ start ++ c :: rest := by simp
    rw [hspelling, List.mem_singleton] at hmem
    rw [hmem, isBareChar_of_mem_signChars mem] at hc
    cases hc
  | number digits => exact .inr (.inl ⟨_, rfl, digits⟩)
  | @dollar lexeme name word ends =>
    cases start with
    | nil =>
      obtain ⟨rfl, -⟩ := List.cons.inj hspelling
      exact absurd hc (by decide)
    | cons d start =>
      obtain ⟨rfl, rfl⟩ := List.cons.inj hspelling
      cases start with
      | nil => exact .inl ⟨c, rest, rfl⟩
      | cons d start => exact .inl ⟨d, start ++ c :: rest, rfl⟩
  | @bare left e name letter word ends =>
    refine .inr (.inr ⟨⟨left, e :: name, rfl⟩, ?_, ends⟩)
    cases start with
    | nil =>
      obtain ⟨-, rfl⟩ := List.cons.inj hspelling
      exact word
    | cons d start =>
      obtain ⟨-, rfl⟩ := List.cons.inj hspelling
      exact fun d hd => word d (by simp [hd])

/-- **A run of characters** stands in a part of a text if the part does not end before it. -/
theorem exists_append_of_run {p : Char → Bool} {as bs front rear : List Char}
    (h : as ++ bs = front ++ rear) (has : ∀ a ∈ as, p a = true)
    (hrear : ∀ d ∈ rear.head?, p d = false) : ∃ rest, front = as ++ rest ∧ bs = rest ++ rear := by
  obtain ⟨rest, rfl, rfl⟩ | ⟨cs, rfl, rfl⟩ := List.append_eq_append_iff.mp h
  · exact ⟨rest, rfl, rfl⟩
  · cases cs with
    | nil => exact ⟨[], by simp, by simp⟩
    | cons c cs =>
      have hc := has c (by simp)
      rw [hrear c rfl] at hc
      cases hc

/-- **The letters that a line begins with**, behind blanks, are the beginning of a name. -/
theorem exists_cutOff_of_letters {blanks letters bs : List Char}
    (hblanks : ∀ b ∈ blanks, isBlank b = true) (hne : letters ≠ [])
    (hletters : ∀ c ∈ letters, isLetter c = true ∧ isDecimal c = false ∧ isBareChar c = true)
    (h : tokensFrom position left (blanks ++ (letters ++ bs)) = .ok tokens) :
    ∃ token after rest back left name, tokens = token :: after ∧ token.spelling = letters ++ rest
      ∧ bs = rest ++ back ∧ (∀ c ∈ rest, isBareChar c = true)
      ∧ token.lexeme = nameLexeme left name ∧ token.position = position + blanks.length := by
  obtain ⟨c, cs, rfl⟩ := List.exists_cons_of_ne_nil hne
  obtain ⟨⟨hletter, hdecimal, hbare⟩, hcs⟩ := List.forall_mem_cons.mp hletters
  have hblank : isBlank c = false := Unicode.isBlank_of_isWordChar (isWordChar_of_isLetter hletter)
  cases tokens with
  | nil =>
    obtain ⟨before, token, after, -, -, -, -, hnil, -⟩ := exists_cutOff_of_mem hblank h
    simp at hnil
  | cons token after =>
    obtain ⟨blanks', back, hblanks', htext, hposition, hcut⟩ := exists_cutOff_cons h
    obtain ⟨left', e, more, count, hfirst, hspelling, -⟩ := hcut.cut
    -- the blanks before the token are those before the letters
    have hhead : ∀ d ∈ (token.spelling ++ back).head?, isBlank d = false := by
      rw [hspelling]
      rintro _ ⟨⟩
      exact hfirst.isBlank_eq
    obtain ⟨others, rfl, hword⟩ := exists_append_of_run htext hblanks hhead
    obtain rfl : others = [] := by
      cases others with
      | nil => rfl
      | cons d others =>
        have hd := hblanks' d (by simp)
        rw [← (List.cons.inj hword).1, hblank] at hd
        cases hd
    rw [hspelling] at hword
    obtain ⟨rfl, hrest⟩ := List.cons.inj hword
    have hlooks : Looks back token.lexeme ([] ++ c :: more.take count) := hspelling ▸ hcut.looks
    obtain ⟨d, name, hdollar⟩ | ⟨n, -, hdigits⟩ | ⟨⟨left, name, hlexeme⟩, hname, hends⟩ :=
      hlooks.of_isBareChar hbare
    · obtain ⟨rfl, -⟩ := List.cons.inj hdollar
      exact absurd hletter (by decide)
    · obtain h | rfl := hdigits c (by simp)
      · rw [hdecimal] at h
        cases h
      · exact absurd hletter (by decide)
    · obtain ⟨rest, htake, hbs⟩ :=
        exists_append_of_run (p := isBareChar) hrest (fun d hd => (hcs d hd).2.2) hends
      refine ⟨token, after, rest, back, left, name, rfl, by rw [hspelling, htake]; rfl, hbs,
        fun d hd => hname d (by simp [htake, hd]), hlexeme, by simpa using hposition⟩

end Reckoner
