import Reckoner.Proofs.Search.Pattern

/-!
# When a text is complete

Whether a text is complete is settled by four questions, asked one after the other. Is it blank?
Does it end in an operator? Do its parentheses match? Is there a call that is never closed? The
second and the last are put as patterns, `trailingOperator` and `openCall`, and
`isCompleteByPatterns` asks all four in this order. `isComplete` asks the same without patterns: it
looks at the last character of the trimmed text, and reads calls as they come. The two agree
(`isComplete_eq_isCompleteByPatterns`), and on any text, since `search_trailingOperator` and
`search_openCall` do not assume that it is trimmed. What stands behind the end of a text where a
pattern sees one is at most a line feed, and this is a blank behind an operator and no closing
parenthesis in a call.

The four questions come down to three properties of the text (`isComplete_spec`), for the last one
decides nothing. A call that is never closed has a parenthesis that is opened for good, and then
the parentheses do not match, which has been asked before. It is not enough for this that as many
are closed as are opened: they are in `)abs(`, where a call is open. What rules this text out
is that no beginning may close more than it opens.
-/

namespace Reckoner.Search

open Unicode (isBlank isBlankText trim trimStart)

variable {text : List Char} {c : Char}

/-! ## The operator at the end -/

/-- **An operator at the end** of a text, with nothing but blanks behind it. -/
def trailingOperator : Pattern :=
  .next (.one (['+', '-', '*', '/', '^', '%'].contains ·)) (.next (.many isBlank) .finish)

/-- The operators are six characters. -/
theorem isOperator_iff_mem : isOperator c = true ↔ c ∈ ['+', '-', '*', '/', '^', '%'] := by
  constructor
  · intro h
    obtain ⟨op, hop⟩ := Option.isSome_iff_exists.mp h
    rw [← Operator.symbol_of_ofChar? hop]
    cases op <;> decide
  · intro h
    have hall : ['+', '-', '*', '/', '^', '%'].all isOperator = true := by decide
    exact List.all_eq_true.mp hall c h

/-- An operator is no blank. -/
theorem isBlank_of_isOperator (h : isOperator c = true) : isBlank c = false :=
  isBlank_of_mem_signChars (List.mem_append_left ['x', 'X', '(', ')'] (isOperator_iff_mem.mp h))

/-- **A trimmed text ends in an operator** if the text does, blanks aside. -/
theorem endsInOperator_trim_iff : endsInOperator (trim text) = true
    ↔ ∃ front c blanks, text = front ++ c :: blanks ∧ isOperator c = true
      ∧ ∀ b ∈ blanks, isBlank b = true := by
  constructor
  · intro h
    obtain ⟨c, hlast, hc⟩ := (Option.any_eq_true _ _).mp h
    obtain ⟨before, blanks, -, hblanks, htext⟩ := Unicode.exists_append_trim_append text
    obtain ⟨front, hfront⟩ := List.getLast?_eq_some_iff.mp hlast
    refine ⟨before ++ front, c, blanks, ?_, hc, hblanks⟩
    rw [hfront] at htext
    simpa using htext
  · rintro ⟨front, c, blanks, rfl, hc, hblanks⟩
    have hnone : blanks.filter (!isBlank ·) = [] :=
      List.filter_eq_nil_iff.mpr fun b hb => by simp [hblanks b hb]
    have hlast : (trim (front ++ c :: blanks)).getLast? = some c := by
      rw [Unicode.getLast?_trim, List.filter_append,
        List.filter_cons_of_pos (by simp [isBlank_of_isOperator hc]), hnone, List.getLast?_concat]
    rw [endsInOperator, hlast]
    exact hc

/-- What the pattern stands for. -/
theorem matches_trailingOperator_iff {inside after : List Char} :
    trailingOperator.Matches inside after ↔ ∃ c blanks, inside = c :: blanks
      ∧ isOperator c = true ∧ (∀ b ∈ blanks, isBlank b = true) ∧ (after = [] ∨ after = ['\n']) := by
  constructor
  · rintro ⟨_, _, rfl, ⟨c, rfl, hc⟩, blanks, _, rfl, hblanks, rfl, hend⟩
    exact ⟨c, blanks, by rw [List.append_nil, List.singleton_append],
      isOperator_iff_mem.mpr (List.contains_iff_mem.mp hc), hblanks, hend⟩
  · rintro ⟨c, blanks, rfl, hc, hblanks, hend⟩
    exact ⟨[c], blanks, rfl, ⟨c, rfl, List.contains_iff_mem.mpr (isOperator_iff_mem.mp hc)⟩,
      blanks, [], (List.append_nil _).symm, hblanks, rfl, hend⟩

/-- **The pattern for an operator at the end** is found exactly if the trimmed text ends in one. -/
theorem search_trailingOperator (text : List Char) :
    trailingOperator.search text = endsInOperator (trim text) := by
  rw [Bool.eq_iff_iff, Pattern.search_iff, endsInOperator_trim_iff]
  constructor
  · rintro ⟨front, _, after, rfl, hmatches⟩
    obtain ⟨c, blanks, rfl, hc, hblanks, hend⟩ := matches_trailingOperator_iff.mp hmatches
    -- the line feed that may follow is one more blank
    have hafter : ∀ b ∈ after, isBlank b = true := by
      obtain rfl | rfl := hend
      · nofun
      · exact List.forall_mem_singleton.mpr (by decide)
    exact ⟨front, c, blanks ++ after, rfl, hc, List.forall_mem_append.mpr ⟨hblanks, hafter⟩⟩
  · rintro ⟨front, c, blanks, rfl, hc, hblanks⟩
    exact ⟨front, c :: blanks, [], by rw [List.append_nil],
      matches_trailingOperator_iff.mpr ⟨c, blanks, rfl, hc, hblanks, .inl rfl⟩⟩

/-! ## The open call -/

/-- The name of a function, in any letter case. -/
def functionName : Pattern :=
  .anyOf ([Builtin.sqrt, .abs, .floor, .ceil, .round].map (.word ·.text.toList))

theorem matches_functionName_iff {letters after : List Char} :
    functionName.Matches letters after ↔ ∃ f : Builtin, fold letters = f.text.toList := by
  rw [functionName, Pattern.matches_anyOf_iff]
  constructor
  · rintro ⟨_, hmem, hword⟩
    obtain ⟨f, -, rfl⟩ := List.mem_map.mp hmem
    exact ⟨f, Pattern.matches_word_iff.mp hword⟩
  · rintro ⟨f, hf⟩
    exact ⟨_, List.mem_map_of_mem (by cases f <;> decide), Pattern.matches_word_iff.mpr hf⟩

/-- **A call that is never closed**: a function, blanks if there are any, a parenthesis, and no
closing one up to the end. -/
def openCall : Pattern :=
  .next functionName
    (.next (.many isBlank) (.next (.one (· == '(')) (.next (.many (· != ')')) .finish)))

/-- What the pattern stands for. -/
theorem matches_openCall_iff {part after : List Char} : openCall.Matches part after
    ↔ ∃ letters blanks inside, part = letters ++ (blanks ++ '(' :: inside)
      ∧ (∃ f : Builtin, fold letters = f.text.toList) ∧ (∀ b ∈ blanks, isBlank b = true)
      ∧ ')' ∉ inside ∧ (after = [] ∨ after = ['\n']) := by
  constructor
  · rintro ⟨letters, _, rfl, hletters, blanks, _, rfl, hblanks, _, _, rfl, ⟨c, rfl, hc⟩,
      inside, _, rfl, hinside, rfl, hend⟩
    refine ⟨letters, blanks, inside, ?_, matches_functionName_iff.mp hletters, hblanks, ?_, hend⟩
    · rw [eq_of_beq hc, List.append_nil, List.singleton_append]
    · exact fun h => absurd (hinside _ h) (by decide)
  · rintro ⟨letters, blanks, inside, rfl, hletters, hblanks, hinside, hend⟩
    have hopen : ∀ d ∈ inside, (d != ')') = true := fun d hd =>
      bne_iff_ne.mpr fun heq => hinside (heq ▸ hd)
    exact ⟨letters, blanks ++ '(' :: inside, rfl, matches_functionName_iff.mpr hletters,
      blanks, '(' :: inside, rfl, hblanks, ['('], inside, rfl, ⟨'(', rfl, rfl⟩,
      inside, [], (List.append_nil _).symm, hopen, rfl, hend⟩

/-- **The pattern for an open call** is found exactly if a call that is read at some place of the
text is open. -/
theorem search_openCall (text : List Char) :
    openCall.search text = anywhere beginsOpenCall text := by
  rw [Bool.eq_iff_iff, Pattern.search_iff, anywhere_iff]
  constructor
  · rintro ⟨front, _, after, rfl, hmatches⟩
    obtain ⟨letters, blanks, inside, rfl, hletters, hblanks, hinside, hend⟩ :=
      matches_openCall_iff.mp hmatches
    have hafter : ')' ∉ after := by
      obtain rfl | rfl := hend
      · nofun
      · decide
    refine ⟨front, _, rfl, beginsOpenCall_iff.mpr
      ⟨letters, blanks, inside ++ after, by simp, hletters, hblanks, ?_⟩⟩
    exact fun h => (List.mem_append.mp h).elim hinside hafter
  · rintro ⟨front, back, rfl, h⟩
    obtain ⟨letters, blanks, inside, rfl, hletters, hblanks, hinside⟩ := beginsOpenCall_iff.mp h
    exact ⟨front, _, [], by rw [List.append_nil], matches_openCall_iff.mpr
      ⟨letters, blanks, inside, rfl, hletters, hblanks, hinside, .inl rfl⟩⟩

/-- As many parentheses are closed as are opened here, and the call is open. -/
example : openCall.search ")ſqrt (2\n".toList = true := by decide

/-! ## Parentheses that match -/

/-- **The parentheses of a text match**: no beginning of it closes more than it opens, and the whole
closes as many. -/
structure IsBalanced (text : List Char) : Prop where
  closed_le : ∀ front, front <+: text → front.count ')' ≤ front.count '('
  closed_eq : text.count ')' = text.count '('

/-- They match if none is open at the end. -/
theorem isBalanced_iff : IsBalanced text ↔ openDepth? 0 text = some 0 := by
  rw [openDepth?_eq_some_iff]
  simp only [Nat.zero_add]
  exact ⟨fun h => ⟨h.closed_le, h.closed_eq.symm⟩, fun h => ⟨h.1, h.2.symm⟩⟩

instance (text : List Char) : Decidable (IsBalanced text) :=
  decidable_of_iff _ isBalanced_iff.symm

/-- Blanks at the ends of a text are no parentheses. -/
theorem isBalanced_trim_iff : IsBalanced (trim text) ↔ IsBalanced text := by
  rw [isBalanced_iff, isBalanced_iff, ← openDepth?_filter,
    Unicode.filter_trim fun c => isParenthesis_of_isBlank, openDepth?_filter]

/-! ## The verdict -/

/-- **Whether a text is complete, by patterns**: the four questions in their order. -/
def isCompleteByPatterns (text : List Char) : Bool :=
  let trimmed := trim text
  if trimmed.isEmpty then false
  else if trailingOperator.search trimmed then false
  else if openDepth? 0 trimmed != some 0 then false
  else !openCall.search trimmed

/-- The questions are the same. -/
theorem isComplete_eq_isCompleteByPatterns (text : List Char) :
    isComplete text = isCompleteByPatterns text := by
  simp only [isComplete, isCompleteByPatterns, search_trailingOperator, search_openCall,
    Unicode.trim_trim]
  cases (trim text).isEmpty <;> cases endsInOperator (trim text) <;>
    cases h : openDepth? 0 (trim text) == some 0 <;> simp [bne, h]

/-- **The pattern for an open call is not found** where the parentheses match. -/
theorem IsBalanced.search_openCall (h : IsBalanced text) : openCall.search text = false := by
  rw [Search.search_openCall]
  exact anywhere_beginsOpenCall_of_openDepth? (isBalanced_iff.mp h)

/-- **When a text is complete.** It is if it is not blank, its last character that is no blank is no
operator, and its parentheses match. The pattern for an open call has no part in it, though it is
asked for: where the parentheses match, it is not found. -/
theorem isComplete_spec (text : List Char) :
    (isComplete text = true ↔ isBlankText text = false
        ∧ (∀ c ∈ (text.filter (!isBlank ·)).getLast?, c ∉ ['+', '-', '*', '/', '^', '%'])
        ∧ IsBalanced text)
      ∧ isComplete text = isCompleteByPatterns text
      ∧ (IsBalanced text → openCall.search (trim text) = false) := by
  have hcall (h : IsBalanced text) : openCall.search (trim text) = false :=
    (isBalanced_trim_iff.mpr h).search_openCall
  refine ⟨?_, isComplete_eq_isCompleteByPatterns text, hcall⟩
  have hblank : (trim text).isEmpty = isBlankText text := by
    rw [Bool.eq_iff_iff, List.isEmpty_iff, Unicode.trim_eq_nil_iff]
  have hoperator : endsInOperator (trim text) = false
      ↔ ∀ c ∈ (text.filter (!isBlank ·)).getLast?, c ∉ ['+', '-', '*', '/', '^', '%'] := by
    rw [endsInOperator, Unicode.getLast?_trim, Option.any_eq_false]
    exact forall₂_congr fun c _ => by rw [← isOperator_iff_mem, Bool.not_eq_true]
  rw [isComplete, hblank, ← hoperator, ← search_openCall, ← isBalanced_trim_iff, isBalanced_iff]
  simp only [Bool.and_eq_true, Bool.not_eq_true', beq_iff_eq, and_assoc]
  exact and_congr_right fun _ => and_congr_right fun _ =>
    and_iff_left_of_imp fun h => hcall (isBalanced_trim_iff.mp (isBalanced_iff.mpr h))

/-- Calls inside each other, one of them with the long s, and a line feed at the end. -/
theorem isComplete_spec_nested_calls :
    IsBalanced "ſqrt (9*Abs(-4))\n".toList
      ∧ openCall.search (trim "ſqrt (9*Abs(-4))\n".toList) = false
      ∧ isComplete "ſqrt (9*Abs(-4))\n".toList = true := by
  have hbalanced : IsBalanced "ſqrt (9*Abs(-4))\n".toList := by decide
  have hlast : ("ſqrt (9*Abs(-4))\n".toList.filter (!isBlank ·)).getLast? = some ')' := by decide
  obtain ⟨hcomplete, -, hcall⟩ := isComplete_spec "ſqrt (9*Abs(-4))\n".toList
  refine ⟨hbalanced, hcall hbalanced, hcomplete.mpr ⟨by decide, ?_, hbalanced⟩⟩
  rw [hlast]
  rintro _ ⟨⟩
  decide

end Reckoner.Search
