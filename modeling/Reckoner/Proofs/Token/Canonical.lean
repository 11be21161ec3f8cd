import Reckoner.Proofs.Token.Joined
import Reckoner.Proofs.Unicode.Ascii

/-!
# Tokens that are written back

A line can be written in one way for its tokens, each by the one spelling that it is quoted
with, and a single blank between two of them (`Lexeme.written`, `spaced`). A variable takes a
dollar sign, which keeps its name whole; every other word is without an `x`. So what stands to
the left of a word does not matter but for the last token, and this is the same as before:
a unit is still right behind its number.

In a line of ASCII characters the letter case of the words does not matter either. The line
that is written back has the same lexemes, word for word (`exists_tokenize_spaced`).
-/

namespace Reckoner

open Unicode (isBlank isDecimal isLetter isWordChar lower IsAscii SameLetters)

variable {left left' : Left} {c d : Char} {cs ds tail name word : List Char} {lexeme : Lexeme}
  {more position : ℕ} {tokens : List Token} {words : List (List Char)}

/-- **How a lexeme is written back**: by its text, and a variable with a dollar sign. -/
def Lexeme.written : Lexeme → List Char
  | .variable name => '$' :: name.toList
  | lexeme => lexeme.text.toList

/-- **Words with single blanks between them.** -/
def spaced (words : List (List Char)) : List Char := [' '].intercalate words

/-! ## Names -/

/-- An ASCII letter other than `x`. -/
def isPlainLetter (c : Char) : Bool := c.isAlpha && !isTimesLetter c

/-- A plain letter begins a name, and goes on with it. -/
theorem isPlainLetter_spec (hc : c.toNat < 128) (h : isPlainLetter c = true) :
    isLetter c = true ∧ isDecimal c = false ∧ isTimesLetter c = false ∧ isBareChar c = true :=
  Unicode.forall_ascii (P := fun c => isPlainLetter c = true →
    isLetter c = true ∧ isDecimal c = false ∧ isTimesLetter c = false ∧ isBareChar c = true)
    (by decide +kernel) hc h

theorem isPlainLetter_toLower (hc : c.toNat < 128) :
    isPlainLetter c.toLower = isPlainLetter c :=
  Unicode.forall_ascii (P := fun c => isPlainLetter c.toLower = isPlainLetter c)
    (by decide +kernel) hc

/-- **A name is that of a variable, or a word of the calculator**, which is of plain
letters. -/
theorem nameLexeme_spec (left : Left) (name : List Char) :
    nameLexeme left name = .variable (String.ofList (lower name))
      ∨ (nameLexeme left name).written = lower name ∧ lower name ≠ []
        ∧ ∀ d ∈ lower name, isPlainLetter d = true := by
  have hword {text : String} (htext : text = String.ofList (lower name))
      (hne : text.toList ≠ []) (hletters : text.toList.all isPlainLetter = true) :
      text.toList = lower name ∧ lower name ≠ [] ∧ ∀ d ∈ lower name, isPlainLetter d = true := by
    have hlower : text.toList = lower name := by rw [htext, String.toList_ofList]
    exact ⟨hlower, hlower ▸ hne, hlower ▸ List.all_eq_true.mp hletters⟩
  unfold nameLexeme
  dsimp only
  split
  · next f hf =>
    exact .inr (hword (Builtin.text_of_ofText? hf) (by cases f <;> decide)
      (by cases f <;> rfl))
  · split
    · next u hu =>
      split
      · exact .inr (hword (UnitSuffix.text_of_ofText? hu) (by cases u <;> decide)
          (by cases u <;> rfl))
      · exact .inl rfl
    · split
      · next hanswer => exact .inr (hword hanswer.symm (by decide) rfl)
      · exact .inl rfl

/-- What a name means depends on its lower case, and on whether a number is to the left. -/
theorem nameLexeme_congr (hleft : left'.endsInNumber = left.endsInNumber) {name' : List Char}
    (hname : lower name' = lower name) : nameLexeme left' name' = nameLexeme left name := by
  rw [nameLexeme, nameLexeme, hname, hleft]

/-! ## One word -/

/-- A name with a dollar sign is read again. -/
theorem exists_cut_of_dollar (hname : ∀ d ∈ name, isWordChar d = true) (hascii : IsAscii name)
    (hword : SameLetters word ('$' :: lower name))
    (hleft : left'.endsInNumber = left.endsInNumber) (htail : EndsToken tail) :
    ∃ d ds, word = d :: ds ∧ Cut left' d (ds ++ tail) (nameLexeme left name) ds.length := by
  obtain ⟨d, ds, rfl, hd, hds⟩ := List.map_eq_cons_iff.mp hword
  obtain rfl := Unicode.eq_of_toLower_eq (by decide) hd
  have hds : SameLetters ds name := Eq.trans hds (Unicode.sameLetters_lower hascii)
  have htake : (ds ++ tail).takeWhile isWordChar = ds := by
    rw [takeWhile_append_of_ends (.inr fun d hd => (htail d hd).1),
      List.takeWhile_eq_self_iff.mpr
        (hds.forall_mem hascii (fun _ => Unicode.isWordChar_toLower) hname)]
  have hcut : Cut left' '$' (ds ++ tail) (nameLexeme left' ((ds ++ tail).takeWhile isWordChar))
      ((ds ++ tail).takeWhile isWordChar).length := .dollar rfl
  rw [htake, nameLexeme_congr hleft (hds.lower_eq hascii)] at hcut
  exact ⟨'$', ds, rfl, hcut⟩

/-- A word of plain letters is read again. -/
theorem exists_cut_of_plainLetters (hascii : IsAscii name) (hne : lower name ≠ [])
    (hletters : ∀ d ∈ lower name, isPlainLetter d = true) (hword : SameLetters word (lower name))
    (hleft : left'.endsInNumber = left.endsInNumber) (htail : EndsToken tail) :
    ∃ d ds, word = d :: ds ∧ Cut left' d (ds ++ tail) (nameLexeme left name) ds.length := by
  have hlower : SameLetters (lower name) name := Unicode.sameLetters_lower hascii
  have hlowerAscii : IsAscii (lower name) := hlower.isAscii hascii
  have hwordAscii : IsAscii word := hword.isAscii hlowerAscii
  have hplain : ∀ d ∈ word, isLetter d = true ∧ isDecimal d = false ∧ isTimesLetter d = false
      ∧ isBareChar d = true := fun d hd => isPlainLetter_spec (hwordAscii d hd)
    (hword.forall_mem hlowerAscii (fun _ => isPlainLetter_toLower) hletters d hd)
  have hsame : SameLetters word name := Eq.trans hword hlower
  cases word with
  | nil => exact absurd (List.map_eq_nil_iff.mp hword.symm) hne
  | cons d ds =>
    obtain ⟨⟨hletter, hdecimal, htimes, -⟩, hrest⟩ := List.forall_mem_cons.mp hplain
    have htake : (ds ++ tail).takeWhile isBareChar = ds := by
      rw [takeWhile_append_of_ends
        (.inr fun d hd => by rw [isBareChar, (htail d hd).1, Bool.false_and]),
        List.takeWhile_eq_self_iff.mpr fun e he => (hrest e he).2.2.2]
    have hcut : Cut left' d (ds ++ tail)
        (nameLexeme left' (d :: (ds ++ tail).takeWhile isBareChar))
        ((ds ++ tail).takeWhile isBareChar).length :=
      .bare hletter hdecimal fun hx => absurd (htimes.symm.trans hx) Bool.false_ne_true
    rw [htake, nameLexeme_congr hleft (hsame.lower_eq hascii)] at hcut
    exact ⟨d, ds, rfl, hcut⟩

/-- **A name that is written back** is read again. -/
theorem exists_cut_of_name (hname : ∀ d ∈ name, isWordChar d = true) (hascii : IsAscii name)
    (hword : SameLetters word (nameLexeme left name).written)
    (hleft : left'.endsInNumber = left.endsInNumber) (htail : EndsToken tail) :
    ∃ d ds, word = d :: ds ∧ Cut left' d (ds ++ tail) (nameLexeme left name) ds.length := by
  obtain hvariable | ⟨hwritten, hne, hletters⟩ := nameLexeme_spec left name
  · have hwritten : (nameLexeme left name).written = '$' :: lower name := by
      rw [hvariable, Lexeme.written, String.toList_ofList]
    exact exists_cut_of_dollar hname hascii (hwritten ▸ hword) hleft htail
  · exact exists_cut_of_plainLetters hascii hne hletters (hwritten ▸ hword) hleft htail

/-- **A token that is written back** is read again. -/
theorem Cut.exists_cut_of_written (h : Cut left c cs lexeme more) (hascii : IsAscii (c :: cs))
    (hword : SameLetters word lexeme.written) (hleft : left'.endsInNumber = left.endsInNumber)
    (htail : EndsToken tail) :
    ∃ d ds, word = d :: ds ∧ Cut left' d (ds ++ tail) lexeme ds.length := by
  obtain ⟨hc, hcs⟩ := List.forall_mem_cons.mp hascii
  -- a sign is a single character, and no letter
  have hsign {e : Char} (he : e.isAlpha = false) (hword : SameLetters word [e]) : word = [e] :=
    hword.eq_of_isAlpha (List.forall_mem_singleton.mpr he)
  have hrun (p : Char → Bool) : IsAscii (cs.takeWhile p) :=
    fun e he => hcs e ((List.takeWhile_prefix p).subset he)
  cases h with
  | numeral starts numeralAt_eq =>
    obtain ⟨n, hn, hproper, -, hchars⟩ := exists_isProper_of_numeralAt starts numeralAt_eq
    obtain rfl := Lexeme.number.inj hn
    have hwritten : (Lexeme.number _).written = c :: cs.take more :=
      String.toList_ofList.trans hchars
    have hdigits : ∀ e ∈ c :: cs.take more, e.isAlpha = false := by
      intro e he
      have heAscii : e.toNat < 128 := by
        obtain rfl | he := List.mem_cons.mp he
        · exact hc
        · exact hcs e (List.mem_of_mem_take he)
      obtain hdecimal | rfl := hproper.mem_chars e (hchars ▸ he)
      · exact Unicode.isAlpha_of_isDecimal heAscii hdecimal
      · decide
    rw [hwritten] at hword
    refine ⟨c, cs.take more, hword.eq_of_isAlpha hdigits, .numeral starts ?_⟩
    exact numeralAt_of_isProper hproper hchars htail.endsNumber
  | @operator op symbol_eq =>
    have hword : SameLetters word [op.symbol] := by cases op <;> exact hword
    exact ⟨op.symbol, [], hsign (by cases op <;> decide) hword, .operator rfl⟩
  | times isTimes multiplies => exact ⟨'*', [], hsign (by decide) hword, .operator rfl⟩
  | opening eq_opening => exact ⟨'(', [], hsign (by decide) hword, .opening rfl⟩
  | closing eq_closing => exact ⟨')', [], hsign (by decide) hword, .closing rfl⟩
  | dollar eq_dollar =>
    exact exists_cut_of_name (fun e he => List.mem_takeWhile_imp he) (hrun _) hword hleft htail
  | bare isLetter not_decimal not_times =>
    refine exists_cut_of_name ?_ (List.forall_mem_cons.mpr ⟨hc, hrun _⟩) hword hleft htail
    refine List.forall_mem_cons.mpr ⟨isWordChar_of_isLetter isLetter, fun e he => ?_⟩
    have hbare : isBareChar e = true := List.mem_takeWhile_imp he
    exact (Bool.and_eq_true_iff.mp hbare).1

/-! ## All words -/

/-- A token is read, and what follows it with it on the left. -/
theorem tokensFrom_of_cut (h : Cut left d (ds ++ tail) lexeme ds.length) (position : ℕ) :
    tokensFrom position left (d :: ds ++ tail)
      = (tokensFrom (position + ds.length + 1) ⟨(d :: ds).getLast?, some lexeme⟩ tail).map
        fun tokens => ⟨lexeme, d :: ds, position⟩ :: tokens := by
  rw [List.cons_append, tokensFrom, h.isBlank_eq, if_neg Bool.false_ne_true, h.lexemeAt_eq]
  dsimp only
  rw [List.take_left, List.drop_left]

/-- Behind the first of some words nothing goes on with it, and the other words are read, a
blank further on. -/
theorem exists_spaced_cons (word : List Char) (words : List (List Char)) :
    ∃ tail, spaced (word :: words) = word ++ tail ∧ EndsToken tail
      ∧ ∀ position left, ∃ position' before,
        tokensFrom position left tail = tokensFrom position' ⟨before, left.last⟩ (spaced words) := by
  cases words with
  | nil =>
    refine ⟨[], ?_, nofun, fun position left => ⟨position, left.before, rfl⟩⟩
    rw [spaced, List.intercalate_singleton, List.append_nil]
  | cons word' words =>
    have hblank : isBlank ' ' = true := by decide
    refine ⟨' ' :: spaced (word' :: words), ?_, endsToken_of_isBlank hblank _,
      fun position left => ⟨position + 1, some ' ', ?_⟩⟩
    · rw [spaced, List.intercalate_cons_cons, List.append_assoc]
      rfl
    · rw [tokensFrom, if_pos hblank]

/-- **The words that are written back** have the same lexemes, wherever they stand behind the
same one. -/
theorem exists_tokensFrom_spaced (h : tokensFrom position left cs = .ok tokens)
    (hascii : IsAscii cs) (hwords : words.Forall₂ SameLetters (tokens.map (·.lexeme.written)))
    (hleft : left'.last = left.last) (position' : ℕ) :
    ∃ tokens', tokensFrom position' left' (spaced words) = .ok tokens'
      ∧ tokens'.map (·.lexeme) = tokens.map (·.lexeme) := by
  fun_induction tokensFrom position left cs generalizing tokens words left' position' with
  | case1 position left =>
    obtain rfl := Except.ok.inj h
    obtain rfl := List.forall₂_nil_right_iff.mp hwords
    exact ⟨[], tokensFrom.eq_1 .., rfl⟩
  | case2 position left c cs hblank ih =>
    exact ih h (fun d hd => hascii d (List.mem_cons_of_mem c hd)) hwords hleft position'
  | case3 position left c cs hblank cause hlexeme => cases h
  | case4 position left c cs hblank lexeme more hlexeme spelling =>
    rename_i next ih
    obtain ⟨later, hlater, rfl⟩ := exists_of_map_eq_ok h
    obtain ⟨word, words, hword, hlaterWords, rfl⟩ := List.forall₂_cons_right_iff.mp hwords
    have hnumber : left'.endsInNumber = left.endsInNumber := by
      rw [Left.endsInNumber, Left.endsInNumber, hleft]
    obtain ⟨tail, hspaced, htail, hbehind⟩ := exists_spaced_cons word words
    obtain ⟨d, ds, rfl, hcut⟩ :=
      (cut_of_lexemeAt hlexeme).exists_cut_of_written hascii hword hnumber htail
    obtain ⟨position'', before, hbehind⟩ :=
      hbehind (position' + ds.length + 1) ⟨(d :: ds).getLast?, some lexeme⟩
    obtain ⟨tokens', htokens', hlexemes⟩ := ih hlater
      (fun e he => hascii e (List.mem_cons_of_mem c (List.mem_of_mem_drop he))) hlaterWords
      (show (⟨before, some lexeme⟩ : Left).last = next.last from rfl) position''
    refine ⟨⟨lexeme, d :: ds, position'⟩ :: tokens', ?_, congrArg (lexeme :: ·) hlexemes⟩
    rw [hspaced, tokensFrom_of_cut hcut, hbehind, htokens']
    rfl

/-- **A line that is written back has the same lexemes.** -/
theorem exists_tokenize_spaced {line : List Char} (h : tokenize line = .ok tokens)
    (hascii : IsAscii line) (hwords : words.Forall₂ SameLetters (tokens.map (·.lexeme.written))) :
    ∃ tokens', tokenize (spaced words) = .ok tokens'
      ∧ tokens'.map (·.lexeme) = tokens.map (·.lexeme) :=
  exists_tokensFrom_spaced h hascii hwords rfl 0

end Reckoner
