import Reckoner.Proofs.Token.Append

/-!
# Two lines with a blank between them

A blank ends the token before it, and what is read behind it depends on the line so far by
the last token only: an `x` that does not follow a digit or a parenthesis multiplies right
behind a unit, and a name is a unit behind a number. Only the first token of the second
line can be changed by this, for the next one has that token on its left.

`Lexeme.Changes` lists the two ways, and `marks_append_blank` says that they are all:
the tokens of the joined line are those of the two lines, the later ones further on, exactly
where the last token of the first line does not change the first one of the second.
-/

namespace Reckoner

open Unicode (isBlank isDecimal isWordChar)

variable {left left' : Left} {b c : Char} {cs s t : List Char} {lexeme : Lexeme}
  {more position : ℕ} {tokens before after : List Token}

/-! ## Further on -/

/-- **A token further on**, by as many characters as `n`. -/
def Token.shift (n : ℕ) (token : Token) : Token := { token with position := token.position + n }

/-- **Where a text stands in a line matters to the positions** of its tokens and to nothing
else. -/
theorem tokensFrom_shift (h : tokensFrom position left cs = .ok tokens) (n : ℕ) :
    tokensFrom (position + n) left cs = .ok (tokens.map (.shift n)) := by
  fun_induction tokensFrom position left cs generalizing tokens with
  | case1 position left =>
    obtain rfl := Except.ok.inj h
    rw [tokensFrom]
    rfl
  | case2 position left c cs hblank ih =>
    rw [tokensFrom, if_pos hblank, Nat.add_right_comm]
    exact ih h
  | case3 position left c cs hblank cause hlexeme => cases h
  | case4 position left c cs hblank lexeme more hlexeme spelling next =>
    rename_i ih
    obtain ⟨later, hlater, rfl⟩ := exists_of_map_eq_ok h
    have hposition : position + n + more + 1 = position + more + 1 + n := by omega
    rw [tokensFrom, if_neg hblank, hlexeme]
    dsimp only
    rw [hposition, ih hlater]
    rfl

/-! ## Before a blank -/

/-- No token goes on with a blank. -/
theorem endsToken_of_isBlank (hb : isBlank b = true) (tail : List Char) :
    EndsToken (b :: tail) := by
  rintro _ ⟨⟩
  refine ⟨Bool.eq_false_of_not_eq_true fun hword => ?_, ?_⟩
  · exact Bool.false_ne_true ((Unicode.isBlank_of_isWordChar hword).symm.trans hb)
  · rintro rfl
    exact absurd hb (by decide)

/-- The last lexeme before the end of a text: that of its last token, or the one to the left
of it. -/
def lastLexeme (left : Left) (tokens : List Token) : Option Lexeme :=
  (tokens.getLast?.map (·.lexeme)).or left.last

theorem lastLexeme_cons (left : Left) (token : Token) (tokens : List Token) (d : Option Char) :
    lastLexeme left (token :: tokens) = lastLexeme ⟨d, some token.lexeme⟩ tokens := by
  cases tokens with
  | nil => rfl
  | cons next tokens =>
    obtain ⟨last, hlast⟩ := Option.isSome_iff_exists.mp
      (List.getLast?_isSome.mpr (List.cons_ne_nil next tokens))
    rw [lastLexeme, lastLexeme, List.getLast?_cons_cons, hlast]
    rfl

/-- **A blank ends a line of tokens.** They are what they are without it, and what stands
behind it is read with the last of them on its left. -/
theorem tokensFrom_append_blank (hb : isBlank b = true)
    (h : tokensFrom position left cs = .ok tokens) (tail : List Char) :
    tokensFrom position left (cs ++ b :: tail)
      = (tokensFrom (position + cs.length + 1) ⟨some b, lastLexeme left tokens⟩ tail).map
        (tokens ++ ·) := by
  fun_induction tokensFrom position left cs generalizing tokens with
  | case1 position left =>
    obtain rfl := Except.ok.inj h
    rw [List.nil_append, tokensFrom, if_pos hb]
    exact (congrFun Except.map_id _).symm
  | case2 position left c cs hblank ih =>
    have hposition : position + 1 + cs.length = position + (c :: cs).length := by
      rw [List.length_cons]
      omega
    rw [List.cons_append, tokensFrom, if_pos hblank, ih h, hposition]
    rfl
  | case3 position left c cs hblank cause hlexeme => cases h
  | case4 position left c cs hblank lexeme more hlexeme spelling next =>
    rename_i ih
    obtain ⟨later, hlater, rfl⟩ := exists_of_map_eq_ok h
    obtain ⟨hmore, -⟩ := isSpelled_of_lexemeAt (.ofNat 0) hlexeme
    have hgoesOn := lexemeAt_append hlexeme (.inr (endsToken_of_isBlank hb tail))
    have hlength : position + more + 1 + (cs.drop more).length
        = position + (c :: cs).length := by
      rw [List.length_drop, List.length_cons]
      omega
    rw [List.cons_append, tokensFrom, if_neg hblank, hgoesOn]
    dsimp only
    rw [List.take_append_of_le_length hmore, List.drop_append_of_le_length hmore, ih hlater,
      hlength, lastLexeme_cons left ⟨lexeme, spelling, position⟩ later spelling.getLast?]
    cases tokensFrom (position + (c :: cs).length + 1) _ tail <;> rfl

/-! ## Behind a blank -/

/-- **A token that is another one behind a lexeme** than it is at the start of a line. -/
inductive Lexeme.Changes (last : Lexeme) (next : Token) : Prop
  /-- A name that is also that of a unit becomes the unit behind a number. -/
  | toUnit {u : UnitSuffix} (takesUnit : last.takesUnit = true)
      (lexeme_eq : next.lexeme = .variable u.text)
  /-- A name that begins with an `x` becomes a product behind a unit. -/
  | toOperator {u : UnitSuffix} (last_eq : last = .unit u)
      (begins : ∃ d ∈ next.spelling.head?, isTimesLetter d = true)

/-- **A lexeme behind the left**: behind a number, a name may be that of a unit. -/
def Lexeme.behind (left : Left) (lexeme : Lexeme) : Lexeme :=
  match lexeme with
  | .variable name =>
    if left.endsInNumber then (UnitSuffix.ofText? name).elim lexeme .unit else lexeme
  | _ => lexeme

theorem Lexeme.behind_eq_self_iff (left : Left) (lexeme : Lexeme) :
    lexeme.behind left = lexeme
      ↔ (left.endsInNumber = true → ∀ u : UnitSuffix, lexeme ≠ .variable u.text) := by
  cases lexeme with
  | «variable» name =>
    rw [behind]
    split
    · next hleft =>
      cases hu : UnitSuffix.ofText? name with
      | some u =>
        refine ⟨nofun, fun h => absurd ?_ (h hleft u)⟩
        rw [UnitSuffix.text_of_ofText? hu]
      | none =>
        refine ⟨fun _ _ u heq => ?_, fun _ => rfl⟩
        rw [Lexeme.variable.inj heq, UnitSuffix.ofText?_text] at hu
        cases hu
    · next hleft => exact ⟨fun _ h => absurd h hleft, fun _ => rfl⟩
  | _ => exact ⟨fun _ _ _ => Lexeme.noConfusion, fun _ => rfl⟩

/-- **What a name means depends on the left** only by a number there. -/
theorem nameLexeme_left (hleft : left.endsInNumber = false) (left' : Left) (name : List Char) :
    nameLexeme left' name = (nameLexeme left name).behind left' := by
  unfold nameLexeme
  dsimp only
  rw [hleft]
  generalize String.ofList (Unicode.lower name) = text
  cases Builtin.ofText? text with
  | some f => rfl
  | none =>
    cases hu : UnitSuffix.ofText? text with
    | some u =>
      dsimp only
      rw [if_neg Bool.false_ne_true, Lexeme.behind, hu]
      rfl
    | none =>
      dsimp only
      split
      · rfl
      · rw [Lexeme.behind, hu]
        exact (ite_self _).symm

/-- **What a token means depends on the left** only by what multiplies there, and by a
number. -/
theorem lexemeAt_left (hleft : left.endsInNumber = false)
    (htimes : isTimesLetter c = true → left.multiplies = false ∧ left'.multiplies = false)
    (h : lexemeAt left c cs = .ok (lexeme, more)) :
    lexemeAt left' c cs = .ok (lexeme.behind left', more) := by
  refine Cut.lexemeAt_eq ?_
  cases cut_of_lexemeAt h with
  | numeral starts numeralAt_eq => exact .numeral starts numeralAt_eq
  | operator symbol_eq => exact .operator symbol_eq
  | times isTimes multiplies =>
    exact absurd ((htimes isTimes).1.symm.trans multiplies) Bool.false_ne_true
  | opening eq_opening => exact .opening eq_opening
  | closing eq_closing => exact .closing eq_closing
  | dollar eq_dollar =>
    rw [← nameLexeme_left hleft]
    exact .dollar eq_dollar
  | bare isLetter not_decimal not_times =>
    rw [← nameLexeme_left hleft]
    exact .bare isLetter not_decimal fun hc => (htimes hc).2

/-- Behind a blank, an `x` multiplies where a unit is the last token. -/
theorem multiplies_of_isBlank (hb : isBlank b = true) (last : Option Lexeme) :
    (⟨some b, last⟩ : Left).multiplies = true ↔ ∃ u, last = some (.unit u) := by
  have hdecimal : isDecimal b = false := by
    refine eq_false_of_ne_true fun hdecimal => ?_
    have hword := isWordChar_of_isDecimal hdecimal
    exact Bool.false_ne_true ((Unicode.isBlank_of_isWordChar hword).symm.trans hb)
  have hclosing : b ≠ ')' := by
    rintro rfl
    exact absurd hb (by decide)
  unfold Left.multiplies
  dsimp only
  rw [hdecimal, if_neg Bool.false_ne_true, if_neg hclosing]
  split
  · next u => exact ⟨fun _ => ⟨u, rfl⟩, fun _ => rfl⟩
  · next hunit => exact ⟨nofun, fun ⟨u, hu⟩ => absurd hu (hunit u)⟩

/-- At the start of a line, blanks aside, no `x` multiplies. -/
theorem multiplies_of_last_eq_none (hlast : left.last = none)
    (hbefore : ∀ d ∈ left.before, isBlank d = true) : left.multiplies = false := by
  obtain ⟨before, last⟩ := left
  subst hlast
  cases before with
  | none => rfl
  | some d =>
    refine eq_false_of_ne_true fun hmultiplies => ?_
    obtain ⟨u, hu⟩ := (multiplies_of_isBlank (hbefore d rfl) none).mp hmultiplies
    cases hu

/-- An `x` that does not multiply is no operator. -/
theorem ne_operator_of_isTimesLetter (hc : isTimesLetter c = true) (hleft : left.multiplies = false)
    (h : lexemeAt left c cs = .ok (lexeme, more)) (op : Operator) : lexeme ≠ .operator op := by
  cases cut_of_lexemeAt h with
  | @operator op' symbol_eq =>
    rw [← symbol_eq] at hc
    cases op' <;> exact absurd hc (by decide)
  | times isTimes multiplies => exact absurd (hleft.symm.trans multiplies) Bool.false_ne_true
  | dollar eq_dollar => exact nameLexeme_ne_operator left _ op
  | bare isLetter not_decimal not_times => exact nameLexeme_ne_operator left _ op
  | _ => exact Lexeme.noConfusion

/-- **The first token of a text is what it is at the start of a line** exactly where the
lexeme before it does not change it. -/
theorem lexemeAt_behind_iff (hb : isBlank b = true) (hlast : left.last = none)
    (hbefore : ∀ d ∈ left.before, isBlank d = true)
    (h : lexemeAt left c cs = .ok (lexeme, more)) (last : Option Lexeme) (position : ℕ) :
    lexemeAt ⟨some b, last⟩ c cs = .ok (lexeme, more)
      ↔ ∀ l ∈ last, ¬ l.Changes ⟨lexeme, c :: cs.take more, position⟩ := by
  have hstart : left.multiplies = false := multiplies_of_last_eq_none hlast hbefore
  have hnumber : left.endsInNumber = false := by rw [Left.endsInNumber, hlast]; rfl
  by_cases htimes : isTimesLetter c = true ∧ ∃ u, last = some (.unit u)
  · -- the `x` multiplies behind the unit, which it did not do before
    obtain ⟨hc, u, rfl⟩ := htimes
    have hmultiplies := (multiplies_of_isBlank hb (some (.unit u))).mpr ⟨u, rfl⟩
    rw [(Cut.times hc hmultiplies).lexemeAt_eq]
    refine ⟨fun heq => ?_, fun hchanges => ?_⟩
    · exact absurd (Prod.mk.inj (Except.ok.inj heq)).1.symm
        (ne_operator_of_isTimesLetter hc hstart h .multiply)
    · exact absurd (.toOperator rfl ⟨c, rfl, hc⟩) (hchanges _ rfl)
  · have hsame (hc : isTimesLetter c = true) :
        left.multiplies = false ∧ (⟨some b, last⟩ : Left).multiplies = false :=
      ⟨hstart, eq_false_of_ne_true fun hmultiplies =>
        htimes ⟨hc, (multiplies_of_isBlank hb last).mp hmultiplies⟩⟩
    rw [lexemeAt_left hnumber hsame h, Except.ok.injEq, Prod.mk.injEq, and_iff_left rfl,
      Lexeme.behind_eq_self_iff]
    refine ⟨fun hunit l hl hchanges => ?_, fun hchanges hnumber u hu => ?_⟩
    · obtain rfl := Option.mem_def.mp hl
      cases hchanges with
      | toUnit takesUnit lexeme_eq => exact hunit takesUnit _ lexeme_eq
      | toOperator last_eq begins =>
        obtain ⟨_, ⟨⟩, hc⟩ := begins
        exact htimes ⟨hc, _, congrArg some last_eq⟩
    · obtain ⟨l, hl, htakes⟩ := (Option.any_eq_true ..).mp hnumber
      exact hchanges l hl (.toUnit htakes hu)

/-- **A text has the same tokens behind a lexeme and a blank** exactly where that lexeme does
not change the first of them. -/
theorem tokensFrom_behind_iff (hb : isBlank b = true) (hlast : left.last = none)
    (hbefore : ∀ d ∈ left.before, isBlank d = true)
    (h : tokensFrom position left cs = .ok tokens) (last : Option Lexeme) :
    tokensFrom position ⟨some b, last⟩ cs = .ok tokens
      ↔ ∀ l ∈ last, ∀ next ∈ tokens.head?, ¬ l.Changes next := by
  fun_induction tokensFrom position left cs generalizing tokens b with
  | case1 position left =>
    obtain rfl := Except.ok.inj h
    rw [tokensFrom]
    refine ⟨fun _ _ _ _ hnext => ?_, fun _ => rfl⟩
    cases hnext
  | case2 position left c cs hblank ih =>
    rw [tokensFrom, if_pos hblank]
    refine ih hblank hlast ?_ h
    rintro _ ⟨⟩
    exact hblank
  | case3 position left c cs hblank cause hlexeme => cases h
  | case4 position left c cs hblank lexeme more hlexeme spelling =>
    obtain ⟨later, hlater, rfl⟩ := exists_of_map_eq_ok h
    have hfirst := lexemeAt_behind_iff hb hlast hbefore hlexeme last position
    have hhead : (∀ l ∈ last, ∀ next ∈ (⟨lexeme, spelling, position⟩ :: later).head?,
        ¬ l.Changes next) ↔ ∀ l ∈ last, ¬ l.Changes ⟨lexeme, spelling, position⟩ :=
      ⟨fun hchanges l hl => hchanges l hl _ rfl, by rintro hchanges l hl _ ⟨⟩; exact hchanges l hl⟩
    rw [hhead, ← hfirst, tokensFrom, if_neg hblank]
    constructor
    · intro htokens
      cases hlexeme' : lexemeAt ⟨some b, last⟩ c cs with
      | error cause =>
        rw [hlexeme'] at htokens
        cases htokens
      | ok read =>
        obtain ⟨lexeme', more'⟩ := read
        rw [hlexeme'] at htokens
        obtain ⟨later', -, htokens⟩ := exists_of_map_eq_ok htokens
        obtain ⟨rfl, hspelling, -⟩ := Token.mk.inj (List.cons.inj htokens).1
        have hmore := (isSpelled_of_lexemeAt (.ofNat 0) hlexeme).1
        have hmore' := (isSpelled_of_lexemeAt (.ofNat 0) hlexeme').1
        have hlength := congrArg List.length hspelling
        rw [List.length_cons, List.length_cons, List.length_take_of_le hmore,
          List.length_take_of_le hmore', Nat.succ_inj] at hlength
        rw [hlength]
    · intro hlexeme'
      rw [hlexeme']
      dsimp only
      rw [hlater]
      rfl

/-! ## Two lines -/

/-- **A mark further on**, by as many characters as `n`. -/
def Mark.shift (n : ℕ) : Mark → Mark
  | .token t => .token (t.shift n)
  | .lineEnd position => .lineEnd (position + n)

/-- How far on a token stands does not matter to whether it is changed. -/
theorem Lexeme.changes_shift_iff (last : Lexeme) (next : Token) (n : ℕ) :
    last.Changes (next.shift n) ↔ last.Changes next := by
  constructor
  · rintro (⟨takesUnit, lexeme_eq⟩ | ⟨last_eq, begins⟩)
    · exact .toUnit takesUnit lexeme_eq
    · exact .toOperator last_eq begins
  · rintro (⟨takesUnit, lexeme_eq⟩ | ⟨last_eq, begins⟩)
    · exact .toUnit takesUnit lexeme_eq
    · exact .toOperator last_eq begins

/-- The tokens of two lines with a blank between them. -/
theorem tokenize_append_blank_iff (hs : tokenize s = .ok before) (ht : tokenize t = .ok after) :
    tokenize (s ++ ' ' :: t) = .ok (before ++ after.map (.shift (s.length + 1)))
      ↔ ∀ last ∈ before.getLast?, ∀ next ∈ after.head?, ¬ last.lexeme.Changes next := by
  have hblank : isBlank ' ' = true := by decide
  have hlast : lastLexeme .start before = before.getLast?.map (·.lexeme) := Option.or_none
  have hjoined : tokenize (s ++ ' ' :: t)
      = (tokensFrom (0 + (s.length + 1)) ⟨some ' ', before.getLast?.map (·.lexeme)⟩ t).map
        (before ++ ·) := by
    rw [tokenize, tokensFrom_append_blank hblank hs, hlast, Nat.add_assoc]
  have hcancel (x : Except Fault (List Token)) (later : List Token) :
      x.map (before ++ ·) = .ok (before ++ later) ↔ x = .ok later := by
    refine ⟨fun h => ?_, fun h => by rw [h]; rfl⟩
    obtain ⟨later', hx, heq⟩ := exists_of_map_eq_ok h
    rw [hx, List.append_cancel_left heq]
  rw [hjoined, hcancel, tokensFrom_behind_iff hblank rfl (by rintro _ ⟨⟩) (tokensFrom_shift ht _)]
  simp only [List.head?_map, Option.forall_mem_map, Lexeme.changes_shift_iff]

/-- The marks of a line are its tokens and its end. -/
theorem marks_eq_ok_iff :
    marks s = .ok (tokens.map .token ++ [.lineEnd s.length]) ↔ tokenize s = .ok tokens := by
  refine ⟨fun h => ?_, fun h => by rw [marks, h]; rfl⟩
  obtain ⟨tokens', htokens', heq⟩ := exists_of_map_eq_ok h
  have htokens := List.append_cancel_right heq
  rw [htokens', List.map_injective_iff.mpr (fun _ _ => Mark.token.inj) htokens]

/-- **Two lines with a blank between them** have the tokens of the first line, and behind them
the tokens and the end of the second one, further on by the first line and the blank – exactly
where the last token of the first line does not change the first token of the second. -/
theorem marks_append_blank (hs : tokenize s = .ok before) (ht : tokenize t = .ok after) :
    marks (s ++ ' ' :: t)
        = (marks t).map (fun behind => before.map .token ++ behind.map (.shift (s.length + 1)))
      ↔ ∀ last ∈ before.getLast?, ∀ next ∈ after.head?, ¬ last.lexeme.Changes next := by
  rw [← tokenize_append_blank_iff hs ht, ← marks_eq_ok_iff, marks_eq_ok_iff.mpr ht]
  have hend : (s ++ ' ' :: t).length = t.length + (s.length + 1) := by
    rw [List.length_append, List.length_cons]
    omega
  have hmarks : before.map Mark.token
        ++ (after.map Mark.token ++ [Mark.lineEnd t.length]).map (Mark.shift (s.length + 1))
      = (before ++ after.map (Token.shift (s.length + 1))).map Mark.token
        ++ [Mark.lineEnd (s ++ ' ' :: t).length] := by
    rw [List.map_append, List.map_append, List.append_assoc, List.map_map, List.map_map, hend]
    rfl
  rw [← hmarks]
  rfl

set_option maxRecDepth 1000 in
/-- A variable whose name begins with an `x` stays one behind a unit if it is written with a
dollar sign. -/
theorem marks_append_blank_dollar :
    tokenize "3k".toList = .ok [⟨.number ⟨['3'], none⟩, ['3'], 0⟩, ⟨.unit .thousand, ['k'], 1⟩]
      ∧ tokenize "$x".toList = .ok [⟨.variable "x", ['$', 'x'], 0⟩]
      ∧ marks ("3k".toList ++ ' ' :: "$x".toList) = (marks "$x".toList).map fun behind =>
        [.token ⟨.number ⟨['3'], none⟩, ['3'], 0⟩, .token ⟨.unit .thousand, ['k'], 1⟩]
          ++ behind.map (.shift 3) := by
  have hs : tokenize "3k".toList
      = .ok [⟨.number ⟨['3'], none⟩, ['3'], 0⟩, ⟨.unit .thousand, ['k'], 1⟩] := by cbv
  have ht : tokenize "$x".toList = .ok [⟨.variable "x", ['$', 'x'], 0⟩] := by cbv
  refine ⟨hs, ht, (marks_append_blank hs ht).mpr ?_⟩
  rintro _ ⟨⟩ _ ⟨⟩ (⟨takesUnit, -⟩ | ⟨-, begins⟩)
  · cases takesUnit
  · obtain ⟨_, ⟨⟩, hdollar⟩ := begins
    cases hdollar

end Reckoner
