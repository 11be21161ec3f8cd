import Mathlib
import Reckoner.Proofs.Outcome
import Reckoner.Proofs.Token.Cut

/-!
# How tokens lie in a line

The tokens of a line are cut out of it from left to right, and what is left
between them is blank. `Layout` says this of the text behind a position in the
order in which it is read: there is nothing left, or a blank comes first, or the
spelling of a token does. That reading cuts a text in this way
(`layout_of_tokensFrom`) rests on one fact about a single token: it takes at
least the character it was recognised by, no more than there is, and what it
takes is a spelling of what it says (`isSpelled_of_lexemeAt`).

What is a spelling is fixed by `Lexeme.IsSpelled`. A number is spelled by its
digits, and stands for the number they have in the positional system, whatever
script they are taken from; an operator or a parenthesis by its character, with
the letter `x` for a product; and a name by itself in any letter case, after a
dollar sign or without one.

From the order of reading follows what can be seen in the line itself
(`marks_partition`): the tokens are pieces of it that do not overlap, and every
character outside of them is blank.
-/

namespace Reckoner

open Unicode (decimalValue isBlank isDecimal isLetter isWordChar lower)

/-! ## Spellings -/

/-- **A row of digits as a number** of the decimal system. -/
def positional (digits : List Char) : Nat := Nat.ofDigits 10 (digits.reverse.map decimalValue)

/-- **A literal and its number**: digits of which at least one is there, with at
most one point among them. Each digit behind the point is a place. -/
def IsLiteral (spelling : List Char) (x : Scaled) : Prop :=
  ∃ whole places : List Char,
    (places = [] ∧ spelling = whole ∨ spelling = whole ++ '.' :: places)
      ∧ whole ++ places ≠ []
      ∧ (∀ c ∈ whole ++ places, isDecimal c = true)
      ∧ x = ⟨false, positional (whole ++ places), -places.length⟩

/-- A name without the dollar sign that may stand before it. -/
def withoutDollar : List Char → List Char
  | '$' :: name => name
  | name => name

/-- **How a lexeme is spelled**, when `answer` is the last answer. -/
def Lexeme.IsSpelled (answer : Decimal) (lexeme : Lexeme) (spelling : List Char) : Prop :=
  match lexeme with
  | .number _ =>
    lexeme.text = String.ofList spelling
      ∧ ∃ x, lexeme.number? answer = some (.finite x) ∧ IsLiteral spelling x
  | .operator op => spelling = [op.symbol] ∨ op = .multiply ∧ (spelling = ['x'] ∨ spelling = ['X'])
  | .opening => spelling = ['(']
  | .closing => spelling = [')']
  | .answer | .function _ | .unit _ | .variable _ =>
    lexeme.text = String.ofList (lower (withoutDollar spelling))

/-- The digits of a numeral are read one after another, which is the number that
they have by their positions. -/
theorem digitsValue_eq_positional (digits : List Char) :
    Unicode.digitsValue digits = positional digits := by
  induction digits using List.reverseRecOn with
  | nil => rfl
  | append_singleton digits c ih =>
    have hstep : Unicode.digitsValue (digits ++ [c])
        = 10 * Unicode.digitsValue digits + decimalValue c := by
      rw [Unicode.digitsValue, List.foldl_append]
      rfl
    rw [hstep, ih, positional, positional, List.reverse_append, List.reverse_singleton,
      List.singleton_append, List.map_cons, Nat.ofDigits_cons, Nat.add_comm]

/-- **A numeral as it can be cut out of a line**: digits of any script, and not none at
all. -/
structure Numeral.IsProper (numeral : Numeral) : Prop where
  ne_nil : numeral.whole ++ numeral.fraction.getD [] ≠ []
  isDecimal : ∀ c ∈ numeral.whole ++ numeral.fraction.getD [], isDecimal c = true

/-- A numeral with digits in it is a literal of its value. -/
theorem Numeral.IsProper.isLiteral {numeral : Numeral} (h : numeral.IsProper) :
    IsLiteral numeral.chars numeral.value := by
  refine ⟨numeral.whole, numeral.fraction.getD [], ?_, h.ne_nil, h.isDecimal, ?_⟩
  · obtain ⟨whole, fraction⟩ := numeral
    cases fraction with
    | none => exact .inl ⟨rfl, rfl⟩
    | some places => exact .inr rfl
  · rw [← digitsValue_eq_positional]
    rfl

/-- The characters of a numeral are digits and the point. -/
theorem Numeral.IsProper.mem_chars {n : Numeral} (h : n.IsProper) :
    ∀ d ∈ n.chars, Unicode.isDecimal d = true ∨ d = '.' := by
  obtain ⟨hwhole, hfraction⟩ := List.forall_mem_append.mp h.isDecimal
  obtain ⟨whole, fraction⟩ := n
  cases fraction with
  | none => exact fun d hd => .inl (hwhole d hd)
  | some places =>
    exact List.forall_mem_append.mpr ⟨fun d hd => .inl (hwhole d hd),
      List.forall_mem_cons.mpr ⟨.inr rfl, fun d hd => .inl (hfraction d hd)⟩⟩

/-! ## One token -/

/-- The characters taken by `takeWhile` are a prefix that can be taken by its
length. -/
theorem take_length_takeWhile (p : Char → Bool) (cs : List Char) :
    cs.take (cs.takeWhile p).length = cs.takeWhile p :=
  List.prefix_iff_eq_take.mp (List.takeWhile_prefix p) |>.symm

/-- What `takeWhile` leaves is what stands behind it. -/
theorem drop_length_takeWhile (p : Char → Bool) (cs : List Char) :
    cs.drop (cs.takeWhile p).length = cs.dropWhile p := by
  have hsplit := List.take_append_drop (cs.takeWhile p).length cs
  rw [take_length_takeWhile] at hsplit
  exact List.append_cancel_left (hsplit.trans (List.takeWhile_append_dropWhile (p := p)).symm)

variable {left : Left} {c : Char} {cs : List Char} {lexeme : Lexeme} {more : Nat}

/-- **A number is cut out of a line** with all its characters. -/
theorem exists_isProper_of_numeralAt (hc : isDecimal c = true ∨ c = '.')
    (h : numeralAt c cs = .ok (lexeme, more)) :
    ∃ numeral : Numeral, lexeme = .number numeral ∧ numeral.IsProper ∧ more ≤ cs.length
      ∧ numeral.chars = c :: cs.take more := by
  have hrun (ds : List Char) : ∀ d ∈ ds.takeWhile isDecimal, isDecimal d = true :=
    fun d hd => List.mem_takeWhile_imp hd
  unfold numeralAt at h
  split at h
  · next hpoint =>
    dsimp only at h
    split at h
    · cases h
    · next hplaces =>
      obtain ⟨rfl, rfl⟩ := Prod.mk.inj (Except.ok.inj h)
      refine ⟨⟨[], some (cs.takeWhile isDecimal)⟩, rfl, ⟨by simpa using hplaces, hrun cs⟩,
        (List.takeWhile_prefix _).length_le, ?_⟩
      rw [take_length_takeWhile, hpoint]
      rfl
  · next hpoint =>
    have hdigit : isDecimal c = true := hc.resolve_right hpoint
    have hsplit := List.takeWhile_append_dropWhile (p := isDecimal) (l := cs)
    dsimp only at h
    split at h
    · next rest hrest =>
      -- the text is the digits, a point, and what follows it
      obtain ⟨rfl, rfl⟩ := Prod.mk.inj (Except.ok.inj h)
      rw [hrest] at hsplit
      set digits := cs.takeWhile isDecimal with hdigits
      refine ⟨⟨c :: digits, some (rest.takeWhile isDecimal)⟩, rfl, ⟨by simp, ?_⟩, ?_, ?_⟩
      · exact List.forall_mem_append.mpr ⟨List.forall_mem_cons.mpr ⟨hdigit, hrun cs⟩, hrun rest⟩
      · rw [← hsplit, List.length_append, List.length_cons]
        have := (List.takeWhile_prefix isDecimal (l := rest)).length_le
        omega
      · have htake : cs.take (digits.length + 1 + (rest.takeWhile isDecimal).length)
            = digits ++ '.' :: rest.takeWhile isDecimal := by
          rw [← hsplit, Nat.add_assoc, List.take_length_add_append, Nat.add_comm 1,
            List.take_succ_cons, take_length_takeWhile]
        rw [htake]
        rfl
    · obtain ⟨rfl, rfl⟩ := Prod.mk.inj (Except.ok.inj h)
      refine ⟨⟨c :: cs.takeWhile isDecimal, none⟩, rfl, ⟨by simp, ?_⟩,
        (List.takeWhile_prefix _).length_le, ?_⟩
      · exact List.forall_mem_append.mpr ⟨List.forall_mem_cons.mpr ⟨hdigit, hrun cs⟩, nofun⟩
      · rw [take_length_takeWhile]
        rfl

/-- **A number is spelled by what is read of it.** -/
theorem isSpelled_of_numeralAt (answer : Decimal) (hc : isDecimal c = true ∨ c = '.')
    (h : numeralAt c cs = .ok (lexeme, more)) :
    more ≤ cs.length ∧ lexeme.IsSpelled answer (c :: cs.take more) := by
  obtain ⟨numeral, rfl, hproper, hmore, hchars⟩ := exists_isProper_of_numeralAt hc h
  rw [← hchars]
  exact ⟨hmore, rfl, numeral.value, rfl, hproper.isLiteral⟩

theorem Builtin.text_of_ofText? {f : Builtin} {s : String} (h : Builtin.ofText? s = some f) :
    f.text = s := by
  simpa using List.find?_some h

theorem UnitSuffix.text_of_ofText? {u : UnitSuffix} {s : String}
    (h : UnitSuffix.ofText? s = some u) : u.text = s := by
  simpa using List.find?_some h

/-- **A name is spelled by itself**, whatever it means. -/
theorem isSpelled_nameLexeme (answer : Decimal) (left : Left) (spelling : List Char) :
    (nameLexeme left (withoutDollar spelling)).IsSpelled answer spelling := by
  unfold nameLexeme
  dsimp only
  split
  · next f hf => exact Builtin.text_of_ofText? hf
  · split
    · next u hu =>
      split
      · exact UnitSuffix.text_of_ofText? hu
      · rfl
    · split
      · next hanswer => exact hanswer.symm
      · rfl

/-- **A token is spelled by what it takes**: the character it was recognised by and
some of those behind it. -/
theorem isSpelled_of_lexemeAt (answer : Decimal) (h : lexemeAt left c cs = .ok (lexeme, more)) :
    more ≤ cs.length ∧ lexeme.IsSpelled answer (c :: cs.take more) := by
  cases cut_of_lexemeAt h with
  | numeral starts numeralAt_eq => exact isSpelled_of_numeralAt answer starts numeralAt_eq
  | operator symbol_eq =>
    exact ⟨Nat.zero_le _, .inl (by rw [symbol_eq, List.take_zero])⟩
  | times isTimes multiplies =>
    refine ⟨Nat.zero_le _, .inr ⟨rfl, ?_⟩⟩
    rw [List.take_zero]
    exact (isTimesLetter_iff.mp isTimes).imp (congrArg ([·])) (congrArg ([·]))
  | opening eq_opening => exact ⟨Nat.zero_le _, by rw [eq_opening, List.take_zero]; rfl⟩
  | closing eq_closing => exact ⟨Nat.zero_le _, by rw [eq_closing, List.take_zero]; rfl⟩
  | dollar eq_dollar =>
    refine ⟨(List.takeWhile_prefix _).length_le, ?_⟩
    rw [take_length_takeWhile, eq_dollar]
    exact isSpelled_nameLexeme answer left ('$' :: cs.takeWhile isWordChar)
  | bare isLetter not_decimal not_times =>
    refine ⟨(List.takeWhile_prefix _).length_le, ?_⟩
    rw [take_length_takeWhile]
    have hbare : withoutDollar (c :: cs.takeWhile isBareChar) = c :: cs.takeWhile isBareChar := by
      unfold withoutDollar
      split
      · next heq =>
        rw [(List.cons.inj heq).1] at isLetter
        exact absurd isLetter (by decide)
      · rfl
    have hname := isSpelled_nameLexeme answer left (c :: cs.takeWhile isBareChar)
    rwa [hbare] at hname

/-! ## All tokens -/

/-- **How tokens lie in a text** whose first character stands at a position: blanks
and spellings, one after another. -/
inductive Layout (answer : Decimal) : Nat → List Char → List Token → Prop
  | finished (position : Nat) : Layout answer position [] []
  | blank {position : Nat} {c : Char} {cs : List Char} {tokens : List Token}
      (isBlank : isBlank c = true) (rest : Layout answer (position + 1) cs tokens) :
      Layout answer position (c :: cs) tokens
  | token {position : Nat} {lexeme : Lexeme} {spelling cs : List Char} {tokens : List Token}
      (ne_nil : spelling ≠ []) (isSpelled : lexeme.IsSpelled answer spelling)
      (rest : Layout answer (position + spelling.length) cs tokens) :
      Layout answer position (spelling ++ cs) (⟨lexeme, spelling, position⟩ :: tokens)

/-- **Reading cuts a text into blanks and spellings.** -/
theorem layout_of_tokensFrom (answer : Decimal) {position : Nat} {tokens : List Token}
    (h : tokensFrom position left cs = .ok tokens) : Layout answer position cs tokens := by
  fun_induction tokensFrom position left cs generalizing tokens with
  | case1 position left =>
    obtain rfl := Except.ok.inj h
    exact .finished position
  | case2 position left c cs hblank ih => exact .blank hblank (ih h)
  | case3 position left c cs hblank cause hlexeme => cases h
  | case4 position left c cs hblank lexeme more hlexeme spelling next =>
    rename_i ih
    obtain ⟨tokens, htokens, rfl⟩ := exists_of_map_eq_ok h
    obtain ⟨hmore, hspelled⟩ := isSpelled_of_lexemeAt answer hlexeme
    have hlength : spelling.length = more + 1 := by
      rw [List.length_cons, List.length_take_of_le hmore]
    have htext : c :: cs = spelling ++ cs.drop more := by
      rw [List.cons_append, List.take_append_drop]
    rw [htext]
    refine .token (List.cons_ne_nil _ _) hspelled ?_
    rw [hlength]
    exact ih htokens

namespace Layout

variable {answer : Decimal} {position : Nat} {tokens : List Token}

theorem le_position (h : Layout answer position cs tokens) :
    ∀ token ∈ tokens, position ≤ token.position := by
  induction h with
  | finished position => exact nofun
  | blank isBlank rest ih => exact fun token htoken => Nat.le_of_succ_le (ih token htoken)
  | token ne_nil isSpelled rest ih =>
    rw [List.forall_mem_cons]
    exact ⟨le_rfl, fun token htoken => le_trans (Nat.le_add_right _ _) (ih token htoken)⟩

/-- A token ends inside the text. -/
theorem finish_le (h : Layout answer position cs tokens) :
    ∀ token ∈ tokens, token.position + token.spelling.length ≤ position + cs.length := by
  induction h with
  | finished position => exact nofun
  | blank isBlank rest ih =>
    intro token htoken
    rw [List.length_cons]
    have := ih token htoken
    omega
  | token ne_nil isSpelled rest ih =>
    rw [List.forall_mem_cons]
    refine ⟨by simp, fun token htoken => ?_⟩
    rw [List.length_append]
    have := ih token htoken
    omega

/-- **A token ends before the next one begins.** -/
theorem pairwise_finish_le (h : Layout answer position cs tokens) :
    tokens.Pairwise fun a b => a.position + a.spelling.length ≤ b.position := by
  induction h with
  | finished position => exact .nil
  | blank isBlank rest ih => exact ih
  | token ne_nil isSpelled rest ih => exact .cons rest.le_position ih

/-- **A token is spelled by the characters from its position on.** -/
theorem spelled (h : Layout answer position cs tokens) {before : List Char}
    (hbefore : before.length = position) :
    ∀ token ∈ tokens, token.spelling ≠ []
      ∧ ((before ++ cs).drop token.position).take token.spelling.length = token.spelling
      ∧ token.lexeme.IsSpelled answer token.spelling := by
  induction h generalizing before with
  | finished position => exact nofun
  | @blank position c cs tokens isBlank rest ih =>
    rw [List.append_cons]
    exact ih (by rw [List.length_append, hbefore, List.length_singleton])
  | @token position lexeme spelling cs tokens ne_nil isSpelled rest ih =>
    rw [List.forall_mem_cons]
    refine ⟨⟨ne_nil, ?_, isSpelled⟩, ?_⟩
    · rw [← hbefore, List.drop_left, List.take_left]
    · rw [← List.append_assoc]
      exact ih (by rw [List.length_append, hbefore])

/-- **A character outside of all tokens is blank.** -/
theorem isBlank_of_uncovered (h : Layout answer position cs tokens) {before : List Char}
    (hbefore : before.length = position) {i : Nat} {c : Char} (hi : (before ++ cs)[i]? = some c)
    (hle : position ≤ i)
    (huncovered : ∀ token ∈ tokens,
      ¬ (token.position ≤ i ∧ i < token.position + token.spelling.length)) :
    isBlank c = true := by
  induction h generalizing before with
  | finished position =>
    rw [List.append_nil, List.getElem?_eq_none (by omega)] at hi
    cases hi
  | @blank position b cs tokens isBlank rest ih =>
    rcases hle.eq_or_lt with rfl | hlt
    · rw [← hbefore, List.getElem?_append_right le_rfl, Nat.sub_self] at hi
      exact Option.some.inj hi ▸ isBlank
    · rw [List.append_cons] at hi
      exact ih (by rw [List.length_append, hbefore, List.length_singleton]) hi hlt huncovered
  | @token position lexeme spelling cs tokens ne_nil isSpelled rest ih =>
    rw [List.forall_mem_cons] at huncovered
    rw [← List.append_assoc] at hi
    refine ih (by rw [List.length_append, hbefore]) hi ?_ huncovered.2
    by_contra hlt
    exact huncovered.1 ⟨hle, Nat.lt_of_not_le hlt⟩

end Layout

/-- A token of a line is spelled by one character at least. -/
theorem spelling_ne_nil_of_tokenize {tokens : List Token} (h : tokenize cs = .ok tokens) :
    ∀ token ∈ tokens, token.spelling ≠ [] := fun token htoken =>
  ((layout_of_tokensFrom (.ofNat 0) h).spelled List.length_nil token htoken).1

/-- **A token of a line** is spelled as what it says. -/
theorem isSpelled_of_tokenize {tokens : List Token} (h : tokenize cs = .ok tokens) :
    ∀ token ∈ tokens, token.lexeme.IsSpelled (.ofNat 0) token.spelling := fun token htoken =>
  ((layout_of_tokensFrom (.ofNat 0) h).spelled List.length_nil token htoken).2.2

/-- **The tokens of a line are a partition of it.** The end of the line comes last,
behind its last character, and the positions rise from mark to mark. Each token is
spelled by a part of the line that begins at its position and is not empty, parts
do not overlap, and a character in none of them is blank. -/
theorem marks_partition {text : List Char} {row : List Mark} (h : marks text = .ok row)
    (answer : Decimal) :
    ∃ tokens : List Token, row = tokens.map .token ++ [.lineEnd text.length]
      ∧ row.Pairwise (fun a b => a.position < b.position)
      ∧ tokens.Pairwise (fun a b => a.position + a.spelling.length ≤ b.position)
      ∧ (∀ token ∈ tokens, token.spelling ≠ []
        ∧ (text.drop token.position).take token.spelling.length = token.spelling
        ∧ token.lexeme.IsSpelled answer token.spelling)
      ∧ ∀ i c, text[i]? = some c →
        (∀ token ∈ tokens, ¬ (token.position ≤ i ∧ i < token.position + token.spelling.length)) →
        isBlank c = true := by
  obtain ⟨tokens, htokens, rfl⟩ := exists_of_map_eq_ok h
  have hlayout : Layout answer 0 text tokens := layout_of_tokensFrom answer htokens
  have hspelled := hlayout.spelled List.length_nil
  have hlength (token : Token) (htoken : token ∈ tokens) : 0 < token.spelling.length :=
    List.length_pos_iff.mpr (hspelled token htoken).1
  refine ⟨tokens, rfl, ?_, hlayout.pairwise_finish_le, hspelled, fun i c hi huncovered =>
    hlayout.isBlank_of_uncovered List.length_nil hi (Nat.zero_le i) huncovered⟩
  rw [List.pairwise_append, List.pairwise_map]
  refine ⟨hlayout.pairwise_finish_le.imp_of_mem fun ha _ hle => ?_, List.pairwise_singleton _ _,
    fun mark hmark last hlast => ?_⟩
  · exact (Nat.lt_add_of_pos_right (hlength _ ha)).trans_le hle
  · obtain ⟨token, htoken, rfl⟩ := List.mem_map.mp hmark
    obtain rfl := List.mem_singleton.mp hlast
    have hle := hlayout.finish_le token htoken
    rw [Nat.zero_add] at hle
    exact (Nat.lt_add_of_pos_right (hlength token htoken)).trans_le hle

/-- A blank, a number with a unit, the letter that multiplies, and a name that keeps
its own: four tokens on ten characters. -/
theorem marks_two_letters_x :
    ∃ tokens : List Token, marks " 2.50kx$Ax".toList = .ok (tokens.map .token ++ [.lineEnd 10])
      ∧ tokens.map (·.position) = [1, 5, 6, 7]
      ∧ tokens.map (·.lexeme.text) = ["2.50", "k", "*", "ax"]
      ∧ ∀ token ∈ tokens, token.lexeme.IsSpelled (.ofNat 7) token.spelling := by
  have h : marks " 2.50kx$Ax".toList = .ok (List.map .token
      [⟨.number ⟨['2'], some ['5', '0']⟩, ['2', '.', '5', '0'], 1⟩,
        ⟨.unit .thousand, ['k'], 5⟩, ⟨.operator .multiply, ['x'], 6⟩,
        ⟨.variable "ax", ['$', 'A', 'x'], 7⟩] ++ [.lineEnd 10]) := by cbv
  obtain ⟨tokens, hrow, -, -, hspelled, -⟩ := marks_partition h (.ofNat 7)
  obtain rfl := (List.map_inj_right fun _ _ heq => Mark.token.inj heq).mp
    (List.append_inj_left' hrow rfl)
  exact ⟨_, h, rfl, rfl, fun token htoken => (hspelled token htoken).2.2⟩

end Reckoner
