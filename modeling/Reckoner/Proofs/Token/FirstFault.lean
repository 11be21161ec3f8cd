import Reckoner.Proofs.Token.Append
import Reckoner.Proofs.Token.Blame

/-!
# The first place where a line has no token

A line that cannot be cut into tokens is blamed on one place, and what stands behind this
place has no part in it. A token is the longest one there is, but which one is longest is
decided by the first character that does not go on with it (`lexemeAt_take_append`). So the
tokens before the blamed character are there whatever follows it, and also where the line
ends before it (`exists_before_of_tokensFrom`).

The character itself is blamed for good, unless it is a point: a point begins a number as
soon as a digit stands behind it (`lexemeAt_eq_error`).

`tokenize_eq_error_spec` puts the two together: up to the blamed place the line has tokens,
and no line that goes on in another way behind it has any.
-/

namespace Reckoner

open Unicode (isBlank isDecimal isWordChar)

variable {left : Left} {c : Char} {cs tail text : List Char} {lexeme : Lexeme} {more : ℕ}
  {position : ℕ} {cause : Cause} {fault : Fault}

/-! ## One token, and another text behind it -/

/-- **A text that begins as another one does**, or is empty. -/
def BeginsAs (tail cs : List Char) : Prop := ∀ d ∈ tail.head?, cs.head? = some d

theorem beginsAs_nil (cs : List Char) : BeginsAs [] cs := nofun

/-- **A run is as long as before** if what stands behind it begins as before. -/
theorem takeWhile_takeWhile_append {p : Char → Bool} (h : BeginsAs tail (cs.dropWhile p)) :
    (cs.takeWhile p ++ tail).takeWhile p = cs.takeWhile p
      ∧ (cs.takeWhile p ++ tail).dropWhile p = tail := by
  have hrun : ∀ d ∈ cs.takeWhile p, p d = true := fun d hd => List.mem_takeWhile_imp hd
  rw [List.takeWhile_append_of_pos hrun, List.dropWhile_append_of_pos hrun]
  cases tail with
  | nil => exact ⟨List.append_nil _, rfl⟩
  | cons d tail =>
    have hstops := List.head?_dropWhile_not p cs
    rw [h d rfl] at hstops
    rw [List.takeWhile_cons_of_neg (by simpa using hstops),
      List.dropWhile_cons_of_neg (by simpa using hstops)]
    exact ⟨List.append_nil _, rfl⟩

theorem numeralAt_take_append (h : numeralAt c cs = .ok (lexeme, more))
    (htail : BeginsAs tail (cs.drop more)) :
    numeralAt c (cs.take more ++ tail) = .ok (lexeme, more) := by
  unfold numeralAt at h ⊢
  split at h
  · next hpoint =>
    rw [if_pos hpoint]
    dsimp only at h ⊢
    split at h
    · cases h
    · next hplaces =>
      obtain ⟨rfl, rfl⟩ := Prod.mk.inj (Except.ok.inj h)
      rw [drop_length_takeWhile] at htail
      rw [take_length_takeWhile, (takeWhile_takeWhile_append htail).1, if_neg hplaces]
  · next hpoint =>
    rw [if_neg hpoint]
    dsimp only at h ⊢
    split at h
    · next rest hrest =>
      obtain ⟨rfl, rfl⟩ := Prod.mk.inj (Except.ok.inj h)
      set digits := cs.takeWhile isDecimal with hdigits
      have hcs : cs = digits ++ '.' :: rest := by
        rw [← hrest, hdigits, List.takeWhile_append_dropWhile]
      have htake : cs.take (digits.length + 1 + (rest.takeWhile isDecimal).length)
          = digits ++ '.' :: rest.takeWhile isDecimal := by
        rw [hcs, Nat.add_assoc, List.take_length_add_append, Nat.add_comm 1, List.take_succ_cons,
          take_length_takeWhile]
      have hdrop : cs.drop (digits.length + 1 + (rest.takeWhile isDecimal).length)
          = rest.dropWhile isDecimal := by
        rw [hcs, Nat.add_assoc, List.drop_length_add_append, Nat.add_comm 1, List.drop_succ_cons,
          drop_length_takeWhile]
      rw [hdrop] at htail
      have hpoint : BeginsAs ('.' :: (rest.takeWhile isDecimal ++ tail))
          (cs.dropWhile isDecimal) := by
        rintro _ ⟨⟩
        rw [hrest]
        rfl
      obtain ⟨hrun, hleft⟩ := takeWhile_takeWhile_append hpoint
      rw [htake, List.append_assoc, List.cons_append, hrun, hleft]
      simp only [(takeWhile_takeWhile_append htail).1]
      rfl
    · next hrest =>
      obtain ⟨rfl, rfl⟩ := Prod.mk.inj (Except.ok.inj h)
      rw [drop_length_takeWhile] at htail
      obtain ⟨hrun, hleft⟩ := takeWhile_takeWhile_append htail
      rw [take_length_takeWhile, hrun, hleft]
      split
      · next tail' =>
        -- the digits were not followed by a point before
        obtain ⟨rest, hpoint⟩ := List.head?_eq_some_iff.mp (htail '.' rfl)
        exact absurd hpoint (hrest rest)
      · rfl

/-- **A token is the same one** where another text stands behind it that begins as before, or
none at all. -/
theorem lexemeAt_take_append (h : lexemeAt left c cs = .ok (lexeme, more))
    (htail : BeginsAs tail (cs.drop more)) :
    lexemeAt left c (cs.take more ++ tail) = .ok (lexeme, more) := by
  refine Cut.lexemeAt_eq ?_
  cases cut_of_lexemeAt h with
  | numeral starts numeralAt_eq => exact .numeral starts (numeralAt_take_append numeralAt_eq htail)
  | operator symbol_eq => exact .operator symbol_eq
  | times isTimes multiplies => exact .times isTimes multiplies
  | opening eq_opening => exact .opening eq_opening
  | closing eq_closing => exact .closing eq_closing
  | dollar eq_dollar =>
    rw [drop_length_takeWhile] at htail
    rw [take_length_takeWhile]
    have hcut : Cut left c (cs.takeWhile isWordChar ++ tail) _ _ := .dollar eq_dollar
    rwa [(takeWhile_takeWhile_append htail).1] at hcut
  | bare isLetter not_decimal not_times =>
    rw [drop_length_takeWhile] at htail
    rw [take_length_takeWhile]
    have hcut : Cut left c (cs.takeWhile isBareChar ++ tail) _ _ :=
      .bare isLetter not_decimal not_times
    rwa [(takeWhile_takeWhile_append htail).1] at hcut

/-! ## The place that is blamed -/

/-- **A character is blamed for good**, unless it is a point and a digit stands behind it. -/
theorem lexemeAt_eq_error (h : lexemeAt left c cs = .error cause)
    (htail : cause = .invalidNumber → ∀ d ∈ tail.head?, isDecimal d = false) :
    lexemeAt left c tail = .error cause := by
  unfold lexemeAt numeralAt at h ⊢
  split at h
  · next hnumber =>
    rw [if_pos hnumber]
    split at h
    · next hpoint =>
      rw [if_pos hpoint]
      dsimp only at h ⊢
      split at h
      · obtain rfl := Except.error.inj h
        have hnone : tail.takeWhile isDecimal = [] := by
          cases tail with
          | nil => rfl
          | cons d tail => rw [List.takeWhile_cons, htail rfl d rfl, if_neg Bool.false_ne_true]
        rw [hnone]
        rfl
      · cases h
    · dsimp only at h
      split at h <;> cases h
  · next hnumber =>
    rw [if_neg hnumber]
    split at h
    · cases h
    · split_ifs at h ⊢
      exact h

/-- **The tokens before the place that is blamed** are there whatever else stands behind it, and
also where the line ends before it. -/
theorem exists_before_of_tokensFrom (h : tokensFrom position left cs = .error fault) :
    ∃ before c after left' cause, cs = before ++ c :: after
      ∧ fault = .lexing cause (position + before.length)
      ∧ isBlank c = false ∧ lexemeAt left' c after = .error cause
      ∧ ∃ tokens, ∀ tail, BeginsAs tail [c] → tokensFrom position left (before ++ tail)
        = (tokensFrom (position + before.length) left' tail).map (tokens ++ ·) := by
  fun_induction tokensFrom position left cs with
  | case1 position left => cases h
  | case2 position left c cs hblank ih =>
    obtain ⟨before, d, after, left', cause, rfl, rfl, hd, hcause, tokens, htokens⟩ := ih h
    have hposition : position + 1 + before.length = position + (c :: before).length := by
      rw [List.length_cons]
      omega
    rw [hposition] at htokens ⊢
    refine ⟨c :: before, d, after, left', cause, rfl, rfl, hd, hcause, tokens, fun tail htail => ?_⟩
    rw [List.cons_append, tokensFrom, if_pos hblank, htokens tail htail]
  | case3 position left c cs hblank cause hlexeme =>
    obtain rfl := Except.error.inj h
    refine ⟨[], c, cs, left, cause, rfl, rfl, Bool.eq_false_of_not_eq_true hblank, hlexeme, [],
      fun tail htail => ?_⟩
    exact (congrFun Except.map_id _).symm
  | case4 position left c cs hblank lexeme more hlexeme spelling next =>
    rename_i ih
    obtain ⟨before, d, after, left', cause, hdrop, rfl, hd, hcause, tokens, htokens⟩ :=
      ih (of_map_eq_error h)
    obtain ⟨hmore, -⟩ := isSpelled_of_lexemeAt (.ofNat 0) hlexeme
    have htake : (cs.take more).length = more := List.length_take_of_le hmore
    have hposition : position + more + 1 + before.length
        = position + (spelling ++ before).length := by
      rw [List.length_append, List.length_cons, htake]
      omega
    rw [hposition] at htokens ⊢
    refine ⟨spelling ++ before, d, after, left', cause, ?_, rfl, hd, hcause,
      ⟨lexeme, spelling, position⟩ :: tokens, fun tail htail => ?_⟩
    · rw [List.append_assoc, ← hdrop, List.cons_append, List.take_append_drop]
    · have hbegins : BeginsAs (before ++ tail) (cs.drop more) := by
        rw [hdrop]
        cases before with
        | nil => exact htail
        | cons b before => exact fun _ hb => hb
      have hlexeme := lexemeAt_take_append hlexeme hbegins
      rw [List.append_assoc, List.cons_append, tokensFrom, if_neg hblank, hlexeme]
      dsimp only
      rw [List.take_left' htake, List.drop_left' htake, htokens tail htail]
      cases tokensFrom (position + (spelling ++ before).length) left' tail <;> rfl

/-! ## Lines -/

/-- **The first place where a line has no token.** A line that cannot be cut into tokens is
blamed on one of its characters, and has tokens up to it. Either no token starts with the
character, and then every line that is the same up to and including it is blamed in the same
way; or it is a point, and then every such line is that has no digit right behind the point. -/
theorem tokenize_eq_error_spec (h : tokenize text = .error fault) :
    fault.position < text.length
      ∧ (∃ tokens, tokenize (text.take fault.position) = .ok tokens)
      ∧ ((∃ c, text[fault.position]? = some c
          ∧ fault = .lexing (.unexpectedCharacter c.toString) fault.position
          ∧ ∀ tail, tokenize (text.take (fault.position + 1) ++ tail) = .error fault)
        ∨ text[fault.position]? = some '.' ∧ fault = .lexing .invalidNumber fault.position
          ∧ ∀ tail, (∀ d ∈ tail.head?, isDecimal d = false) →
            tokenize (text.take (fault.position + 1) ++ tail) = .error fault) := by
  obtain ⟨before, c, after, left, cause, rfl, hfault, hblank, hcause, tokens, htokens⟩ :=
    exists_before_of_tokensFrom h
  rw [Nat.zero_add] at hfault htokens
  obtain rfl := hfault
  have hposition : (Fault.lexing cause before.length).position = before.length := rfl
  have hc : (before ++ c :: after)[before.length]? = some c := by
    rw [List.getElem?_append_right le_rfl, Nat.sub_self]
    rfl
  have htake : (before ++ c :: after).take (before.length + 1) = before ++ [c] := by
    rw [List.take_length_add_append]
    rfl
  -- the character is blamed in every line in which no token starts with it
  have hblamed {tail : List Char} (hlexeme : lexemeAt left c tail = .error cause) :
      tokenize (before ++ [c] ++ tail) = .error (.lexing cause before.length) := by
    have hbegins : BeginsAs (c :: tail) [c] := by
      rintro _ ⟨⟩
      rfl
    rw [List.append_assoc, tokenize, List.singleton_append, htokens _ hbegins, tokensFrom,
      hblank, if_neg Bool.false_ne_true, hlexeme]
    rfl
  rw [hposition, hc, htake]
  refine ⟨?_, ⟨tokens, ?_⟩, ?_⟩
  · rw [List.length_append, List.length_cons]
    omega
  · have hend := htokens [] (beginsAs_nil _)
    rw [List.append_nil, tokensFrom] at hend
    rw [List.take_left, tokenize, hend]
    exact congrArg Except.ok (List.append_nil tokens)
  · obtain rfl | ⟨rfl, rfl⟩ := cause_of_lexemeAt hcause
    · refine .inl ⟨c, rfl, rfl, fun tail => hblamed (lexemeAt_eq_error hcause fun hpoint => ?_)⟩
      cases hpoint
    · exact .inr ⟨rfl, rfl, fun tail htail =>
        hblamed (lexemeAt_eq_error hcause fun _ => htail)⟩

/-- Two points behind a product: the second one is no part of a number, and the first one is none
without it. -/
theorem tokenize_two_points :
    tokenize "2x..5".toList = .error (.lexing .invalidNumber 2)
      ∧ (∃ tokens, tokenize "2x".toList = .ok tokens)
      ∧ ∀ tail, (∀ d ∈ tail.head?, isDecimal d = false) →
        tokenize ("2x.".toList ++ tail) = .error (.lexing .invalidNumber 2) := by
  have h : tokenize "2x..5".toList = .error (.lexing .invalidNumber 2) := by cbv
  obtain ⟨-, hbefore, ⟨c, -, hfault, -⟩ | ⟨-, -, htail⟩⟩ := tokenize_eq_error_spec h
  · cases hfault
  · exact ⟨h, hbefore, htail⟩

end Reckoner
