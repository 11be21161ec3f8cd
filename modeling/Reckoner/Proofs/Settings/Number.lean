import Reckoner.Proofs.Outcome
import Reckoner.Proofs.Settings.Document

/-!
# Numbers in a document

A number is read in three parts, each as far as it goes: the digits before the point, the places
and the exponent. What each reader leaves is characterised from both sides. In front of what does
not go on with a number, the parts that are spelled are the parts that are read
(`readNumber_append`); and what is read is spelled that way (`exists_spells_of_readNumber`), or is
an integer of too many digits (`stops_of_readNumber`).
-/

namespace Reckoner.JsonValue

variable {cs digits rest tail : List Char} {room : ℕ} {fault : JsonFault}

/-! ## Rows of digits -/

/-- What follows a row of digits that is taken as far as it goes. -/
def EndsDigits (tail : List Char) : Prop := ∀ c ∈ tail.head?, c.isDigit = false

theorem spanDigits_append (h : IsDigits digits) (htail : EndsDigits tail) :
    spanDigits (digits ++ tail) = (digits, tail) := by
  rw [spanDigits, List.takeWhile_append_of_pos h, List.dropWhile_append_of_pos h]
  cases tail with
  | nil => rw [List.takeWhile_nil, List.dropWhile_nil, List.append_nil]
  | cons c tail =>
    have hc : ¬ c.isDigit = true := by
      rw [htail c rfl]
      exact Bool.false_ne_true
    rw [List.takeWhile_cons_of_neg hc, List.dropWhile_cons_of_neg hc, List.append_nil]

/-- **A row of digits** stands in front of any text, and ends where no digit follows. -/
theorem spanDigits_spec (cs : List Char) :
    IsDigits (spanDigits cs).1 ∧ EndsDigits (spanDigits cs).2
      ∧ cs = (spanDigits cs).1 ++ (spanDigits cs).2 := by
  refine ⟨fun c hc => List.mem_takeWhile_imp hc, fun c hc => ?_,
    List.takeWhile_append_dropWhile.symm⟩
  have := List.head?_dropWhile_not Char.isDigit cs
  rw [show (cs.dropWhile Char.isDigit).head? = some c from hc] at this
  exact this

theorem exists_digits {c : Char} (h : c.isDigit = true) (rest : List Char) :
    ∃ digits tail, c :: rest = digits ++ tail ∧ IsDigits digits ∧ digits ≠ []
      ∧ EndsDigits tail := by
  obtain ⟨hdigits, hends, heq⟩ := spanDigits_spec (c :: rest)
  refine ⟨_, _, heq, hdigits, ?_, hends⟩
  rw [spanDigits, List.takeWhile_cons_of_pos h]
  exact List.cons_ne_nil _ _

theorem exists_of_spanDigits_ne_nil (h : (spanDigits cs).1 ≠ []) :
    ∃ c rest, c.isDigit = true ∧ cs = c :: rest := by
  obtain ⟨hdigits, -, heq⟩ := spanDigits_spec cs
  obtain ⟨c, digits, hcons⟩ := List.exists_cons_of_ne_nil h
  rw [hcons] at hdigits heq
  exact ⟨c, _, (isDigits_cons.mp hdigits).1, heq⟩

theorem endsDigits_of_not_goesOn (h : ¬ GoesOn tail) : EndsDigits tail := by
  intro c hc
  obtain ⟨rest, rfl⟩ := List.head?_eq_some_iff.mp hc
  exact Bool.eq_false_of_not_eq_true fun hdigit => h (.digit hdigit)

/-! ## Before the point -/

theorem head?_append_of_ne_nil (h : cs ≠ []) (tail : List Char) :
    (cs ++ tail).head? = cs.head? := by
  obtain ⟨c, cs, rfl⟩ := List.exists_cons_of_ne_nil h
  rfl

/-- A lone zero is read by itself. -/
theorem readWhole?_zero (rest : List Char) : readWhole? ('0' :: rest) = some (['0'], rest) := rfl

/-- Digits that do not begin with a zero are read as far as they go. -/
theorem readWhole?_of_head_ne (h : cs.head? ≠ some '0') :
    readWhole? cs = if (spanDigits cs).1.isEmpty then none else some (spanDigits cs) := by
  unfold readWhole?
  split
  · exact absurd rfl h
  · rfl

theorem readWhole?_append (h : IsWhole digits) (htail : EndsDigits tail) :
    readWhole? (digits ++ tail) = some (digits, tail) := by
  by_cases hzero : digits.head? = some '0'
  · rw [h.eq_zero_of_head hzero]
    exact readWhole?_zero tail
  · have hhead : (digits ++ tail).head? ≠ some '0' := by
      rwa [head?_append_of_ne_nil h.ne_nil]
    rw [readWhole?_of_head_ne hhead, spanDigits_append h.digits htail]
    exact if_neg (by rw [List.isEmpty_iff]; exact h.ne_nil)

/-- **What is read before the point** has no zero in front of others. -/
theorem isWhole_of_readWhole? (h : readWhole? cs = some (digits, tail)) :
    IsWhole digits ∧ cs = digits ++ tail ∧ (digits ≠ ['0'] → EndsDigits tail) := by
  by_cases hzero : cs.head? = some '0'
  · obtain ⟨rest, rfl⟩ := List.head?_eq_some_iff.mp hzero
    obtain ⟨rfl, rfl⟩ := Prod.mk.inj (Option.some.inj ((readWhole?_zero rest).symm.trans h))
    exact ⟨isWhole_digitChars 0, rfl, fun hne => absurd rfl hne⟩
  · obtain ⟨hdigits, hends, heq⟩ := spanDigits_spec cs
    rw [readWhole?_of_head_ne hzero] at h
    split at h
    · cases h
    · next hne =>
      rw [List.isEmpty_iff] at hne
      rw [Option.some.inj h] at hdigits hends heq hne
      refine ⟨⟨hdigits, hne, fun hhead => absurd ?_ hzero⟩, heq, fun _ => hends⟩
      rwa [heq, head?_append_of_ne_nil hne]

/-! ## Behind the point -/

theorem readPlaces_eq_none (h : ∀ c rest, c.isDigit = true → cs ≠ '.' :: c :: rest) :
    readPlaces cs = (none, cs) := by
  unfold readPlaces
  split
  · next rest =>
    dsimp only
    split
    · rfl
    · next hne =>
      rw [List.isEmpty_iff] at hne
      obtain ⟨c, after, hdigit, rfl⟩ := exists_of_spanDigits_ne_nil hne
      exact absurd rfl (h c after hdigit)
  · rfl

theorem readPlaces_point (h : IsDigits digits) (hne : digits ≠ []) (htail : EndsDigits tail) :
    readPlaces ('.' :: (digits ++ tail)) = (some digits, tail) := by
  rw [readPlaces, spanDigits_append h htail]
  exact if_neg (by rwa [List.isEmpty_iff])

/-- **What is read behind a whole number** are places, if there are any. -/
theorem exists_isPlaces (cs : List Char) :
    ∃ ps, IsPlaces ps (readPlaces cs).1 ∧ cs = ps ++ (readPlaces cs).2 := by
  unfold readPlaces
  split
  · next rest =>
    dsimp only
    split
    · exact ⟨[], .none, rfl⟩
    · next hne =>
      obtain ⟨hdigits, -, heq⟩ := spanDigits_spec rest
      exact ⟨_, .some hdigits (by rwa [List.isEmpty_iff] at hne), congrArg (List.cons '.') heq⟩
  · exact ⟨[], .none, rfl⟩

/-! ## Exponents -/

theorem exists_isSign (cs : List Char) :
    ∃ sign, IsSign sign (readSign cs).1 ∧ cs = sign ++ (readSign cs).2 := by
  unfold readSign
  split
  · exact ⟨_, .minus, rfl⟩
  · exact ⟨_, .plus, rfl⟩
  · exact ⟨_, .none, rfl⟩

theorem readSign_append {sign : List Char} {negative : Bool} (h : IsSign sign negative) {c : Char}
    (hc : c.isDigit = true) (rest : List Char) :
    readSign (sign ++ c :: rest) = (negative, c :: rest) := by
  cases h with
  | none =>
    rw [List.nil_append, readSign]
    · rintro _ ⟨rfl, -⟩
      cases hc
    · rintro _ ⟨rfl, -⟩
      cases hc
  | plus => rfl
  | minus => rfl

theorem readExponent_eq_none (h : ¬ GoesOn cs) : readExponent cs = (none, cs) := by
  unfold readExponent
  split
  · rfl
  · next mark rest =>
    split
    · next hmark =>
      obtain ⟨sign, hsign, heq⟩ := exists_isSign rest
      dsimp only
      split
      · rfl
      · next hne =>
        rw [List.isEmpty_iff] at hne
        obtain ⟨c, after, hdigit, hcons⟩ := exists_of_spanDigits_ne_nil hne
        rw [heq, hcons] at h
        exact absurd (.exponent (by simpa using hmark) hsign hdigit) h
    · rfl

theorem readExponent_mark {mark : Char} {sign : List Char} {negative : Bool}
    (hmark : mark = 'e' ∨ mark = 'E') (hsign : IsSign sign negative) (h : IsDigits digits)
    (hne : digits ≠ []) (htail : EndsDigits tail) :
    readExponent (mark :: (sign ++ (digits ++ tail)))
      = (some (signed negative (digitsValue digits)), tail) := by
  obtain ⟨c, digits, rfl⟩ := List.exists_cons_of_ne_nil hne
  unfold readExponent
  dsimp only
  rw [if_pos (by simpa using hmark), List.cons_append,
    readSign_append hsign (isDigits_cons.mp h).1, ← List.cons_append]
  dsimp only
  rw [spanDigits_append h htail]
  rfl

/-- **What is read behind the places** is an exponent, if there is one. -/
theorem exists_isExponent (cs : List Char) :
    ∃ es, IsExponent es (readExponent cs).1 ∧ cs = es ++ (readExponent cs).2 := by
  unfold readExponent
  split
  · exact ⟨[], .none, rfl⟩
  · next mark rest =>
    split
    · next hmark =>
      obtain ⟨sign, hsign, heq⟩ := exists_isSign rest
      obtain ⟨hdigits, -, hsplit⟩ := spanDigits_spec (readSign rest).2
      dsimp only
      split
      · exact ⟨[], .none, rfl⟩
      · next hne =>
        rw [List.isEmpty_iff] at hne
        refine ⟨_, .some (by simpa using hmark) hsign hdigits hne, ?_⟩
        rw [List.cons_append, List.append_assoc, ← hsplit, ← heq]
    · exact ⟨[], .none, rfl⟩

/-- **Nothing goes on with a number** if no digit, no places and no exponent are read. -/
theorem not_goesOn (hends : EndsDigits cs) (hplaces : (readPlaces cs).1 = none)
    (hexponent : (readExponent (readPlaces cs).2).1 = none) : ¬ GoesOn cs := by
  rintro (@⟨c, rest, hc⟩ | @⟨c, rest, hc⟩ | @⟨mark, c, sign, rest, negative, hmark, hsign, hc⟩)
  · exact Bool.false_ne_true ((hends c rfl).symm.trans hc)
  · obtain ⟨digits, tail, heq, hdigits, hne, htail⟩ := exists_digits hc rest
    rw [heq, readPlaces_point hdigits hne htail] at hplaces
    cases hplaces
  · obtain ⟨digits, tail, heq, hdigits, hne, htail⟩ := exists_digits hc rest
    have hnone : readPlaces (mark :: (sign ++ c :: rest))
        = (none, mark :: (sign ++ c :: rest)) := by
      refine readPlaces_eq_none fun d after _ hpoint => ?_
      obtain ⟨rfl, -⟩ := List.cons.inj hpoint
      rcases hmark with h | h <;> cases h
    rw [hnone, heq, readExponent_mark hmark hsign hdigits hne htail] at hexponent
    cases hexponent

/-! ## Numbers -/

section Number

variable {negative : Bool} {ps es : List Char} {places : Option (List Char)} {exponent : Option ℤ}

theorem IsExponent.endsDigits_append (h : IsExponent es exponent) (htail : ¬ GoesOn tail) :
    EndsDigits (es ++ tail) := by
  cases h with
  | none => exact endsDigits_of_not_goesOn htail
  | some is_mark =>
    rintro c ⟨⟩
    rcases is_mark with rfl | rfl <;> rfl

theorem IsPlaces.endsDigits_append (h : IsPlaces ps places) (htail : EndsDigits tail) :
    EndsDigits (ps ++ tail) := by
  cases h with
  | none => exact htail
  | some =>
    rintro c ⟨⟩
    rfl

theorem IsExponent.readExponent_append (h : IsExponent es exponent) (htail : ¬ GoesOn tail) :
    readExponent (es ++ tail) = (exponent, tail) := by
  cases h with
  | none => exact readExponent_eq_none htail
  | some is_mark is_sign are_digits ne_nil =>
    rw [List.cons_append, List.append_assoc]
    exact readExponent_mark is_mark is_sign are_digits ne_nil (endsDigits_of_not_goesOn htail)

theorem IsPlaces.readPlaces_append (h : IsPlaces ps places) (hes : IsExponent es exponent)
    (htail : ¬ GoesOn tail) : readPlaces (ps ++ (es ++ tail)) = (places, es ++ tail) := by
  cases h with
  | none =>
    refine readPlaces_eq_none fun c rest hc heq => ?_
    cases hes with
    | none => exact htail (by rw [show tail = _ from heq]; exact .places hc)
    | some is_mark =>
      obtain ⟨rfl, -⟩ := List.cons.inj heq
      rcases is_mark with h | h <;> cases h
  | some are_digits ne_nil => exact readPlaces_point are_digits ne_nil (hes.endsDigits_append htail)

/-- The value of a number with given digits, places and exponent. -/
def numberOf (negative : Bool) (digits : List Char) (places : Option (List Char))
    (exponent : Option ℤ) : Except JsonFault JsonValue :=
  match places, exponent with
  | none, none =>
    if maxIntegerDigits < digits.length then .error .longInteger
    else .ok (.integer (signed negative (digitsValue digits)))
  | _, _ => .ok (.fraction (.finite ⟨negative, digitsValue (digits ++ places.getD []),
      exponent.getD 0 - (places.getD []).length⟩))

theorem numberOf_of_isSome (h : places.isSome ∨ exponent.isSome) :
    numberOf negative digits places exponent
      = .ok (.fraction (.finite ⟨negative, digitsValue (digits ++ places.getD []),
          exponent.getD 0 - (places.getD []).length⟩)) := by
  unfold numberOf
  split
  · rcases h with h | h <;> cases h
  · rfl

/-- **A number with its value is spelled** as the grammar says. -/
theorem spells_of_numberOf {v : JsonValue} (hdigits : IsWhole digits) (hps : IsPlaces ps places)
    (hes : IsExponent es exponent) (h : numberOf negative digits places exponent = .ok v) :
    Spells room (.one .value) (minus negative ++ (digits ++ (ps ++ es))) v := by
  by_cases hsome : places.isSome ∨ exponent.isSome
  · obtain rfl : _ = v := Except.ok.inj ((numberOf_of_isSome hsome).symm.trans h)
    exact .fraction negative hdigits hps hes hsome
  · cases hps with
    | some => exact absurd (.inl rfl) hsome
    | none =>
      cases hes with
      | some => exact absurd (.inr rfl) hsome
      | none =>
        unfold numberOf at h
        dsimp only at h
        split at h
        · cases h
        · next hle =>
          obtain rfl := Except.ok.inj h
          rw [List.append_nil, List.append_nil]
          exact .integer negative hdigits (Nat.not_lt.mp hle)

theorem of_numberOf_eq_error (h : numberOf negative digits places exponent = .error fault) :
    fault = .longInteger ∧ places = none ∧ exponent = none
      ∧ maxIntegerDigits < digits.length := by
  unfold numberOf at h
  split at h
  · split at h
    · next hlt => exact ⟨(Except.error.inj h).symm, rfl, rfl, hlt⟩
    · cases h
  · cases h

/-- **A number is read in three parts.** -/
theorem readNumber_eq (hwhole : readWhole? cs = some (digits, tail)) :
    readNumber negative cs
      = (numberOf negative digits (readPlaces tail).1 (readExponent (readPlaces tail).2).1).map
          fun v => (v, (readExponent (readPlaces tail).2).2) := by
  rw [readNumber, hwhole]
  dsimp only
  rcases readPlaces tail with ⟨places, rest⟩
  rcases readExponent rest with ⟨exponent, rest⟩
  unfold numberOf
  cases places with
  | some => rfl
  | none =>
    cases exponent with
    | some => rfl
    | none =>
      dsimp only
      split <;> rfl

/-- **A number is read as far as it goes.** -/
theorem readNumber_append (hdigits : IsWhole digits) (hps : IsPlaces ps places)
    (hes : IsExponent es exponent) (htail : ¬ GoesOn tail) :
    readNumber negative (digits ++ (ps ++ (es ++ tail)))
      = (numberOf negative digits places exponent).map fun v => (v, tail) := by
  rw [readNumber_eq
      (readWhole?_append hdigits (hps.endsDigits_append (hes.endsDigits_append htail))),
    hps.readPlaces_append hes htail, hes.readExponent_append htail]

/-- **What is read as a number** is spelled that way. -/
theorem exists_spells_of_readNumber {v : JsonValue} (h : readNumber negative cs = .ok (v, rest)) :
    ∃ spelled, Spells room (.one .value) (minus negative ++ spelled) v ∧ cs = spelled ++ rest := by
  cases hwhole : readWhole? cs with
  | none =>
    rw [readNumber, hwhole] at h
    cases h
  | some parts =>
    obtain ⟨digits, tail⟩ := parts
    rw [readNumber_eq hwhole] at h
    obtain ⟨v, hv, heq⟩ := exists_of_map_eq_ok h
    obtain ⟨rfl, rfl⟩ := Prod.mk.inj heq
    obtain ⟨hdigits, rfl, -⟩ := isWhole_of_readWhole? hwhole
    obtain ⟨ps, hps, hplaces⟩ := exists_isPlaces tail
    obtain ⟨es, hes, hexponent⟩ := exists_isExponent (readPlaces tail).2
    refine ⟨_, spells_of_numberOf hdigits hps hes hv, ?_⟩
    rw [List.append_assoc, List.append_assoc, ← hexponent, ← hplaces]

/-- A number that is well formed and cannot be read is an integer of too many digits. -/
theorem stops_of_readNumber (h : readNumber negative cs = .error fault)
    (hfault : fault ≠ .malformed) :
    Stops fault room (.one .value) (minus negative ++ cs) := by
  cases hwhole : readWhole? cs with
  | none =>
    rw [readNumber, hwhole] at h
    exact absurd (Except.error.inj h).symm hfault
  | some parts =>
    obtain ⟨digits, tail⟩ := parts
    rw [readNumber_eq hwhole] at h
    obtain ⟨rfl, hplaces, hexponent, hlt⟩ := of_numberOf_eq_error (of_map_eq_error h)
    obtain ⟨hdigits, rfl, hends⟩ := isWhole_of_readWhole? hwhole
    have hends : EndsDigits tail := hends fun hzero => by
      rw [hzero] at hlt
      exact absurd hlt (by decide)
    exact .integer negative hdigits hlt (not_goesOn hends hplaces hexponent)

end Number

end Reckoner.JsonValue
