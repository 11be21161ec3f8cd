import Reckoner.Proofs.Settings.Number

/-!
# Texts, words and numbers in a document

The parts of a document that have no parts of their own. A text is read up to its closing quotation
mark (`readPoints_append`, `exists_isPoints`). Anything but a text and a bracket is a word or a
number (`readPlain_cases`); no word is the beginning of another one or of a number, so that it
does not matter that words are looked for first.

The reader carries a bound on what it leaves, which its recursion needs and nothing else does.
Statements about it are made without the bound (`unbounded`).
-/

namespace Reckoner.JsonValue

variable {cs digits rest tail : List Char} {room : ℕ} {fault : JsonFault}

/-! ## Texts -/

theorem readPoints_plain {c : Char} (no_control : 0x20 ≤ c.toNat) (ne_quote : c ≠ '"')
    (ne_backslash : c ≠ '\\') (rest : List Char) :
    readPoints (c :: rest)
      = (readPoints rest).map fun (points, after) => (c.toNat :: points, after) := by
  rw [readPoints, if_neg]
  · simpa using ⟨no_control, ne_backslash⟩
  · exact ne_quote
  · exact fun _ _ _ _ _ h => absurd h ne_backslash
  · exact fun _ _ h => absurd h ne_backslash

theorem readPoints_escaped {c e : Char} (means : escape? c = some e) (rest : List Char) :
    readPoints ('\\' :: c :: rest)
      = (readPoints rest).map fun (points, after) => (e.toNat :: points, after) := by
  rw [readPoints, means]
  rintro _ _ _ _ _ rfl
  cases means

theorem readPoints_quad {a b c d : Char} {n : ℕ} (means : hexQuad? a b c d = some n)
    (rest : List Char) :
    readPoints ('\\' :: 'u' :: a :: b :: c :: d :: rest)
      = (readPoints rest).map fun (points, after) => (n :: points, after) := by
  rw [readPoints, means]

/-- **A text is read up to its closing quotation mark.** -/
theorem readPoints_append {points : List ℕ} (h : IsPoints cs points) (rest : List Char) :
    readPoints (cs ++ '"' :: rest) = .ok (points, rest) := by
  induction h with
  | nil => rw [List.nil_append, readPoints]
  | cons first others ih =>
    rw [List.append_assoc]
    cases first with
    | plain no_control ne_quote ne_backslash =>
      exact (readPoints_plain no_control ne_quote ne_backslash _).trans (congrArg (Except.map _) ih)
    | escaped means => exact (readPoints_escaped means _).trans (congrArg (Except.map _) ih)
    | quad means => exact (readPoints_quad means _).trans (congrArg (Except.map _) ih)

/-- One code point more is read. -/
theorem exists_isPoints_cons {point : List Char} {after : List Char} {n : ℕ} {ns : List ℕ}
    (hpoint : IsPoint point n)
    (ih : ∀ {ns after}, readPoints cs = .ok (ns, after) →
      ∃ spelled, IsPoints spelled ns ∧ cs = spelled ++ '"' :: after)
    (h : ((readPoints cs).map fun (ns, after) => (n :: ns, after)) = .ok (ns, after)) :
    ∃ spelled, IsPoints spelled ns ∧ point ++ cs = spelled ++ '"' :: after := by
  obtain ⟨⟨others, _⟩, hread, heq⟩ := exists_of_map_eq_ok h
  obtain ⟨rfl, rfl⟩ := Prod.mk.inj heq
  obtain ⟨spelled, hspelled, rfl⟩ := ih hread
  exact ⟨point ++ spelled, .cons hpoint hspelled, (List.append_assoc _ _ _).symm⟩

/-- **What is read as a text** is spelled that way. -/
theorem exists_isPoints {points : List ℕ} {after : List Char}
    (h : readPoints cs = .ok (points, after)) :
    ∃ spelled, IsPoints spelled points ∧ cs = spelled ++ '"' :: after := by
  fun_induction readPoints cs generalizing points after with
  | case1 => cases h
  | case2 rest =>
    obtain ⟨rfl, rfl⟩ := Prod.mk.inj (Except.ok.inj h)
    exact ⟨[], .nil, rfl⟩
  | case3 a b c d rest n means ih => exact exists_isPoints_cons (.quad means) ih h
  | case4 => cases h
  | case5 c rest _ e means ih => exact exists_isPoints_cons (.escaped means) ih h
  | case6 => cases h
  | case7 => cases h
  | case8 c rest ne_quote _ _ hplain ih =>
    obtain ⟨no_control, ne_backslash⟩ : 0x20 ≤ c.toNat ∧ c ≠ '\\' := by simpa using hplain
    exact exists_isPoints_cons (.plain no_control ne_quote ne_backslash) ih h

/-- Every mistake in a text is one of the grammar. -/
theorem eq_malformed_of_readPoints (h : readPoints cs = .error fault) : fault = .malformed := by
  fun_induction readPoints cs with
  | case1 => exact (Except.error.inj h).symm
  | case2 rest => cases h
  | case3 a b c d rest n means ih => exact ih (of_map_eq_error h)
  | case4 => exact (Except.error.inj h).symm
  | case5 c rest _ e means ih => exact ih (of_map_eq_error h)
  | case6 => exact (Except.error.inj h).symm
  | case7 => exact (Except.error.inj h).symm
  | case8 c rest ne_quote _ _ hplain ih => exact ih (of_map_eq_error h)

/-! ## Words and numbers -/

/-- What was read, without the bound on what is left. -/
def unbounded {α : Type} {n : ℕ} (x : Except JsonFault (Part α n)) :
    Except JsonFault (α × List Char) :=
  x.map fun p => (p.value, p.rest)

theorem unbounded_readText {x : Except JsonFault (List ℕ × List Char)} (hx : readPoints cs = x) :
    unbounded (readText cs)
      = x.map fun (points, after) => ((charsOfPoints? points).map String.ofList, after) := by
  unfold readText
  split <;> next h =>
    obtain rfl := h.symm.trans hx
    rfl

/-- No word is the beginning of another one. -/
theorem find?_words {w : String × JsonValue} (mem : w ∈ words) (rest : List Char) :
    words.find? (fun w' => w'.1.toList.isPrefixOf (w.1.toList ++ rest)) = some w := by
  simp only [words, List.mem_cons, List.not_mem_nil, or_false] at mem
  rcases mem with rfl | rfl | rfl | rfl | rfl | rfl <;> rfl

/-- No word begins like a number. -/
theorem find?_words_eq_none (negative : Bool) {c : Char} (hc : c.isDigit = true)
    (rest : List Char) :
    words.find? (fun w => w.1.toList.isPrefixOf (minus negative ++ c :: rest)) = none := by
  have hne (d : Char) (hd : d.isDigit = false) : d ≠ c := (ne_of_isDigit hc hd).symm
  cases negative <;> simp [words, minus, hne]

/-- **A word is read whole.** -/
theorem unbounded_readPlain_word {w : String × JsonValue} (mem : w ∈ words) (rest : List Char) :
    unbounded (readPlain (w.1.toList ++ rest)) = .ok (w.2, rest) := by
  have hlt : ((w.1.toList ++ rest).drop w.1.toList.length).length
      < (w.1.toList ++ rest).length := by
    obtain ⟨c, more, heq, -⟩ := exists_cons_of_mem_words mem
    rw [List.drop_left, List.length_append, heq, List.length_cons]
    omega
  unfold readPlain
  rw [find?_words mem]
  dsimp only
  rw [dif_pos hlt]
  exact congrArg (fun after => Except.ok (w.2, after)) List.drop_left

/-- **What is not a word is read as a number**, with or without a minus sign. -/
theorem unbounded_readPlain_number {negative : Bool} {spelled : List Char}
    (hcs : cs = minus negative ++ spelled)
    (hword : words.find? (fun w => w.1.toList.isPrefixOf cs) = none)
    (hminus : negative = false → spelled.head? ≠ some '-') :
    unbounded (readPlain cs) = readNumber negative spelled := by
  -- the outcome is named, since the bounds in the reader speak of it
  obtain ⟨x, hx⟩ : ∃ x, readNumber negative spelled = x := ⟨_, rfl⟩
  rw [hx]
  unfold readPlain
  split
  · next heq => cases hword.symm.trans heq
  split
  · next digits _ =>
    cases negative with
    | false => exact absurd (congrArg List.head? hcs).symm (hminus rfl)
    | true =>
      obtain ⟨-, rfl⟩ := List.cons.inj hcs
      split <;> next h =>
        obtain rfl := h.symm.trans hx
        rfl
  · next hother =>
    cases negative with
    | true => exact absurd hcs (hother spelled)
    | false =>
      obtain rfl : cs = spelled := hcs
      split <;> next h =>
        obtain rfl := h.symm.trans hx
        rfl

/-- **A word or a number** is all that is read. -/
theorem readPlain_cases (cs : List Char) :
    (∃ w ∈ words, ∃ after, cs = w.1.toList ++ after
      ∧ unbounded (readPlain cs) = .ok (w.2, after))
    ∨ ∃ negative spelled, cs = minus negative ++ spelled
      ∧ unbounded (readPlain cs) = readNumber negative spelled := by
  cases hfind : words.find? fun w => w.1.toList.isPrefixOf cs with
  | some w =>
    have hprefix := List.find?_some hfind
    obtain ⟨after, rfl⟩ := List.isPrefixOf_iff_prefix.mp hprefix
    have hmem := List.mem_of_find?_eq_some hfind
    exact .inl ⟨w, hmem, after, rfl, unbounded_readPlain_word hmem after⟩
  | none =>
    by_cases hminus : cs.head? = some '-'
    · obtain ⟨spelled, rfl⟩ := List.head?_eq_some_iff.mp hminus
      exact .inr ⟨true, spelled, rfl, unbounded_readPlain_number rfl hfind nofun⟩
    · exact .inr ⟨false, cs, rfl, unbounded_readPlain_number rfl hfind fun _ => hminus⟩

theorem exists_spells_of_readPlain {v : JsonValue}
    (h : unbounded (readPlain cs) = .ok (v, rest)) :
    ∃ spelled, Spells room (.one .value) spelled v ∧ cs = spelled ++ rest := by
  obtain ⟨w, hmem, after, rfl, heq⟩ | ⟨negative, spelled, rfl, heq⟩ := readPlain_cases cs
  · obtain ⟨rfl, rfl⟩ := Prod.mk.inj (Except.ok.inj (heq.symm.trans h))
    exact ⟨_, .word hmem, rfl⟩
  · obtain ⟨number, hnumber, rfl⟩ := exists_spells_of_readNumber (heq.symm.trans h)
    exact ⟨_, hnumber, (List.append_assoc _ _ _).symm⟩

theorem stops_of_readPlain (h : unbounded (readPlain cs) = .error fault)
    (hfault : fault ≠ .malformed) : Stops fault room (.one .value) cs := by
  obtain ⟨w, hmem, after, rfl, heq⟩ | ⟨negative, spelled, rfl, heq⟩ := readPlain_cases cs
  · cases heq.symm.trans h
  · exact stops_of_readNumber (heq.symm.trans h) hfault

/-- **A number is read as far as it goes**, with its sign. -/
theorem unbounded_readPlain_append (negative : Bool) {ps es : List Char}
    {places : Option (List Char)} {exponent : Option ℤ} (hdigits : IsWhole digits)
    (hps : IsPlaces ps places) (hes : IsExponent es exponent) (htail : ¬ GoesOn tail) :
    unbounded (readPlain (minus negative ++ (digits ++ (ps ++ (es ++ tail)))))
      = (numberOf negative digits places exponent).map fun v => (v, tail) := by
  obtain ⟨c, more, hcons⟩ := List.exists_cons_of_ne_nil hdigits.ne_nil
  have hc : c.isDigit = true := hdigits.digits c (hcons ▸ List.mem_cons_self)
  have hword := find?_words_eq_none negative hc (more ++ (ps ++ (es ++ tail)))
  rw [← List.cons_append, ← hcons] at hword
  rw [unbounded_readPlain_number rfl hword, readNumber_append hdigits hps hes htail]
  rintro -
  rw [hcons]
  rintro ⟨⟩
  cases hc

end Reckoner.JsonValue
