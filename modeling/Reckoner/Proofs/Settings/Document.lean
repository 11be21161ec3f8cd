import Mathlib.Data.List.TakeWhile
import Mathlib.Tactic.Common
import Reckoner.Proofs.Decimal.DigitText
import Reckoner.Settings.Json

/-!
# The grammar of documents

What a document may look like, without saying how it is read:

* document: `gap value gap`,
* value: `text | word | integer | fraction | '[' gap ']' | '[' gap values gap ']'`, and the same
  with braces and members,
* member: `text gap ':' gap value`,
* row of values, or of members: `one (gap ',' gap one)*`.

Arrays and objects are one production, of which an `Element` tells the brackets and what stands
between them. `Spells` says which characters spell which values, in a given room: there must be
room for a pair of brackets, and between them there is less.

Two faults are not in the grammar of a document but stop the reader in its midst. A number without
a point and an exponent is an integer and must not have more than `maxIntegerDigits` digits; and
where there is no room left, no bracket may be opened. `Stops` says where they stop it: everything
up to such a place is as in the grammar, and what follows it may be anything (that does not go on
with the number).
-/

namespace Reckoner.JsonValue

/-! ## Gaps -/

/-- **Blanks between values**, any number of them. -/
def IsGap (cs : List Char) : Prop := ∀ c ∈ cs, isGap c = true

instance (cs : List Char) : Decidable (IsGap cs) := List.decidableBAll _ cs

theorem isGap_nil : IsGap [] := nofun

theorem skipGap_append {gap : List Char} (h : IsGap gap) (cs : List Char) :
    skipGap (gap ++ cs) = skipGap cs :=
  List.dropWhile_append_of_pos h

theorem skipGap_cons {c : Char} (h : isGap c = false) (cs : List Char) :
    skipGap (c :: cs) = c :: cs :=
  List.dropWhile_cons_of_neg (by rw [h]; exact Bool.false_ne_true)

/-- **Skipping takes a gap.** -/
theorem exists_gap (cs : List Char) : ∃ gap, IsGap gap ∧ cs = gap ++ skipGap cs :=
  ⟨cs.takeWhile isGap, fun _ hc => List.mem_takeWhile_imp hc, List.takeWhile_append_dropWhile.symm⟩

theorem skipGap_eq_nil_iff {cs : List Char} : skipGap cs = [] ↔ IsGap cs :=
  List.dropWhile_eq_nil_iff

/-! ## Texts -/

/-- **The spelling of one code point** of a text. -/
inductive IsPoint : List Char → ℕ → Prop
  /-- A character that stands for itself. -/
  | plain {c : Char} (no_control : 0x20 ≤ c.toNat) (ne_quote : c ≠ '"') (ne_backslash : c ≠ '\\') :
      IsPoint [c] c.toNat
  /-- A character behind a backslash. -/
  | escaped {c e : Char} (means : escape? c = some e) : IsPoint ['\\', c] e.toNat
  /-- Four hexadecimal digits. -/
  | quad {a b c d : Char} {n : ℕ} (means : hexQuad? a b c d = some n) :
      IsPoint ['\\', 'u', a, b, c, d] n

/-- The spelling of any number of code points. -/
inductive IsPoints : List Char → List ℕ → Prop
  | nil : IsPoints [] []
  | cons {point cs : List Char} {n : ℕ} {ns : List ℕ} (first : IsPoint point n)
      (others : IsPoints cs ns) : IsPoints (point ++ cs) (n :: ns)

/-- **A text** between its quotation marks. It has no value if half of a surrogate pair stands
alone in it. -/
inductive IsText : List Char → Option String → Prop
  | quoted {cs : List Char} {points : List ℕ} (spelled : IsPoints cs points) :
      IsText ('"' :: (cs ++ ['"'])) ((charsOfPoints? points).map String.ofList)

/-! ## Numbers -/

/-- The minus sign of a negative number. -/
def minus (negative : Bool) : List Char := if negative then ['-'] else []

/-- An integer with its sign. -/
def signed (negative : Bool) (n : ℕ) : ℤ := if negative then -n else n

/-- **The places of a number**, if it has any: a point and digits. -/
inductive IsPlaces : List Char → Option (List Char) → Prop
  | none : IsPlaces [] none
  | some {digits : List Char} (are_digits : IsDigits digits) (ne_nil : digits ≠ []) :
      IsPlaces ('.' :: digits) (some digits)

/-- The sign of an exponent, and whether it is negative. -/
inductive IsSign : List Char → Bool → Prop
  | none : IsSign [] false
  | plus : IsSign ['+'] false
  | minus : IsSign ['-'] true

/-- **The exponent of a number**, if it has one: a mark, a sign and digits. -/
inductive IsExponent : List Char → Option ℤ → Prop
  | none : IsExponent [] none
  | some {mark : Char} {sign digits : List Char} {negative : Bool}
      (is_mark : mark = 'e' ∨ mark = 'E') (is_sign : IsSign sign negative)
      (are_digits : IsDigits digits) (ne_nil : digits ≠ []) :
      IsExponent (mark :: (sign ++ digits)) (some (signed negative (digitsValue digits)))

/-- **What goes on with a number**: one more digit, or the beginning of places or of an
exponent. -/
inductive GoesOn : List Char → Prop
  | digit {c : Char} {rest : List Char} (is_digit : c.isDigit = true) : GoesOn (c :: rest)
  | places {c : Char} {rest : List Char} (is_digit : c.isDigit = true) : GoesOn ('.' :: c :: rest)
  | exponent {mark c : Char} {sign rest : List Char} {negative : Bool}
      (is_mark : mark = 'e' ∨ mark = 'E') (is_sign : IsSign sign negative)
      (is_digit : c.isDigit = true) : GoesOn (mark :: (sign ++ c :: rest))

/-! ## Values -/

/-- **What stands between brackets**: the items of an array or the members of an object. -/
inductive Element where
  | value
  | member

/-- What one element is. -/
abbrev Element.Meaning : Element → Type
  | .value => JsonValue
  | .member => Option String × JsonValue

/-- The bracket in front of the elements. -/
def Element.opener : Element → Char
  | .value => '['
  | .member => '\x7b'

/-- The bracket behind the elements. -/
def Element.closer : Element → Char
  | .value => ']'
  | .member => '\x7d'

/-- The value that elements between brackets are. -/
def Element.enclose : (e : Element) → List e.Meaning → JsonValue
  | .value => .array
  | .member => .object

/-- **What a part of a document is**: one element, or a row of at least one. -/
inductive Fragment where
  | one (e : Element)
  | row (e : Element)

/-- What a part of a document means. -/
abbrev Fragment.Meaning : Fragment → Type
  | .one e => e.Meaning
  | .row e => List e.Meaning

/-- **The characters that spell a part of a document**, with room for a number of pairs of brackets
inside each other. -/
inductive Spells : ℕ → (k : Fragment) → List Char → k.Meaning → Prop
  | text {room : ℕ} {cs : List Char} {s : Option String} (is_text : IsText cs s) :
      Spells room (.one .value) cs (.text s)
  /-- One of the words that are values. -/
  | word {room : ℕ} {w : String × JsonValue} (mem : w ∈ words) :
      Spells room (.one .value) w.1.toList w.2
  | integer {room : ℕ} (negative : Bool) {digits : List Char} (is_whole : IsWhole digits)
      (length_le : digits.length ≤ maxIntegerDigits) :
      Spells room (.one .value) (minus negative ++ digits)
        (.integer (signed negative (digitsValue digits)))
  /-- A number with places, an exponent or both. -/
  | fraction {room : ℕ} (negative : Bool) {digits ps es : List Char} {places : Option (List Char)}
      {exponent : Option ℤ} (is_whole : IsWhole digits) (is_places : IsPlaces ps places)
      (is_exponent : IsExponent es exponent) (isSome : places.isSome ∨ exponent.isSome) :
      Spells room (.one .value) (minus negative ++ (digits ++ (ps ++ es)))
        (.fraction (.finite ⟨negative, digitsValue (digits ++ places.getD []),
          exponent.getD 0 - (places.getD []).length⟩))
  /-- Brackets with nothing between them. -/
  | empty {room : ℕ} (e : Element) {gap : List Char} (is_gap : IsGap gap) :
      Spells (room + 1) (.one .value) (e.opener :: (gap ++ [e.closer])) (e.enclose [])
  /-- Brackets with a row between them. -/
  | enclosed {room : ℕ} {e : Element} {before cs after : List Char} {ms : List e.Meaning}
      (before_gap : IsGap before) (spelled : Spells room (.row e) cs ms)
      (after_gap : IsGap after) :
      Spells (room + 1) (.one .value)
        (e.opener :: (before ++ (cs ++ (after ++ [e.closer])))) (e.enclose ms)
  | member {room : ℕ} {key before after cs : List Char} {k : Option String} {v : JsonValue}
      (key_text : IsText key k) (before_gap : IsGap before) (after_gap : IsGap after)
      (spelled : Spells room (.one .value) cs v) :
      Spells room (.one .member) (key ++ (before ++ ':' :: (after ++ cs))) (k, v)
  /-- The last of a row. -/
  | last {room : ℕ} {e : Element} {cs : List Char} {m : e.Meaning}
      (spelled : Spells room (.one e) cs m) : Spells room (.row e) cs [m]
  /-- One with others behind it. -/
  | more {room : ℕ} {e : Element} {cs before after rest : List Char} {m : e.Meaning}
      {ms : List e.Meaning} (spelled : Spells room (.one e) cs m) (before_gap : IsGap before)
      (after_gap : IsGap after) (others : Spells room (.row e) rest ms) :
      Spells room (.row e) (cs ++ (before ++ ',' :: (after ++ rest))) (m :: ms)

/-- **A part of a document that stops the reader** with a fault, in a given room. Up to the fault
everything is spelled as it should be. -/
inductive Stops : JsonFault → ℕ → Fragment → List Char → Prop
  /-- An integer of too many digits. -/
  | integer {room : ℕ} (negative : Bool) {digits rest : List Char} (is_whole : IsWhole digits)
      (lt_length : maxIntegerDigits < digits.length) (ends : ¬ GoesOn rest) :
      Stops .longInteger room (.one .value) (minus negative ++ (digits ++ rest))
  /-- A bracket where there is no room for it. -/
  | bracket (e : Element) (rest : List Char) :
      Stops .tooDeep 0 (.one .value) (e.opener :: rest)
  | enclosed {fault : JsonFault} {room : ℕ} {e : Element} {gap cs : List Char} (is_gap : IsGap gap)
      (inside : Stops fault room (.row e) cs) :
      Stops fault (room + 1) (.one .value) (e.opener :: (gap ++ cs))
  | member {fault : JsonFault} {room : ℕ} {key before after cs : List Char} {k : Option String}
      (key_text : IsText key k) (before_gap : IsGap before) (after_gap : IsGap after)
      (inside : Stops fault room (.one .value) cs) :
      Stops fault room (.one .member) (key ++ (before ++ ':' :: (after ++ cs)))
  /-- The first of a row. -/
  | first {fault : JsonFault} {room : ℕ} {e : Element} {cs : List Char}
      (inside : Stops fault room (.one e) cs) : Stops fault room (.row e) cs
  /-- One of the others. -/
  | later {fault : JsonFault} {room : ℕ} {e : Element} {cs before after rest : List Char}
      {m : e.Meaning} (spelled : Spells room (.one e) cs m) (before_gap : IsGap before)
      (after_gap : IsGap after) (inside : Stops fault room (.row e) rest) :
      Stops fault room (.row e) (cs ++ (before ++ ',' :: (after ++ rest)))

/-! ## Documents -/

/-- **A document with its value**, its brackets nested at most `room` deep. -/
def IsDocument (room : ℕ) (cs : List Char) (v : JsonValue) : Prop :=
  ∃ before middle after, cs = before ++ (middle ++ after) ∧ IsGap before ∧ IsGap after
    ∧ Spells room (.one .value) middle v

/-- **What begins like a document** up to a fault that stops the reader. -/
def IsStopped (fault : JsonFault) (room : ℕ) (cs : List Char) : Prop :=
  ∃ before rest, cs = before ++ rest ∧ IsGap before ∧ Stops fault room (.one .value) rest

/-! ## Where a part begins and ends -/

section Begins

variable {cs tail : List Char}

/-- A digit is no other character. -/
theorem ne_of_isDigit {c d : Char} (hc : c.isDigit = true) (hd : d.isDigit = false) : c ≠ d := by
  rintro rfl
  exact Bool.false_ne_true (hd.symm.trans hc)

/-- **How a part of a document begins**: with no blank and no closing bracket. -/
inductive Begins : List Char → Prop
  | cons {c : Char} (no_gap : isGap c = false) (ne_closer : ∀ e : Element, c ≠ e.closer)
      (rest : List Char) : Begins (c :: rest)

theorem Begins.append (h : Begins cs) (tail : List Char) : Begins (cs ++ tail) := by
  obtain ⟨no_gap, ne_closer, rest⟩ := h
  exact .cons no_gap ne_closer _

theorem Begins.skipGap_append (h : Begins cs) {gap : List Char} (hgap : IsGap gap) :
    skipGap (gap ++ cs) = cs := by
  obtain ⟨no_gap, -, rest⟩ := h
  rw [JsonValue.skipGap_append hgap, skipGap_cons no_gap]

theorem begins_of_isDigit {c : Char} (h : c.isDigit = true) (rest : List Char) :
    Begins (c :: rest) := by
  refine .cons ?_ (fun e => ?_) rest
  · simp [isGap, fun d hd => ne_of_isDigit (d := d) h hd]
  · cases e <;> exact ne_of_isDigit h rfl

theorem begins_number (negative : Bool) {digits : List Char} (h : IsWhole digits)
    (rest : List Char) : Begins (minus negative ++ (digits ++ rest)) := by
  cases negative with
  | true => exact .cons rfl (fun e => by cases e <;> decide) _
  | false =>
    obtain ⟨c, more, rfl⟩ := List.exists_cons_of_ne_nil h.ne_nil
    exact begins_of_isDigit (h.digits c List.mem_cons_self) _

theorem IsText.begins {s : Option String} (h : IsText cs s) : Begins cs := by
  obtain ⟨-⟩ := h
  exact .cons rfl (fun e => by cases e <;> decide) _

theorem begins_opener (e : Element) (cs : List Char) : Begins (e.opener :: cs) := by
  refine .cons ?_ (fun e' => ?_) cs
  · cases e <;> rfl
  · cases e <;> cases e' <;> decide

/-- Words begin with letters, but for one that begins with a minus sign. -/
theorem exists_cons_of_mem_words {w : String × JsonValue} (mem : w ∈ words) :
    ∃ c rest, w.1.toList = c :: rest ∧ isGap c = false ∧ c ≠ '"'
      ∧ ∀ e : Element, c ≠ e.opener ∧ c ≠ e.closer := by
  simp only [words, List.mem_cons, List.not_mem_nil, or_false] at mem
  rcases mem with rfl | rfl | rfl | rfl | rfl | rfl <;>
    exact ⟨_, _, rfl, rfl, by decide, fun e => by cases e <;> decide⟩

/-- **Every part of a document begins** in that way. -/
theorem Spells.begins {room : ℕ} {k : Fragment} {m : k.Meaning} (h : Spells room k cs m) :
    Begins cs := by
  induction h with
  | text is_text => exact is_text.begins
  | word mem =>
    obtain ⟨c, rest, heq, no_gap, -, hne⟩ := exists_cons_of_mem_words mem
    rw [heq]
    exact .cons no_gap (fun e => (hne e).2) rest
  | integer negative is_whole =>
    have := begins_number negative is_whole []
    rwa [List.append_nil] at this
  | fraction negative is_whole => exact begins_number negative is_whole _
  | empty e => exact begins_opener e _
  | enclosed => exact begins_opener _ _
  | member key_text => exact key_text.begins.append _
  | last _ ih => exact ih
  | more _ _ _ _ ih => exact ih.append _

theorem Stops.begins {fault : JsonFault} {room : ℕ} {k : Fragment} (h : Stops fault room k cs) :
    Begins cs := by
  induction h with
  | integer negative is_whole => exact begins_number negative is_whole _
  | bracket e => exact begins_opener e _
  | enclosed => exact begins_opener _ _
  | member key_text => exact key_text.begins.append _
  | first _ ih => exact ih
  | later spelled => exact spelled.begins.append _

/-- A character that is no part of a number ends it. -/
theorem not_goesOn_cons {c : Char} (hdigit : c.isDigit = false) (hpoint : c ≠ '.')
    (hmark : ¬ (c = 'e' ∨ c = 'E')) (tail : List Char) : ¬ GoesOn (c :: tail) := by
  generalize heq : c :: tail = cs
  rintro (⟨hc⟩ | ⟨-⟩ | ⟨is_mark, -, -⟩)
  · rw [(List.cons.inj heq).1] at hdigit
    exact Bool.false_ne_true (hdigit.symm.trans hc)
  · exact hpoint (List.cons.inj heq).1
  · exact hmark ((List.cons.inj heq).1 ▸ is_mark)

theorem not_goesOn_nil : ¬ GoesOn [] := nofun

theorem not_goesOn_comma (tail : List Char) : ¬ GoesOn (',' :: tail) :=
  not_goesOn_cons rfl (by decide) (by decide) tail

theorem not_goesOn_closer (e : Element) (tail : List Char) : ¬ GoesOn (e.closer :: tail) := by
  cases e <;> exact not_goesOn_cons rfl (by decide) (by decide) tail

/-- Blanks end a number. -/
theorem not_goesOn_gap_append {gap : List Char} (hgap : IsGap gap) (h : ¬ GoesOn tail) :
    ¬ GoesOn (gap ++ tail) := by
  cases gap with
  | nil => exact h
  | cons c gap =>
    have hc : isGap c = true := hgap c List.mem_cons_self
    simp only [isGap, Bool.or_eq_true, beq_iff_eq] at hc
    rcases hc with ((rfl | rfl) | rfl) | rfl <;> exact not_goesOn_cons rfl (by decide) (by decide) _

end Begins

end Reckoner.JsonValue
