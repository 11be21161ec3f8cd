import Reckoner.Proofs.Search.Marks

/-!
# Patterns

Some questions about a text are put as patterns, which are tried at every place of it. This module
says how a pattern is tried, and what it means, and that the two agree.

Trying a pattern where a text begins (`Pattern.rests`) is a search among ways to go on: a class of
characters that may be repeated takes as many as it can, and gives them back one by one; of two
patterns the first is tried first. What counts in the end is what is left of the text, so a trial
is the list of all that can be left, in the order of the ways. What a pattern means
(`Pattern.Matches`) knows no order: it is a relation between the characters the pattern stands for
and those behind them. The latter matter to one pattern only, the end of the text. A text also ends
before a line feed that is its last character, so this end is not always where nothing is left.

By `mem_rests_iff` something can be left of a text exactly if the pattern stands for what is before
it, and so a search finds a pattern exactly if it stands for some part of the text (`search_iff`).
-/

namespace Reckoner.Search

open Unicode (foldChar)

/-- **Patterns.** -/
inductive Pattern where
  /-- No character. -/
  | nothing
  /-- A character of a class. -/
  | one (p : Char → Bool)
  /-- Any number of characters of a class. -/
  | many (p : Char → Bool)
  /-- The end of the text. -/
  | finish
  /-- A pattern, and another one behind it. -/
  | next (first second : Pattern)
  /-- The one or the other. -/
  | either (first second : Pattern)

namespace Pattern

variable {cs inside after : List Char}

/-! ## How a pattern is tried -/

/-- What can be left of a text behind characters of a class, the shortest rest first. -/
def restsOfMany (p : Char → Bool) : List Char → List (List Char)
  | [] => [[]]
  | c :: cs => if p c then restsOfMany p cs ++ [c :: cs] else [c :: cs]

/-- **What can be left of a text** behind a pattern at its start, in the order in which the ways to
match it are tried. -/
def rests : Pattern → List Char → List (List Char)
  | nothing, cs => [cs]
  | one _, [] => []
  | one p, c :: cs => if p c then [cs] else []
  | many p, cs => restsOfMany p cs
  | finish, cs => if cs = [] ∨ cs = ['\n'] then [cs] else []
  | next first second, cs => (first.rests cs).flatMap second.rests
  | either first second, cs => first.rests cs ++ second.rests cs

/-- **Whether a pattern is found** at some place of a text. -/
def search (pattern : Pattern) (text : List Char) : Bool :=
  anywhere (fun cs => !(pattern.rests cs).isEmpty) text

/-! ## What a pattern means -/

/-- **What a pattern stands for**, given the characters behind it. -/
def Matches : Pattern → List Char → List Char → Prop
  | nothing, inside, _ => inside = []
  | one p, inside, _ => ∃ c, inside = [c] ∧ p c = true
  | many p, inside, _ => ∀ c ∈ inside, p c = true
  | finish, inside, after => inside = [] ∧ (after = [] ∨ after = ['\n'])
  | next first second, inside, after => ∃ front back, inside = front ++ back
      ∧ first.Matches front (back ++ after) ∧ second.Matches back after
  | either first second, inside, after => first.Matches inside after ∨ second.Matches inside after

/-! ## The two agree -/

theorem mem_rests_one_iff {p : Char → Bool} :
    after ∈ (one p).rests cs ↔ ∃ c, cs = c :: after ∧ p c = true := by
  cases cs with
  | nil => exact iff_of_false List.not_mem_nil (by simp)
  | cons c cs =>
    rw [rests]
    constructor
    · intro h
      split at h
      · next hc => exact ⟨c, by rw [List.mem_singleton.mp h], hc⟩
      · cases h
    · rintro ⟨d, h, hd⟩
      obtain ⟨rfl, rfl⟩ := List.cons.inj h
      rw [if_pos hd]
      exact List.mem_singleton_self _

/-- Each character of a class that is taken may be given back. -/
theorem mem_restsOfMany_iff {p : Char → Bool} :
    after ∈ restsOfMany p cs ↔ ∃ inside, cs = inside ++ after ∧ ∀ c ∈ inside, p c = true := by
  induction cs with
  | nil =>
    rw [restsOfMany, List.mem_singleton]
    constructor
    · rintro rfl
      exact ⟨[], rfl, nofun⟩
    · rintro ⟨inside, h, -⟩
      exact (List.append_eq_nil_iff.mp h.symm).2
  | cons c cs ih =>
    rw [restsOfMany]
    constructor
    · intro h
      split at h
      · next hc =>
        obtain hmore | hnone := List.mem_append.mp h
        · obtain ⟨inside, rfl, hinside⟩ := ih.mp hmore
          exact ⟨c :: inside, rfl, List.forall_mem_cons.mpr ⟨hc, hinside⟩⟩
        · exact ⟨[], (List.mem_singleton.mp hnone).symm, nofun⟩
      · exact ⟨[], (List.mem_singleton.mp h).symm, nofun⟩
    · rintro ⟨inside, h, hinside⟩
      cases inside with
      | nil =>
        rw [h, List.nil_append]
        split
        · exact List.mem_append_right _ (List.mem_singleton_self _)
        · exact List.mem_singleton_self _
      | cons d inside =>
        obtain ⟨rfl, rfl⟩ := List.cons.inj h
        obtain ⟨hd, hinside⟩ := List.forall_mem_cons.mp hinside
        rw [if_pos hd]
        exact List.mem_append_left _ (ih.mpr ⟨inside, rfl, hinside⟩)

theorem mem_rests_finish_iff :
    after ∈ finish.rests cs ↔ cs = after ∧ (after = [] ∨ after = ['\n']) := by
  rw [rests]
  constructor
  · intro h
    split at h
    · next hend =>
      obtain rfl := List.mem_singleton.mp h
      exact ⟨rfl, hend⟩
    · cases h
  · rintro ⟨rfl, hend⟩
    rw [if_pos hend]
    exact List.mem_singleton_self _

/-- **What can be left of a text** is what follows a part of it that the pattern stands for. -/
theorem mem_rests_iff {pattern : Pattern} :
    after ∈ pattern.rests cs ↔ ∃ inside, cs = inside ++ after ∧ pattern.Matches inside after := by
  induction pattern generalizing cs after with
  | nothing =>
    show after ∈ [cs] ↔ ∃ inside, cs = inside ++ after ∧ inside = []
    rw [List.mem_singleton]
    constructor
    · rintro rfl
      exact ⟨[], rfl, rfl⟩
    · rintro ⟨_, rfl, rfl⟩
      rfl
  | one p =>
    rw [mem_rests_one_iff]
    constructor
    · rintro ⟨c, rfl, hc⟩
      exact ⟨[c], rfl, c, rfl, hc⟩
    · rintro ⟨_, rfl, c, rfl, hc⟩
      exact ⟨c, rfl, hc⟩
  | many p => exact mem_restsOfMany_iff
  | finish =>
    rw [mem_rests_finish_iff]
    constructor
    · rintro ⟨rfl, hend⟩
      exact ⟨[], rfl, rfl, hend⟩
    · rintro ⟨_, rfl, rfl, hend⟩
      exact ⟨rfl, hend⟩
  | next first second ihFirst ihSecond =>
    rw [rests, List.mem_flatMap]
    constructor
    · rintro ⟨middle, hfirst, hsecond⟩
      obtain ⟨front, rfl, hfront⟩ := ihFirst.mp hfirst
      obtain ⟨back, rfl, hback⟩ := ihSecond.mp hsecond
      exact ⟨front ++ back, (List.append_assoc ..).symm, front, back, rfl, hfront, hback⟩
    · rintro ⟨_, rfl, front, back, rfl, hfront, hback⟩
      exact ⟨back ++ after, ihFirst.mpr ⟨front, List.append_assoc .., hfront⟩,
        ihSecond.mpr ⟨back, rfl, hback⟩⟩
  | either first second ihFirst ihSecond =>
    rw [rests, List.mem_append, ihFirst, ihSecond, ← exists_or]
    simp only [Matches, and_or_left]

/-- **A pattern is found** exactly if it stands for some part of the text. -/
theorem search_iff {pattern : Pattern} {text : List Char} : pattern.search text = true
    ↔ ∃ front inside after, text = front ++ (inside ++ after) ∧ pattern.Matches inside after := by
  rw [search, anywhere_iff]
  constructor
  · rintro ⟨front, back, rfl, h⟩
    rw [Bool.not_eq_true', List.isEmpty_eq_false_iff_exists_mem] at h
    obtain ⟨after, hafter⟩ := h
    obtain ⟨inside, rfl, hinside⟩ := mem_rests_iff.mp hafter
    exact ⟨front, inside, after, rfl, hinside⟩
  · rintro ⟨front, inside, after, rfl, hinside⟩
    refine ⟨front, inside ++ after, rfl, ?_⟩
    rw [Bool.not_eq_true', List.isEmpty_eq_false_iff_exists_mem]
    exact ⟨after, mem_rests_iff.mpr ⟨inside, rfl, hinside⟩⟩

/-! ## Words -/

/-- **A word in any letter case.** -/
def word : List Char → Pattern
  | [] => nothing
  | d :: ds => next (one (foldChar · == d)) (word ds)

/-- **One of several patterns**, in the order of the list. -/
def anyOf : List Pattern → Pattern
  | [] => one fun _ => false
  | pattern :: patterns => either pattern (anyOf patterns)

/-- A word stands for the characters that count as its letters. -/
theorem matches_word_iff {letters : List Char} :
    (word letters).Matches inside after ↔ fold inside = letters := by
  induction letters generalizing inside with
  | nil => exact List.map_eq_nil_iff.symm
  | cons d letters ih =>
    constructor
    · rintro ⟨_, back, rfl, ⟨c, rfl, hc⟩, hback⟩
      rw [List.singleton_append, fold, List.map_cons, eq_of_beq hc, ← fold, ih.mp hback]
    · intro h
      obtain ⟨c, back, rfl, rfl, rfl⟩ := List.map_eq_cons_iff.mp h
      exact ⟨[c], back, rfl, ⟨c, rfl, beq_self_eq_true _⟩, ih.mpr rfl⟩

/-- Several patterns stand for what one of them stands for. -/
theorem matches_anyOf_iff {patterns : List Pattern} : (anyOf patterns).Matches inside after
    ↔ ∃ pattern ∈ patterns, pattern.Matches inside after := by
  induction patterns with
  | nil =>
    refine iff_of_false ?_ (by simp)
    rintro ⟨c, -, hc⟩
    cases hc
  | cons pattern patterns ih =>
    show pattern.Matches inside after ∨ (anyOf patterns).Matches inside after ↔ _
    rw [ih, List.exists_mem_cons_iff]

end Pattern

end Reckoner.Search
