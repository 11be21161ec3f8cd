import Reckoner.Console.Basic
import Reckoner.Proofs.Session.Names
import Reckoner.Proofs.Token.Blame
import Reckoner.Proofs.Token.Spelling

/-!
# Assigning the value of a text

The text of an assignment and the same text typed as a line of its own come to the session by
different ways. Both lose the blanks at their ends. But a line that is calculated is also cleaned
of format characters, and the text of an assignment is not: with such a character in it, it has
no tokens (`isFormat_of_tokenize`), whatever it would have been worth without.

This is the only difference. Without format characters the two ways end alike (`EndAlike`):
`answer_assignment_spec`.
-/

namespace Reckoner.Console

open Unicode (isBlank isBlankText isFormat isWordChar lowerText trim trimStart)

/-! ## What the two lines ask for -/

section Lines

variable {name text : List Char}

/-- **A command** is the word behind the colon. -/
theorem Line.ofText_command {command arguments : List Char} {c : Char}
    (h : trim text = ':' :: (command ++ c :: arguments)) (hne : command ≠ [])
    (hcommand : ∀ d ∈ command, isBlank d = false) (hblank : isBlank c = true) :
    Line.ofText text = Line.ofCommand command (trimStart arguments) := by
  rw [Line.ofText, h]
  simp only [Unicode.firstWord?_append hne hcommand hblank]

/-- **An assignment is read as one**: of its name, and of its text without the blanks at the
ends. -/
theorem Line.ofText_assignment (hname : ∀ c ∈ name, isWordChar c = true) (hne : name ≠ [])
    (htext : isBlankText text = false) :
    Line.ofText (":set ".toList ++ (name ++ ' ' :: text))
      = .assign (String.ofList name) (String.ofList (trim text)) := by
  obtain ⟨before, after, hbefore, hafter, hsplit⟩ := Unicode.exists_append_trim_append text
  have htrim : trim text ≠ [] := by
    rw [ne_eq, Unicode.trim_eq_nil_iff, htext]
    exact Bool.false_ne_true
  have hspace : isBlank ' ' = true := by decide
  have hword : ∀ c ∈ name, isBlank c = false := fun c hc =>
    Unicode.isBlank_of_isWordChar (hname c hc)
  obtain ⟨first, others, rfl⟩ := List.exists_cons_of_ne_nil hne
  have hdollar : (first :: others).dropWhile (· == '$') = first :: others :=
    List.dropWhile_cons_of_neg fun h =>
      absurd (eq_of_beq h ▸ hname first List.mem_cons_self) (by decide)
  -- the line without the blanks behind it
  have hline : trim (":set ".toList ++ (first :: others ++ ' ' :: text))
      = ':' :: (['s', 'e', 't'] ++ ' ' :: (first :: others ++ ' ' :: (before ++ trim text))) := by
    have hsplit : ":set ".toList ++ (first :: others ++ ' ' :: text)
        = ":set ".toList ++ (first :: others ++ ' ' :: before) ++ (trim text ++ after) := by
      conv_lhs => rw [hsplit]
      simp
    have hstart : trimStart (":set ".toList ++ (first :: others ++ ' ' :: before))
        = ":set ".toList ++ (first :: others ++ ' ' :: before) :=
      Unicode.trimStart_eq_self (by rintro _ ⟨⟩; decide)
    have hend : after.rdropWhile isBlank = [] := List.rdropWhile_eq_nil_iff.mpr hafter
    rw [hsplit, Unicode.trim_append_append htrim (fun c => Unicode.isBlank_of_head?_trim)
      (fun c => Unicode.isBlank_of_getLast?_trim), hstart, hend]
    simp
  have hcommand : ∀ c ∈ ['s', 'e', 't'], isBlank c = false := by
    simp only [List.forall_mem_cons, List.not_mem_nil, false_imp_iff, implies_true, and_true]
    decide
  have hset : String.ofList (Unicode.lower ['s', 'e', 't']) = "set" := by decide
  have harguments : trimStart (first :: others ++ ' ' :: (before ++ trim text))
      = first :: others ++ ' ' :: (before ++ trim text) :=
    Unicode.trimStart_eq_self fun c hc => Option.some.inj hc ▸ hword first List.mem_cons_self
  rw [Line.ofText_command hline (List.cons_ne_nil _ _) hcommand hspace, harguments, Line.ofCommand,
    hset]
  show Line.assignment _ = _
  rw [Line.assignment, Unicode.firstWord?_append hne hword hspace,
    Unicode.trimStart_append_of_blank hbefore,
    Unicode.trimStart_eq_self fun c => Unicode.isBlank_of_head?_trim]
  show (if (trim text).isEmpty then _ else _) = _
  rw [if_neg (by simpa using htrim), hdollar]

/-- **A text is calculated** if it is neither a command nor a call for help. -/
theorem Line.ofText_calculation (hcolon : (trim text).head? ≠ some ':')
    (hhelp : Line.asksForHelp (trim text) = false) :
    Line.ofText text = .calculation (String.ofList (trim text)) := by
  unfold Line.ofText
  split
  · next rest heq => exact absurd (congrArg List.head? heq) hcolon
  · rw [hhelp]
    rfl

end Lines

/-! ## Two ways to the session -/

variable {console : Console} {name text : String}

/-- **A calculation and an assignment end alike**: the two answers, with the console behind each,
when `text` has been calculated and its value assigned to `name`. -/
inductive EndAlike (console : Console) (name text : String) :
    Console × Outcome → Console × Outcome → Prop
  /-- There is a value. The sessions differ in nothing but the variable. -/
  | bound {x : Decimal} {session : Session}
      (value_eq : console.session.evaluate (some text) = .ok (x, session))
      (get?_eq : (session.assign name x).variables.get? (lowerText name) = some x) :
      EndAlike console name text
        ({ console with session }, console.showValue text x)
        ({ console with session := session.assign name x },
          console.showValue ("$" ++ lowerText name) x)
  /-- There is none, for one reason. -/
  | fails {fault : Fault} (fault_eq : console.session.evaluate (some text) = .error fault) :
      EndAlike console name text (console, failed (faultText fault))
        (console, failed (faultText fault))

/-- **A text that need not be cleaned** is calculated and assigned alike. -/
theorem endAlike_of_clean (console : Console) (name : String)
    (hclean : Search.clean text.toList = text.toList) :
    EndAlike console name text (console.calculate text) (console.assign name text) := by
  rw [calculate, assign, hclean, String.ofList_toList, Session.assignLine]
  cases hvalue : console.session.evaluate (some text) with
  | ok value =>
    obtain ⟨x, session⟩ := value
    exact .bound hvalue (Bindings.get?_set_self _ _ _)
  | error fault => exact .fails hvalue

/-- **A text with a format character in it is not assigned**: it cannot be cut into tokens. -/
theorem assign_of_isFormat (console : Console) (name : String)
    (h : ∃ c ∈ text.toList, isFormat c = true) : ∃ cause position,
      console.assign name text = (console, failed (faultText (.lexing cause position))) := by
  obtain ⟨c, hc, hformat⟩ := h
  have hblank : isBlankText text.toList = false := by
    refine Bool.eq_false_of_not_eq_true fun hblank => ?_
    have := List.all_eq_true.mp hblank c hc
    rw [(Unicode.isFormat_spec hformat).2.1] at this
    cases this
  cases htokens : tokenize text.toList with
  | ok tokens =>
    rw [isFormat_of_tokenize htokens c hc] at hformat
    cases hformat
  | error fault =>
    obtain ⟨cause, position, rfl⟩ : ∃ cause position, fault = .lexing cause position := by
      cases lexerBlames_of_tokenize htokens <;> exact ⟨_, _, rfl⟩
    have hvalue : console.session.assignLine name text = .error (.lexing cause position) := by
      rw [Session.assignLine, Session.evaluate, Session.evaluateQuietly, Session.compute,
        evaluateLine, hblank, htokens]
      rfl
    exact ⟨cause, position, by rw [assign, hvalue]⟩

/-- **A text is assigned as it is calculated**, unless a format character stands in it. The text
is not blank, and typed as a line of its own it is neither a command nor a call for help. Without
format characters the line and its assignment end alike, in every console: with one value, one
last answer and one history, or with one fault. With one of them the assignment cannot be carried
out, and changes nothing. -/
theorem answer_assignment_spec (console : Console) (hname : IsName name) (hne : name ≠ "")
    (htext : isBlankText text.toList = false) (hcolon : (trim text.toList).head? ≠ some ':')
    (hhelp : Line.asksForHelp (trim text.toList) = false) :
    ((∀ c ∈ text.toList, isFormat c = false) →
        EndAlike console name (String.ofList (trim text.toList)) (console.answer text)
          (console.answer (":set " ++ name ++ " " ++ text)))
      ∧ ((∃ c ∈ text.toList, isFormat c = true) → ∃ cause position,
        console.answer (":set " ++ name ++ " " ++ text)
          = (console, failed (faultText (.lexing cause position)))) := by
  have hassigned : console.answer (":set " ++ name ++ " " ++ text)
      = console.assign name (String.ofList (trim text.toList)) := by
    have hline : (":set " ++ name ++ " " ++ text).toList
        = ":set ".toList ++ (name.toList ++ ' ' :: text.toList) := by
      simp [String.toList_append]
    rw [answer, hline, Line.ofText_assignment hname (by simpa using hne) htext,
      String.ofList_toList]
    rfl
  have hcalculated : console.answer text
      = console.calculate (String.ofList (trim text.toList)) := by
    rw [answer, Line.ofText_calculation hcolon hhelp]
    rfl
  rw [hassigned, hcalculated]
  refine ⟨fun hclean => endAlike_of_clean console name ?_, fun hformat => ?_⟩
  · have hkept : (trim text.toList).filter (fun c => !isFormat c) = trim text.toList :=
      List.filter_eq_self.mpr fun c hc => by rw [hclean c (Unicode.mem_of_mem_trim hc)]; rfl
    rw [String.toList_ofList, Search.clean, hkept, Unicode.trim_trim]
  · obtain ⟨c, hc, hformat⟩ := hformat
    refine assign_of_isFormat console name ⟨c, ?_, hformat⟩
    rw [String.toList_ofList]
    exact Unicode.mem_trim hc (Unicode.isFormat_spec hformat).2.1

/-- A console in which nothing was done yet. -/
def fresh : Console := ⟨.initial, .empty (.working 50)⟩

/-- A text with other blanks around it, and one with an invisible space in it. -/
theorem answer_assignment_spec_product :
    EndAlike fresh "n_1" "2*3" (fresh.answer "\u3000 2*3\t") (fresh.answer ":set n_1 \u3000 2*3\t")
      ∧ ∃ cause position, fresh.answer ":set n_1 2\u200b*3"
        = (fresh, failed (faultText (.lexing cause position))) := by
  have hname : IsName "n_1" := .of_all (by decide)
  obtain ⟨hblanks, -⟩ := @answer_assignment_spec "n_1" "\u3000 2*3\t" fresh hname (by decide)
    (by decide) (by decide) (by decide)
  obtain ⟨-, hformat⟩ := @answer_assignment_spec "n_1" "2\u200b*3" fresh hname (by decide)
    (by decide) (by decide) (by decide)
  have hclean : "\u3000 2*3\t".toList.all (!isFormat ·) = true := by decide
  exact ⟨hblanks fun c hc => by simpa using List.all_eq_true.mp hclean c hc,
    hformat ⟨'\u200b', by decide, by decide⟩⟩

/-- **An invisible space** is nothing to a line that is calculated, but an assignment fails with
it. -/
theorem answer_assignment_zeroWidthSpace :
    (fresh.answer "2\u200b*3").2 = .ok ⟨true, "2\u200b*3 = 6"⟩
      ∧ (fresh.answer ":set n 2\u200b*3").2
        = .ok ⟨false, "Error: Unexpected character '\u200b' (at position 1)"⟩ := by
  decide +kernel

end Reckoner.Console
