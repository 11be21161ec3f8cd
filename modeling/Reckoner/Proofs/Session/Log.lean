import Mathlib.Data.List.Destutter
import Mathlib.Data.List.DropRight
import Reckoner.Proofs.Session.InPlace

/-!
# The history and the last answer are read off the log

A session keeps fifteen lines of its history and one answer, and compares a new
line with the newest one it has. Beside it stands the *log*: every request that
has been made, with its outcome, and nothing is ever taken from it. What the
session keeps is what one would find by going through the whole log afterwards
(`Session.recounts_events`). The lines written down since the history was forgotten,
with runs of one line told once, end in the history; the values found since the
last reset end in the last answer.

The two are not computed alike. The session drops lines before it knows which
ones follow, and the log is cut at the very end; they agree because what is
dropped never is the newest line, and only that one decides whether the next line
is a repetition (`History.record_rtake`).
-/

namespace Reckoner

/-! ## Runs of equal entries -/

section Runs

variable {α : Type} [DecidableEq α]

/-- Told once, a list of runs ends in its last entry. -/
theorem getLast?_destutter' (a : α) (l : List α) :
    (l.destutter' (· ≠ ·) a).getLast? = (a :: l).getLast? := by
  induction l generalizing a with
  | nil => rfl
  | cons b l ih =>
    rw [List.getLast?_cons_cons]
    by_cases h : a = b
    · rw [List.destutter'_cons_neg l (not_not.mpr h), ih a, h]
    · rw [List.destutter'_cons_pos l h, List.getLast?_cons, ih b, List.getLast?_cons,
        Option.getD_some]

/-- One more entry is told if it differs from the last. -/
theorem destutter'_concat (a b : α) (l : List α) :
    (l ++ [b]).destutter' (· ≠ ·) a
      = if (a :: l).getLast? = some b then l.destutter' (· ≠ ·) a
        else l.destutter' (· ≠ ·) a ++ [b] := by
  induction l generalizing a with
  | nil =>
    rw [List.getLast?_singleton]
    by_cases h : a = b
    · rw [if_pos (congrArg some h)]
      exact List.destutter'_cons_neg [] (not_not.mpr h)
    · rw [if_neg fun heq => h (Option.some.inj heq)]
      exact List.destutter'_cons_pos [] h
  | cons c l ih =>
    rw [List.cons_append, List.getLast?_cons_cons]
    by_cases h : a = c
    · rw [List.destutter'_cons_neg _ (not_not.mpr h), List.destutter'_cons_neg _ (not_not.mpr h),
        ih a, h]
    · rw [List.destutter'_cons_pos _ h, List.destutter'_cons_pos _ h, ih c]
      split <;> rfl

/-- **One more entry** is told if it differs from the last one told. -/
theorem destutter_concat (l : List α) (b : α) :
    (l ++ [b]).destutter (· ≠ ·)
      = if (l.destutter (· ≠ ·)).getLast? = some b then l.destutter (· ≠ ·)
        else l.destutter (· ≠ ·) ++ [b] := by
  cases l with
  | nil => rfl
  | cons a l =>
    rw [List.cons_append, List.destutter_cons', List.destutter_cons', getLast?_destutter']
    exact destutter'_concat a b l

end Runs

/-! ## The newest entries -/

section Newest

variable {α : Type} (l : List α) {n : Nat}

/-- The newest entry is kept. -/
theorem getLast?_rtake (hn : 0 < n) : (l.rtake n).getLast? = l.getLast? := by
  obtain ⟨k, rfl⟩ := Nat.exists_eq_add_of_le' hn
  rcases List.eq_nil_or_concat l with rfl | ⟨before, a, rfl⟩
  · rw [List.rtake_nil]
  · rw [List.concat_eq_append, List.rtake_concat_succ, List.getLast?_concat, List.getLast?_concat]

/-- Keeping more entries for a while changes nothing. -/
theorem rtake_rtake_succ (k : Nat) : (l.rtake (k + 1)).rtake k = l.rtake k := by
  rw [List.rtake, List.rtake, List.rtake, List.length_drop, List.drop_drop]
  congr 1
  omega

/-- The newest of the newest entries and one more are the newest of all. -/
theorem rtake_concat_rtake (hn : 0 < n) (a : α) :
    (l.rtake n ++ [a]).rtake n = (l ++ [a]).rtake n := by
  obtain ⟨k, rfl⟩ := Nat.exists_eq_add_of_le' hn
  rw [List.rtake_concat_succ, List.rtake_concat_succ, rtake_rtake_succ]

end Newest

/-- **A line is written down** in a history that was cut as if it had not been. -/
theorem History.record_rtake (lines : List String) (line : String) :
    History.record ((lines.destutter (· ≠ ·)).rtake History.capacity) line
      = ((lines ++ [line]).destutter (· ≠ ·)).rtake History.capacity := by
  have hnewest : ((lines.destutter (· ≠ ·)).rtake History.capacity).getLast?
      = (lines.destutter (· ≠ ·)).getLast? := getLast?_rtake _ (by decide)
  rw [History.record, hnewest, destutter_concat]
  split
  · rfl
  · exact rtake_concat_rtake _ (by decide) line

namespace Session

/-! ## What a log tells -/

/-- Whether a request empties the history. -/
def Request.forgetsHistory : Request → Bool
  | .clearHistory | .reset => true
  | _ => false

/-- Whether a request empties the session. -/
def Request.isReset : Request → Bool
  | .reset => true
  | _ => false

namespace Event

/-- **The line that was written down**: by itself, or because it was committed and
had a value. -/
def recorded? : Event → Option String
  | ⟨.record line, _⟩ => some line
  | ⟨.evaluate line, .ok _⟩ => line
  | ⟨.setVariable _ (.line text), .ok _⟩ => some text
  | _ => none

/-- **The value that was found** for a line. -/
def value? : Event → Option Decimal
  | ⟨.evaluateQuietly _, .ok x⟩ | ⟨.evaluate _, .ok x⟩ | ⟨.setVariable _ (.line _), .ok x⟩ => x
  | _ => none

end Event

/-- The events after the last request of a kind. -/
def since (kind : Request → Bool) (log : List Event) : List Event :=
  log.rtakeWhile fun event => !kind event.request

/-- **The lines written down** since the history was emptied. -/
def recordedLines (log : List Event) : List String :=
  (since Request.forgetsHistory log).filterMap Event.recorded?

/-- **The values found** since the last reset. -/
def foundValues (log : List Event) : List Decimal :=
  (since Request.isReset log).filterMap Event.value?

/-- **A session recounts a log** if its history and its last answer are what the
log tells. -/
structure Recounts (s : Session) (log : List Event) : Prop where
  history : s.history = ((recordedLines log).destutter (· ≠ ·)).rtake History.capacity
  answer : s.answer = (foundValues log).getLast?.getD (.ofNat 0)

/-! ## One more event -/

section Step

variable {event : Event} (log : List Event)

theorem since_concat {kind : Request → Bool} (h : kind event.request = false) :
    since kind (log ++ [event]) = since kind log ++ [event] :=
  List.rtakeWhile_concat_pos _ _ _ (by rw [h]; rfl)

theorem since_concat_of_kind {kind : Request → Bool} (h : kind event.request = true) :
    since kind (log ++ [event]) = [] :=
  List.rtakeWhile_concat_neg _ _ _ (by rw [h]; exact Bool.false_ne_true)

theorem recordedLines_concat (h : event.request.forgetsHistory = false) :
    recordedLines (log ++ [event]) = recordedLines log ++ event.recorded?.toList := by
  rw [recordedLines, since_concat log h, List.filterMap_append]
  rfl

theorem foundValues_concat (h : event.request.isReset = false) :
    foundValues (log ++ [event]) = foundValues log ++ event.value?.toList := by
  rw [foundValues, since_concat log h, List.filterMap_append]
  rfl

end Step

variable {s s' : Session} {log : List Event} {request : Request} {outcome : Outcome}

/-- A request that evaluates a line empties nothing. -/
theorem Request.keeps_of_line? {line : Option String} (h : request.line? = some line) :
    request.forgetsHistory = false ∧ request.isReset = false := by
  cases request with
  | clearHistory => cases h
  | reset => cases h
  | _ => exact ⟨rfl, rfl⟩

/-- A request that fails writes no line down and finds no value. -/
theorem Event.none_of_error {line : Option String} (fault : Fault)
    (h : request.line? = some line) :
    recorded? ⟨request, .error fault⟩ = none ∧ value? ⟨request, .error fault⟩ = none := by
  cases request with
  | record => cases h
  | setVariable name value => cases value <;> exact ⟨rfl, rfl⟩
  | _ => exact ⟨rfl, rfl⟩

namespace Recounts

theorem empty (context : Context) : Recounts (.empty context) [] := ⟨rfl, rfl⟩

/-- The history recounts an event that does not empty it. -/
theorem history_concat (h : Recounts s log) {event : Event}
    (hkeeps : event.request.forgetsHistory = false)
    (hrecorded : s'.history = event.recorded?.elim s.history (History.record s.history)) :
    s'.history
      = ((recordedLines (log ++ [event])).destutter (· ≠ ·)).rtake History.capacity := by
  rw [recordedLines_concat log hkeeps, hrecorded]
  cases event.recorded? with
  | none =>
    rw [Option.toList_none, List.append_nil]
    exact h.history
  | some line =>
    rw [Option.elim_some, Option.toList_some, ← History.record_rtake, h.history]

/-- The last answer recounts an event that does not empty it. -/
theorem answer_concat (h : Recounts s log) {event : Event}
    (hkeeps : event.request.isReset = false)
    (hvalue : s'.answer = event.value?.getD s.answer) :
    s'.answer = (foundValues (log ++ [event])).getLast?.getD (.ofNat 0) := by
  rw [foundValues_concat log hkeeps, hvalue]
  cases event.value? with
  | none =>
    rw [Option.toList_none, List.append_nil]
    exact h.answer
  | some x =>
    rw [Option.toList_some, List.getLast?_concat]
    rfl

/-- An event that empties nothing is recounted if the session has written down
the line of the event and has taken its value for the last answer. -/
theorem concat (h : Recounts s log) {event : Event}
    (hforgets : event.request.forgetsHistory = false) (hreset : event.request.isReset = false)
    (hrecorded : s'.history = event.recorded?.elim s.history (History.record s.history))
    (hvalue : s'.answer = event.value?.getD s.answer) : Recounts s' (log ++ [event]) :=
  ⟨h.history_concat hforgets hrecorded, h.answer_concat hreset hvalue⟩

/-- **One more event is recounted**, whatever it is. -/
theorem step (h : Recounts s log) (hserved : Served s request outcome s') :
    Recounts s' (log ++ [⟨request, outcome⟩]) := by
  cases hserved with
  | @refused _ line fault hline =>
    obtain ⟨hforgets, hreset⟩ := Request.keeps_of_line? hline
    obtain ⟨hrecorded, hvalue⟩ := Event.none_of_error fault hline
    exact h.concat hforgets hreset (by rw [hrecorded]; rfl) (by rw [hvalue]; rfl)
  | quiet => exact h.concat rfl rfl rfl rfl
  | committed => exact h.concat rfl rfl rfl rfl
  | recorded => exact h.concat rfl rfl rfl rfl
  | assignedLine => exact h.concat rfl rfl rfl rfl
  | assignedDecimal => exact h.concat rfl rfl rfl rfl
  | assignedInteger => exact h.concat rfl rfl rfl rfl
  | cleared =>
    refine ⟨?_, h.answer_concat rfl rfl⟩
    rw [recordedLines, since_concat_of_kind log rfl]
    rfl
  | reset =>
    refine ⟨?_, ?_⟩
    · rw [recordedLines, since_concat_of_kind log rfl]
      rfl
    · rw [foundValues, since_concat_of_kind log rfl]
      rfl

end Recounts

/-! ## A whole log -/

theorem after_concat (s : Session) (requests : List Request) (request : Request) :
    s.after (requests ++ [request]) = ((s.after requests).serve request).2 :=
  List.foldl_concat _ _ _ _

theorem events_concat (s : Session) (requests : List Request) (request : Request) :
    s.events (requests ++ [request])
      = s.events requests ++ [⟨request, ((s.after requests).serve request).1⟩] := by
  induction requests generalizing s with
  | nil => rfl
  | cons first rest ih => exact congrArg (_ :: ·) (ih (s.serve first).2)

/-- **A session recounts the log of its requests** at any time. -/
theorem recounts_events (context : Context) (requests : List Request) :
    Recounts ((empty context).after requests) ((empty context).events requests) := by
  -- The events are recounted in the order they happen, so the list is built from its end.
  induction requests using List.reverseRecOn with
  | nil => exact .empty context
  | append_singleton requests request ih =>
    rw [after_concat, events_concat]
    exact ih.step (served _ request)

/-- **The history and the last answer are read off the log.** After any requests,
failed ones included, the history is the last fifteen entries of the list of lines
written down since the history was last emptied, with adjacent equal entries told
once; and the last answer is the value found last since the last reset, or zero. -/
theorem history_eq_rtake_destutter (context : Context) (requests : List Request) :
    ((empty context).after requests).history
        = ((recordedLines ((empty context).events requests)).destutter (· ≠ ·)).rtake 15
      ∧ ((empty context).after requests).answer
        = (foundValues ((empty context).events requests)).getLast?.getD (.ofNat 0) :=
  ⟨(recounts_events context requests).history, (recounts_events context requests).answer⟩

end Session

end Reckoner
