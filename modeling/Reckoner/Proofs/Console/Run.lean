import Mathlib
import Reckoner.Proofs.Console.Answer
import Reckoner.Proofs.Console.Assignment
import Reckoner.Proofs.Session.Machine

/-!
# A run of the console

A script is played up to the first event that ends the console (`played`); what
comes after that event is left. The lines before it are answered one after
another, each by the console that the lines before it have left behind
(`after`), and each of them, like each line that is given up, has one entry on
the screen (`Shows`).

That is what happens to a script on a machine that is large enough for each of
these lines (`Manages`). On another machine it is played in the same way up to the
first line that is too much (`IsCutAt`): there the console is cut short, without a
word of leave, and the rest of the script is never read.

`run_spec` says that nothing else happens, whatever is typed in whatever order. It
rests on the invariant of `Reckoner.Proofs.Console.Answer`, that the session is one
of numbers: no value is without a text, so the machine is the only thing that can
cut a run short.
-/

namespace Reckoner.Console

open Unicode

namespace Event

/-- **Whether an event ends the console**: the input is closed, or a line leaves. -/
def ends : Event → Bool
  | .line text => leaves text.toList
  | .cancel => false
  | .close => true

/-- Whether there is an entry for an event: a line that is not blank, or one that
is given up. -/
def isShown : Event → Bool
  | .line text => !isBlankText text.toList
  | .cancel => true
  | .close => false

/-- The line that is typed, unless it is blank. -/
def typed? : Event → Option String
  | .line text => if isBlankText text.toList then none else some text
  | .cancel | .close => none

end Event

/-- **The events that are played**: those before the first that ends the console. -/
def played (script : List Event) : List Event := script.takeWhile (!·.ends)

/-- **The console after events**: the lines among them that are not blank are
answered one after another. -/
def after (console : Console) (events : List Event) : Console :=
  (events.filterMap Event.typed?).foldl (fun console line => (console.answer line).1) console

/-- **The entry of an event**: the text of the answer to a line, or a mark for a line
that is given up. -/
def Shows (console : Console) : Event → String → Prop
  | .line text, entry => ∃ ok, (console.answer text).2 = .ok ⟨ok, entry⟩
  | .cancel, entry => entry = "^C"
  | .close, _ => False

/-- **The entries of events**, each as the console shows it that the events before
have left behind. -/
def Shown (console : Console) (events : List Event) (entries : List String) : Prop :=
  entries.length = events.length
    ∧ ∀ i event, events[i]? = some event →
      ∃ entry, entries[i]? = some entry ∧ (console.after (events.take i)).Shows event entry

/-- What a machine is too small for when an event comes. Only a line can ask for much. -/
def shortageAt? (console : Console) (machine : Machine) : Event → Option Shortage
  | .line text => if isBlankText text.toList then none else console.shortage? machine text
  | .cancel | .close => none

/-- **A machine manages events** if it is large enough for each of them, as it comes to
the console that the events before have left behind. -/
def Manages (console : Console) (machine : Machine) (events : List Event) : Prop :=
  ∀ i event, events[i]? = some event →
    (console.after (events.take i)).shortageAt? machine event = none

/-- **A script is played out**: the console is left as the lines before the event that
ends it have left it, the rest of the script is left alone, and there is one entry for
every event that has one, and a word of leave. -/
structure PlaysOut (console : Console) (script : List Event) (run : Run) : Prop where
  cut_eq : run.cut = none
  console_eq : run.console = console.after (played script)
  left_eq : run.left = script.drop ((played script).length + 1)
  exists_entries : ∃ entries, run.screen = entries ++ [farewell]
    ∧ run.transcript = String.join ((greeting :: entries ++ [farewell]).map (· ++ "\n"))
    ∧ console.Shown ((played script).filter (·.isShown)) entries

/-- **A run is cut short at a line**, which is too much for the machine: what comes before
the line has been managed and has its entries, what comes after it is left, and there is
no word of leave. -/
structure IsCutAt (console : Console) (machine : Machine) (before : List Event) (text : String)
    (later : List Event) (run : Run) : Prop where
  manages : console.Manages machine before
  forall_ends : ∀ event ∈ before, event.ends = false
  exists_shortage : ∃ shortage,
    (console.after before).shortageAt? machine (.line text) = some shortage
      ∧ run.console = (console.after before).leftBy text shortage
  cut_eq : run.cut = some .exhausted
  left_eq : run.left = later
  shown : console.Shown (before.filter (·.isShown)) run.screen

variable {console : Console} {machine : Machine} {event : Event} {script events : List Event}
  {entries : List String}

/-! ## One event -/

theorem after_cons (console : Console) (event : Event) (events : List Event) :
    console.after (event :: events) = (console.after [event]).after events := by
  unfold after
  rw [← List.foldl_append, ← List.filterMap_append]
  rfl

theorem after_line {text : String} (h : isBlankText text.toList = false) (console : Console) :
    console.after [.line text] = (console.answer text).1 := by
  have htyped : Event.typed? (.line text) = some text := by
    rw [Event.typed?, h, if_neg Bool.false_ne_true]
  rw [after, List.filterMap_cons_some htyped]
  rfl

theorem after_blank {text : String} (h : isBlankText text.toList = true) (console : Console) :
    console.after [.line text] = console := by
  rw [after, List.filterMap_cons_none (by rw [Event.typed?, if_pos h])]
  rfl

theorem shown_nil (console : Console) : console.Shown [] [] := ⟨rfl, nofun⟩

/-- One more entry before those that the next console shows. -/
theorem Shown.cons {entry : String} (hentry : console.Shows event entry)
    (h : (console.after [event]).Shown events entries) :
    console.Shown (event :: events) (entry :: entries) := by
  refine ⟨congrArg Nat.succ h.1, fun i later hlater => ?_⟩
  cases i with
  | zero =>
    obtain rfl := Option.some.inj hlater
    exact ⟨entry, rfl, hentry⟩
  | succ i =>
    rw [List.take_succ_cons, after_cons]
    exact h.2 i later hlater

theorem manages_nil (console : Console) (machine : Machine) : console.Manages machine [] := nofun

/-- One more event before those that are managed. -/
theorem manages_cons : console.Manages machine (event :: events)
    ↔ console.shortageAt? machine event = none
      ∧ (console.after [event]).Manages machine events := by
  constructor
  · refine fun h => ⟨h 0 event rfl, fun i later hlater => ?_⟩
    rw [← after_cons]
    exact h (i + 1) later hlater
  · rintro ⟨hfirst, hlater⟩ i later h
    cases i with
    | zero =>
      obtain rfl := Option.some.inj h
      exact hfirst
    | succ i =>
      rw [List.take_succ_cons, after_cons]
      exact hlater i later h

/-- A line that is blank does not leave the console. -/
theorem leaves_of_isBlankText {line : List Char} (h : isBlankText line = true) :
    leaves line = false := by
  have htrim : trim line = [] := by
    have hstart : trimStart line = [] := List.dropWhile_eq_nil_iff.mpr (List.all_eq_true.mp h)
    rw [trim, hstart]
    rfl
  rw [leaves, htrim]
  rfl

/-- A line that leaves the console asks for nothing a machine could be too small for. -/
theorem shortage?_of_leaves {text : String} (h : leaves text.toList = true) :
    console.shortage? machine text = none := by
  rw [shortage?, (Line.ofText_eq_leave_iff text.toList).mpr h]

/-- **The event that ends the console** ends it as it is. -/
theorem step_of_ends (h : event.ends = true) : console.step machine event = .ends console := by
  cases event with
  | close => rfl
  | cancel => cases h
  | line text =>
    have hblank : isBlankText text.toList = false := by
      by_contra hblank
      rw [Event.ends, leaves_of_isBlankText (Bool.eq_true_of_not_eq_false hblank)] at h
      cases h
    rw [step, hblank, shortage?_of_leaves h, answer_of_leaves h]
    rfl

/-- **A line that is too much** for the machine cuts the console short. -/
theorem step_of_shortage {shortage : Shortage}
    (h : console.shortageAt? machine event = some shortage) :
    ∃ text, event = .line text
      ∧ console.step machine event = .cut (console.leftBy text shortage) .exhausted := by
  cases event with
  | close => cases h
  | cancel => cases h
  | line text =>
    rw [shortageAt?] at h
    split at h
    · cases h
    · next hblank => exact ⟨text, rfl, by rw [step, if_neg hblank, h]⟩

/-- **The entry that an event has**, if it is to have one. An event without an entry does
nothing. -/
inductive HasEntry (console : Console) : Event → Option String → Prop
  | shown {event : Event} {entry : String} (is_shown : event.isShown = true)
      (shows_entry : console.Shows event entry) : HasEntry console event (some entry)
  | passed {event : Event} (not_shown : event.isShown = false)
      (after_eq : console.after [event] = console) : HasEntry console event none

/-- **Every other event** leaves the console waiting for the next one, in a session of
numbers. -/
theorem exists_step_of_managed (hfinite : console.session.IsFinite) (hends : event.ends = false)
    (h : console.shortageAt? machine event = none) :
    (console.after [event]).session.IsFinite
      ∧ ∃ entry, console.step machine event = .waits (console.after [event]) entry
        ∧ console.HasEntry event entry := by
  cases event with
  | close => cases hends
  | cancel => exact ⟨hfinite, _, rfl, .shown rfl rfl⟩
  | line text =>
    cases hblank : isBlankText text.toList with
    | true =>
      have hafter := after_blank hblank console
      refine ⟨hafter.symm ▸ hfinite, none, ?_, .passed ?_ hafter⟩
      · rw [step, if_pos hblank, hafter]
      · rw [Event.isShown, hblank]
        rfl
    | false =>
      obtain ⟨hnext, reply, hreply⟩ := answer_spec hfinite hends
      rw [shortageAt?, hblank, if_neg Bool.false_ne_true] at h
      rw [after_line hblank]
      refine ⟨hnext, some reply.text, ?_, .shown ?_ ⟨reply.ok, hreply⟩⟩
      · have hanswer : console.answer text = ((console.answer text).1, .ok reply) :=
          Prod.ext rfl hreply
        rw [step, hblank, h, hanswer]
        rfl
      · rw [Event.isShown, hblank]
        rfl

/-! ## Runs -/

/-- **The session stays one of numbers**, whatever is typed. -/
theorem isFinite_after (h : console.session.IsFinite) (events : List Event) :
    (console.after events).session.IsFinite := by
  unfold after
  -- a line that leaves the console is among the lines here too, and changes nothing
  induction events.filterMap Event.typed? generalizing console with
  | nil => exact h
  | cons line lines ih =>
    refine ih ?_
    cases hline : leaves line.toList with
    | false => exact (answer_spec h hline).1
    | true =>
      show (console.answer line).1.session.IsFinite
      rw [answer_of_leaves hline]
      exact h

theorem played_cons_of_ends (h : event.ends = true) : played (event :: script) = [] :=
  List.takeWhile_cons_of_neg (by rw [h]; exact nofun)

theorem played_cons (h : event.ends = false) :
    played (event :: script) = event :: played script :=
  List.takeWhile_cons_of_pos (by rw [h]; rfl)

/-- One more event before those that have their entries. -/
theorem HasEntry.shown_cons {entry : Option String} (hentry : console.HasEntry event entry)
    (h : (console.after [event]).Shown (events.filter (·.isShown)) entries) :
    console.Shown ((event :: events).filter (·.isShown)) (entry.toList ++ entries) := by
  cases hentry with
  | shown is_shown shows_entry =>
    rw [List.filter_cons_of_pos is_shown]
    exact h.cons shows_entry
  | passed not_shown after_eq =>
    rw [List.filter_cons_of_neg (by rw [not_shown]; exact nofun)]
    rwa [after_eq] at h

/-- One more event before a script that is played out. -/
theorem PlaysOut.cons {entry : Option String} {run : Run} (hends : event.ends = false)
    (hentry : console.HasEntry event entry) (h : (console.after [event]).PlaysOut script run) :
    console.PlaysOut (event :: script) (run.showing entry) := by
  obtain ⟨hcut, hconsole, hleft, entries, hscreen, -, hshown⟩ := h
  have hscreen' : (run.showing entry).screen = (entry.toList ++ entries) ++ [farewell] := by
    rw [List.append_assoc, ← hscreen]
    rfl
  refine ⟨hcut, ?_, ?_, entry.toList ++ entries, hscreen', ?_, ?_⟩
  · rw [played_cons hends, after_cons]
    exact hconsole
  · rw [played_cons hends]
    exact hleft
  · rw [Run.transcript, hscreen']
    rfl
  · rw [played_cons hends]
    exact hentry.shown_cons hshown

/-- One more event before a line that a run is cut short at. -/
theorem IsCutAt.cons {before later : List Event} {text : String} {entry : Option String}
    {run : Run} (hmanaged : console.shortageAt? machine event = none) (hends : event.ends = false)
    (hentry : console.HasEntry event entry)
    (h : (console.after [event]).IsCutAt machine before text later run) :
    console.IsCutAt machine (event :: before) text later (run.showing entry) := by
  obtain ⟨hmanages, hbefore, hshortage, hcut, hleft, hshown⟩ := h
  refine ⟨manages_cons.mpr ⟨hmanaged, hmanages⟩, List.forall_mem_cons.mpr ⟨hends, hbefore⟩, ?_,
    hcut, hleft, hentry.shown_cons hshown⟩
  rw [after_cons]
  exact hshortage

/-- **A script is played out, or cut short** at a line that is too much for the machine. -/
theorem run_of_isFinite (h : console.session.IsFinite) (machine : Machine)
    (script : List Event) :
    console.Manages machine (played script)
        ∧ console.PlaysOut script (console.run machine script)
      ∨ ∃ before text later, script = before ++ .line text :: later
        ∧ console.IsCutAt machine before text later (console.run machine script) := by
  induction script generalizing console with
  | nil => exact .inl ⟨manages_nil _ _, rfl, rfl, rfl, [], rfl, rfl, shown_nil console⟩
  | cons event script ih =>
    cases hends : event.ends with
    | true =>
      have hplayed : played (event :: script) = [] := played_cons_of_ends hends
      rw [run, step_of_ends hends]
      refine .inl ⟨?_, rfl, ?_, ?_, [], rfl, rfl, ?_⟩
      · rw [hplayed]
        exact manages_nil console machine
      · rw [hplayed]
        rfl
      · rw [hplayed]
        rfl
      · rw [hplayed]
        exact shown_nil console
    | false =>
      cases hshortage : console.shortageAt? machine event with
      | some shortage =>
        obtain ⟨text, rfl, hstep⟩ := step_of_shortage hshortage
        rw [run, hstep]
        exact .inr ⟨[], text, script, rfl, manages_nil _ _, nofun, ⟨shortage, hshortage, rfl⟩, rfl,
          rfl, shown_nil console⟩
      | none =>
        obtain ⟨hnext, entry, hstep, hentry⟩ := exists_step_of_managed h hends hshortage
        rw [run, hstep]
        rcases ih hnext with ⟨hmanages, hplays⟩ | ⟨before, text, later, rfl, hcut⟩
        · refine .inl ⟨?_, hplays.cons hends hentry⟩
          rw [played_cons hends]
          exact manages_cons.mpr ⟨hshortage, hmanages⟩
        · exact .inr ⟨event :: before, text, later, rfl, hcut.cons hshortage hends hentry⟩

/-- A run that is cut short at a line has a line among those played that is not managed. -/
theorem IsCutAt.not_manages {before later : List Event} {text : String} {run : Run}
    (h : console.IsCutAt machine before text later run) :
    ¬ console.Manages machine (played (before ++ .line text :: later)) := by
  obtain ⟨-, hbefore, ⟨shortage, hshortage, -⟩, -⟩ := h
  have hends : Event.ends (.line text) = false := by
    by_contra hends
    have hstep : (console.after before).step machine (.line text) = .ends _ :=
      step_of_ends (Bool.eq_true_of_not_eq_false hends)
    obtain ⟨_, -, hcut⟩ := step_of_shortage hshortage
    cases hstep.symm.trans hcut
  have hplayed : played (before ++ .line text :: later)
      = before ++ .line text :: played later := by
    rw [played, List.takeWhile_append_of_pos fun event hevent => by rw [hbefore event hevent]; rfl]
    exact congrArg (before ++ ·) (played_cons hends)
  intro hmanages
  have hnone := hmanages before.length (.line text) (by rw [hplayed]; simp)
  rw [hplayed, List.take_left] at hnone
  cases hshortage.symm.trans hnone

/-! ## Machines that are large enough -/

theorem exists_shortage?_eq_none (console : Console) (line : String) :
    ∃ size, ∀ machine : Machine, machine.HasSize size →
      console.shortage? machine line = none := by
  unfold shortage?
  cases Line.ofText line.toList with
  | calculation text => exact console.session.exists_shortage?_eq_none _
  | assign name text => exact console.session.exists_shortage?_eq_none text
  | showVariables =>
    have hshows (bindings : Bindings) : ∃ size, ∀ machine : Machine, machine.HasSize size →
        bindings.all (machine.shows ·.2) = true := by
      induction bindings with
      | nil => exact ⟨0, fun _ _ => rfl⟩
      | cons binding bindings ih =>
        obtain ⟨n, hn⟩ := Session.exists_shows binding.2
        obtain ⟨m, hm⟩ := ih
        refine ⟨max n m, fun machine hsize => ?_⟩
        rw [List.all_cons, hn machine (hsize.mono (le_max_left n m)),
          hm machine (hsize.mono (le_max_right n m))]
        rfl
    obtain ⟨size, hsize⟩ := hshows console.session.variables
    exact ⟨size, fun machine h => if_pos (hsize machine h)⟩
  | _ => exact ⟨0, fun _ _ => rfl⟩

/-- **Some machine manages any events**, and so does every larger one. -/
theorem exists_manages (console : Console) (events : List Event) :
    ∃ size, ∀ machine : Machine, machine.HasSize size → console.Manages machine events := by
  induction events generalizing console with
  | nil => exact ⟨0, fun machine _ => manages_nil console machine⟩
  | cons event events ih =>
    obtain ⟨n, hn⟩ := ih (console.after [event])
    obtain ⟨m, hm⟩ : ∃ size, ∀ machine : Machine, machine.HasSize size →
        console.shortageAt? machine event = none := by
      cases event with
      | line text =>
        obtain ⟨size, hsize⟩ := console.exists_shortage?_eq_none text
        refine ⟨size, fun machine h => ?_⟩
        rw [shortageAt?, hsize machine h, ite_self]
      | _ => exact ⟨0, fun _ _ => rfl⟩
    exact ⟨max n m, fun machine hsize => manages_cons.mpr
      ⟨hm machine (hsize.mono (le_max_right n m)), hn machine (hsize.mono (le_max_left n m))⟩⟩

/-- A console starts with a session in which nothing but zero is stored. -/
theorem exists_start (settings : Settings)
    (hprecision : settings.internalPrecision ≤ Context.maxPrecision) :
    ∃ console, start settings = .ok console ∧ console.session.IsFinite := by
  have hdigits : max settings.internalPrecision minPrecision ≤ Context.maxPrecision :=
    max_le hprecision (by decide)
  refine ⟨⟨settings, .empty (.working (max settings.internalPrecision minPrecision))⟩, ?_,
    Session.isFinite_empty _⟩
  rw [start, Session.start, Context.ofPrecision, if_pos hdigits]
  rfl

/-- **A run of the console**, for every script, every machine and all settings with a
precision that a context can have. The console starts, and at no time is the last answer or
a variable anything but a number.

The run is not cut short exactly if the machine manages what is played of the script, which
it does if it is large enough. The console is then left as the lines that are played leave
it, and the events behind the one that ends it are left; the screen shows the greeting, one
entry for each line and each line given up, in their order, and the farewell. On a machine
that is too small, the first line that is too much cuts the run short: this has happened up
to there, and nothing happens any more. -/
theorem run_spec (settings : Settings)
    (hprecision : settings.internalPrecision ≤ Context.maxPrecision) :
    ∃ console, start settings = .ok console
      ∧ (∀ events, (console.after events).session.IsFinite)
      ∧ (∀ machine script,
        ((console.run machine script).cut = none ↔ console.Manages machine (played script))
        ∧ (console.Manages machine (played script) →
          console.PlaysOut script (console.run machine script))
        ∧ (¬ console.Manages machine (played script) →
          ∃ before text later, script = before ++ .line text :: later
            ∧ console.IsCutAt machine before text later (console.run machine script)))
      ∧ ∀ script, ∃ size, ∀ machine : Machine, machine.HasSize size →
        console.Manages machine (played script) := by
  obtain ⟨console, hstart, hfinite⟩ := exists_start settings hprecision
  refine ⟨console, hstart, isFinite_after hfinite, fun machine script => ?_,
    fun script => console.exists_manages (played script)⟩
  rcases run_of_isFinite hfinite machine script with
    ⟨hmanages, hplays⟩ | ⟨before, text, later, rfl, hcut⟩
  · exact ⟨iff_of_true hplays.cut_eq hmanages, fun _ => hplays, fun h => absurd hmanages h⟩
  · refine ⟨iff_of_false ?_ hcut.not_manages, fun h => absurd h hcut.not_manages, fun _ =>
      ⟨before, text, later, rfl, hcut⟩⟩
    rw [hcut.cut_eq]
    exact nofun

/-- The console that starts with the initial settings. -/
def initial : Console := ⟨.initial, .empty (.working 50)⟩

/-- Leaving in capitals after a sum: what is typed behind it is never read. -/
theorem run_quit :
    let script : List Event := [.line "2+3", .cancel, .line ":QUIT", .line "4"]
    Settings.initial.internalPrecision ≤ Context.maxPrecision
      ∧ start .initial = .ok initial
      ∧ initial.Manages .usual (played script)
      ∧ initial.PlaysOut script (initial.run .usual script) := by
  intro script
  have hprecision : Settings.initial.internalPrecision ≤ Context.maxPrecision := by decide
  obtain ⟨console, hstart, -, hrun, -⟩ := run_spec Settings.initial hprecision
  obtain rfl : initial = console := Except.ok.inj hstart
  have hplayed : played script = [.line "2+3", .cancel] := by cbv
  have hmanages : initial.Manages .usual (played script) := by
    rw [hplayed]
    exact manages_cons.mpr ⟨by decide +kernel, manages_cons.mpr ⟨rfl, manages_nil _ _⟩⟩
  exact ⟨hprecision, hstart, hmanages, (hrun .usual script).2.1 hmanages⟩

/-- A one in a hundred and fifty parentheses is read as a calculation. -/
theorem ofText_nested : Line.ofText (nested 150) = .calculation (String.ofList (nested 150)) := by
  have htrim : trim (nested 150) = nested 150 := by decide +kernel
  have hcalculation : Line.ofText (nested 150) = .calculation (String.ofList (trim (nested 150))) :=
    Line.ofText_calculation (by rw [htrim]; decide) (by rw [htrim]; decide +kernel)
  rwa [htrim] at hcalculation

/-- **A one in a hundred and fifty parentheses** is too much for a usual machine, and so is a sum
with a hundred quadrillion digits. Either line cuts a run short, and no leave is taken. -/
theorem run_exhausted :
    start .initial = .ok initial
      ∧ initial.run .usual [.line (String.ofList (nested 150)), .close]
        = ⟨initial, [], [.close], initial.completions, some .exhausted⟩
      ∧ initial.run .usual [.line "1+(((((.1^100)^1000)^1000)^1000)^1000)^1000", .close]
        = ⟨initial, [], [.close], initial.completions, some .exhausted⟩ := by
  have hcut {line : String} (h : initial.shortageAt? .usual (.line line) = some .evaluating) :
      initial.run .usual [.line line, .close]
        = ⟨initial, [], [.close], initial.completions, some .exhausted⟩ := by
    obtain ⟨_, hline, hstep⟩ := step_of_shortage h
    rw [run, hstep]
    rfl
  refine ⟨rfl, hcut ?_, hcut (by decide +kernel)⟩
  have hblank : isBlankText (nested 150) = false := by decide +kernel
  have hclean : Search.clean (nested 150) = nested 150 := by decide +kernel
  have hnested : Machine.usual.evaluates initial.session (String.ofList (nested 150)) = false :=
    Machine.evaluates_nested (by decide)
  rw [shortageAt?, String.toList_ofList, hblank, if_neg Bool.false_ne_true, shortage?,
    String.toList_ofList, ofText_nested]
  dsimp only
  rw [String.toList_ofList, hclean, Machine.shortage?, hnested]
  rfl

end Reckoner.Console
