import Mathlib.Data.Nat.Notation
import Mathlib.Tactic.Common
import Reckoner.Proofs.Session.InPlace
import Reckoner.Search.Request

/-!
# Requests to a search bar, carried out in place

The operations of a search bar are functions from one bar to the next. A request runs
through its steps on the one bar there is. The bar after both is the same
(`Bar.serve_update` and its neighbours), with one exception: a look that is stopped,
because a value has no text, leaves the steps of a walk that come after it undone.

`Bar.Looked` lists what a look at a text can come to, and `Bar.Served` what a request
can. What holds of bars that are used for a while is proved by going through these
lists.
-/

namespace Reckoner.Search.Bar

variable {bar bar' : Bar} {input : String} {request : Request}

/-! ## Rows of steps -/

section Rows

variable {α β : Type} (bar : Bar)

/-- A row that begins by reading the bar. -/
theorem run_get_bind (f : Bar → Steps α) : (get >>= f).run.run bar = (f bar).run.run bar := rfl

/-- A row that begins with a change of the bar. -/
theorem run_modify_bind (f : Bar → Bar) (later : Steps α) :
    (modify f >>= fun _ => later).run.run bar = later.run.run (f bar) := rfl

/-- A row of two parts. The second is carried out unless the first is stopped. -/
theorem run_bind (first : Steps β) (later : β → Steps α) :
    (first >>= later).run.run bar
      = match first.run.run bar with
        | (.ok b, bar') => (later b).run.run bar'
        | (.error stop, bar') => (.error stop, bar') := by
  rw [ExceptT.run_bind, StateT.run_bind]
  cases first.run.run bar with
  | mk ended bar' => cases ended <;> rfl

/-- A row that ends without a reply. -/
theorem run_nothing (row : Steps Unit) :
    (row >>= fun _ => return Reply.nothing).run.run bar
      = ((row.run.run bar).1.map fun _ => .nothing, (row.run.run bar).2) := by
  rw [run_bind]
  cases row.run.run bar with
  | mk ended bar' => cases ended <;> rfl

end Rows

/-- A request to the session of a bar changes nothing but the session. -/
theorem run_ask (bar : Bar) (request : Session.Request) :
    (Steps.ask request).run.run bar
      = ((bar.session.serve request).1.mapError .fault,
          { bar with session := (bar.session.serve request).2 }) := by
  rw [Steps.ask, run_get_bind]
  cases bar.session.serve request with
  | mk outcome session => cases outcome <;> rfl

/-- A request to the session gives back what the session gives. -/
theorem run_reply_ask (bar : Bar) (request : Session.Request) :
    (Reply.ofValue <$> Steps.ask request).run.run bar
      = (((bar.session.serve request).1.mapError .fault).map Reply.ofValue,
          { bar with session := (bar.session.serve request).2 }) := by
  rw [ExceptT.run_map, StateT.run_map, run_ask]
  cases (bar.session.serve request).1 <;> rfl

/-! ## Looking at a text -/

/-- How the evaluation of a text ends: it is stopped if there is a value and the value
has no text. -/
def liveEnd (bar : Bar) (input : String) : Except Stop Unit :=
  match bar.session.compute (some input) with
  | .ok x =>
    if (x.grouped? bar.settings.enableCommaFormatting).isSome then .ok () else .error .noText
  | .error _ => .ok ()

/-- How a look at a text ends. -/
def lookEnd (bar : Bar) (input : String) : Except Stop Unit :=
  if input ≠ bar.lastInput ∧ bar.showsResultFor input then bar.liveEnd input else .ok ()

/-- A value that has a text is shown, and another one stops the row. -/
theorem run_showValue (bar : Bar) (hshown : bar.shown = none) (x : Decimal) :
    (Steps.showValue x).run.run bar
      = (if (x.grouped? bar.settings.enableCommaFormatting).isSome then .ok ()
          else .error .noText,
        { bar with shown := x.grouped? bar.settings.enableCommaFormatting }) := by
  rw [Steps.showValue, run_get_bind]
  cases x.grouped? bar.settings.enableCommaFormatting with
  | none => exact congrArg (fun shown => (Except.error Stop.noText, { bar with shown })) hshown
  | some shown => rfl

/-- **A live evaluation in place** is the operation `Bar.evaluateLive`, where nothing
is shown before. -/
theorem run_evaluateLive (input : String) (hshown : bar.shown = none) :
    (Steps.evaluateLive input).run.run bar = (bar.liveEnd input, bar.evaluateLive input) := by
  rw [Steps.evaluateLive, run_bind, ExceptT.run_tryCatch, StateT.run_bind, run_ask,
    Session.serve_evaluateQuietly, liveEnd, evaluateLive, Session.evaluateQuietly]
  cases bar.session.compute (some input) with
  | error fault => rfl
  | ok x => exact run_showValue { bar with session := { bar.session with answer := x } } hshown x

/-- Whether a result is shown for a text does not depend on the texts before it. -/
theorem showsResultFor_anew (bar : Bar) (input text : String) :
    (bar.anew input).showsResultFor text = bar.showsResultFor text := rfl

theorem liveEnd_anew (bar : Bar) (input text : String) :
    (bar.anew input).liveEnd text = bar.liveEnd text := by
  rw [liveEnd, liveEnd, anew]

theorem update_of_eq {text : Option String} (h : cleaned text = bar.lastInput) :
    bar.update text = bar := by
  rw [update]
  exact if_pos h

theorem update_of_ne {text : Option String} (h : cleaned text ≠ bar.lastInput) :
    bar.update text
      = if bar.showsResultFor (cleaned text) then
          (bar.anew (cleaned text)).evaluateLive (cleaned text)
        else bar.anew (cleaned text) := by
  rw [update, ← showsResultFor_anew bar (cleaned text)]
  exact if_neg h

/-- **A look in place** is the operation `Bar.update`. -/
theorem run_update (bar : Bar) (text : Option String) :
    (Steps.update text).run.run bar = (bar.lookEnd (cleaned text), bar.update text) := by
  rw [Steps.update, run_get_bind, lookEnd]
  by_cases hsame : cleaned text = bar.lastInput
  · rw [update_of_eq hsame, if_neg (not_not_intro hsame), if_neg fun h => h.1 hsame]
    rfl
  · rw [update_of_ne hsame, if_pos hsame, Steps.look, run_modify_bind, run_get_bind,
      showsResultFor_anew]
    by_cases hshows : bar.showsResultFor (cleaned text) = true
    · rw [if_pos hshows, if_pos hshows, if_pos ⟨hsame, hshows⟩, ← liveEnd_anew]
      exact run_evaluateLive (cleaned text) rfl
    · rw [if_neg hshows, if_neg hshows, if_neg fun h => hshows h.2]
      rfl

/-- A text with a value is looked at. -/
theorem update_of_compute {text : Option String} {x : Decimal}
    (hnew : cleaned text ≠ bar.lastInput) (hshows : bar.showsResultFor (cleaned text) = true)
    (hx : bar.session.compute (some (cleaned text)) = .ok x) :
    bar.update text
      = { bar with
          place := none, lastInput := cleaned text
          shown := x.grouped? bar.settings.enableCommaFormatting
          session := { bar.session with answer := x } } := by
  have hlive : (bar.anew (cleaned text)).session.evaluateQuietly (some (cleaned text))
      = .ok (x, { bar.session with answer := x }) := by
    rw [anew, Session.evaluateQuietly, hx]
    rfl
  rw [update_of_ne hnew, if_pos hshows, evaluateLive, hlive]
  rfl

/-- A text that shows no value, or has none, is looked at. -/
theorem update_of_no_value {text : Option String} (hnew : cleaned text ≠ bar.lastInput)
    (h : ∀ x, bar.showsResultFor (cleaned text) = true →
      bar.session.compute (some (cleaned text)) ≠ .ok x) :
    bar.update text = bar.anew (cleaned text) := by
  rw [update_of_ne hnew]
  split
  · next hshows =>
    cases hx : bar.session.compute (some (cleaned text)) with
    | ok x => exact absurd hx (h x hshows)
    | error fault =>
      have hlive : (bar.anew (cleaned text)).session.evaluateQuietly (some (cleaned text))
          = .error fault := by
        rw [anew, Session.evaluateQuietly, hx]
        rfl
      rw [evaluateLive, hlive]
      rfl
  · rfl

/-- **What a look at a text can come to**, as a relation between a bar, the text and the
bar after it. -/
inductive Looked (bar : Bar) (input : String) : Bar → Prop
  /-- The text was looked at before. -/
  | same (h : input = bar.lastInput) : Looked bar input bar
  /-- The text shows no value, or has none. -/
  | hidden (hnew : input ≠ bar.lastInput)
      (h : ∀ x, bar.showsResultFor input = true → bar.session.compute (some input) ≠ .ok x) :
      Looked bar input (bar.anew input)
  | evaluated {x : Decimal} (hnew : input ≠ bar.lastInput)
      (hshows : bar.showsResultFor input = true)
      (hx : bar.session.compute (some input) = .ok x) :
      Looked bar input
        { bar with
          place := none, lastInput := input
          shown := x.grouped? bar.settings.enableCommaFormatting
          session := { bar.session with answer := x } }

/-- **Every look comes to one of these.** -/
theorem looked (bar : Bar) (text : Option String) :
    Looked bar (cleaned text) (bar.update text) := by
  by_cases hsame : cleaned text = bar.lastInput
  · rw [update_of_eq hsame]
    exact .same hsame
  · by_cases hvalue : ∃ x, bar.showsResultFor (cleaned text) = true
        ∧ bar.session.compute (some (cleaned text)) = .ok x
    · obtain ⟨x, hshows, hx⟩ := hvalue
      rw [update_of_compute hsame hshows hx]
      exact .evaluated hsame hshows hx
    · rw [update_of_no_value hsame fun x hshows hx => hvalue ⟨x, hshows, hx⟩]
      exact .hidden hsame fun x hshows hx => hvalue ⟨x, hshows, hx⟩

/-- **A look at a text in place** is the operation `Bar.update`. -/
theorem serve_update (bar : Bar) (text : Option String) :
    bar.serve (.update text)
      = ((bar.lookEnd (cleaned text)).map fun _ => .text (cleaned text), bar.update text) := by
  rw [serve, Request.steps, run_bind, run_update]
  cases bar.lookEnd (cleaned text) <;> rfl

/-! ## Lines that are committed -/

/-- **The end of an operation**, for a bar that is changed in place: a fault leaves it
as it was. -/
def settle (bar : Bar) : Except Fault (Decimal × Bar) → Outcome × Bar
  | .ok (x, bar') => (.ok (.value x), bar')
  | .error fault => (.error (.fault fault), bar)

/-- **A calculation in place** is the operation `Bar.calculate`. -/
theorem serve_calculate (bar : Bar) (text : String) :
    bar.serve (.calculate text) = bar.settle (bar.calculate text) := by
  rw [serve, Request.steps, run_reply_ask, Session.serve_evaluate, calculate]
  cases bar.session.evaluate (some (cleaned (some text))) <;> rfl

/-- **Binding a variable to a line in place** is the operation `Bar.assignLine`. -/
theorem serve_setVariable_line (bar : Bar) (name line : String) :
    bar.serve (.setVariable name (.line line)) = bar.settle (bar.assignLine name line) := by
  rw [serve, Request.steps, run_reply_ask, Session.serve_setVariable_line, assignLine]
  cases bar.session.assignLine name line <;> rfl

/-! ## Walking the history -/

/-- **An entry is shown** by looking at what the field has made of it, and then the walk is put
at its place. -/
theorem exists_looked_showEntry (bar : Bar) (field : Field) (place : Option ℕ) (entry : String) :
    ∃ looking, Looked (bar.withEntry field entry) (cleaned (some (field.write entry).text)) looking
      ∧ bar.showEntry field place entry = { looking with place } :=
  ⟨_, looked (bar.withEntry field entry) _, rfl⟩

/-- An entry is written into the field and looked at. The place of the walk is put back
unless the look is stopped. -/
theorem run_showEntry (bar : Bar) (field : Field) (entry : String) :
    (Steps.showEntry field entry).run.run bar
      = match (bar.withEntry field entry).lookEnd (cleaned (some (field.write entry).text)) with
        | .ok _ => (.ok (), bar.showEntry field bar.place entry)
        | .error stop => (.error stop,
            (bar.withEntry field entry).update (some (field.write entry).text)) := by
  rw [Steps.showEntry, run_get_bind, run_modify_bind, run_bind, run_update, withEntry]
  cases lookEnd _ _ <;> rfl

theorem run_entryAt (bar : Bar) (history : History) (place : ℕ) :
    (Steps.entryAt history place).run.run bar
      = (history[place]?.elim (.error (.noEntry place)) .ok, bar) := by
  rw [Steps.entryAt]
  cases history[place]? <;> rfl

theorem run_walkTo (bar : Bar) (field : Field) (history : History) (place : ℕ) :
    (Steps.walkTo field history place).run.run bar
      = match history[place]? with
        | some entry =>
          (Steps.showEntry field entry).run.run { bar with place := some place }
        | none => (.error (.noEntry place), { bar with place := some place }) := by
  rw [Steps.walkTo, run_modify_bind, run_bind, run_entryAt]
  cases history[place]? <;> rfl

theorem run_walkOut (bar : Bar) (field : Field) :
    (Steps.walkOut field).run.run bar
      = (Steps.showEntry field "").run.run { bar with place := none } := by
  rw [Steps.walkOut, run_modify_bind]

/-- Where the walk was before does not matter to what is shown. -/
theorem showEntry_withPlace (bar : Bar) (before : Option ℕ) (field : Field)
    (place : Option ℕ) (entry : String) :
    showEntry { bar with place := before } field place entry
      = bar.showEntry field place entry := by
  rw [showEntry, showEntry, update, update]
  split
  · rfl
  · rfl

/-! ## What a request comes to -/

/-- A history that can be walked is that of the session, and has an entry. -/
theorem of_walkable?_eq_some {field : Field} {history : History}
    (h : bar.walkable? = some (field, history)) :
    history = bar.session.history ∧ history ≠ [] := by
  rw [walkable?] at h
  split at h
  · split at h
    · next hwalks =>
      obtain ⟨-, rfl⟩ := Prod.mk.inj (Option.some.inj h)
      rw [Bool.and_eq_true, Bool.not_eq_true', List.isEmpty_eq_false_iff] at hwalks
      exact ⟨rfl, hwalks.2⟩
    · cases h
  · cases h

end Reckoner.Search.Bar

namespace Reckoner.Search

/-- The request to the session that a request to the bar consists of, if it does. -/
def Request.session? : Request → Option Session.Request
  | .calculate text => some (.evaluate (some (Bar.cleaned (some text))))
  | .setVariable name value => some (.setVariable name value)
  | _ => none

/-- Whether a request is a step through the history. -/
def Request.walks : Request → Bool
  | .back | .forth => true
  | _ => false

namespace Bar

variable {bar bar' : Bar} {request : Request}

/-- **What a request can come to**, as a relation between a bar, the request, its
outcome and the bar after it. -/
inductive Served (bar : Bar) : Request → Outcome → Bar → Prop
  | updated (text : Option String) :
      Served bar (.update text) ((bar.lookEnd (cleaned text)).map fun _ => .text (cleaned text))
        (bar.update text)
  | asked {request : Request} {inner : Session.Request} (h : request.session? = some inner) :
      Served bar request (((bar.session.serve inner).1.mapError .fault).map Reply.ofValue)
        { bar with session := (bar.session.serve inner).2 }
  /-- There is nothing to walk, or no walk to go on with. -/
  | rested {request : Request} (h : request.walks = true) : Served bar request (.ok .nothing) bar
  /-- The walk comes to a place of the history, or to its end. -/
  | walked {request : Request} {field : Field} {place : Option ℕ} {entry : String}
      (h : request.walks = true) (hplace : ∀ i ∈ place, i < bar.session.history.length) :
      Served bar request (.ok .nothing) (bar.showEntry field place entry)
  /-- The entry the walk comes to has a value without a text. -/
  | walkStopped {request : Request} {field : Field} {place : Option ℕ} {entry : String}
      (h : request.walks = true) (hplace : ∀ i ∈ place, i < bar.session.history.length) :
      Served bar request (.error .noText)
        ((withEntry { bar with place } field entry).update (some (field.write entry).text))
  /-- The history has become shorter than the walk supposes. -/
  | lost {i : ℕ} (hplace : bar.place = some i) (hlost : bar.session.history.length ≤ i - 1) :
      Served bar .back (.error (.noEntry (i - 1))) { bar with place := some (i - 1) }
  | cleared : Served bar .clearHistory (.ok .nothing) bar.clearHistory
  | reset : Served bar .reset (.ok .nothing) bar.reset
  | changed (field : Field) :
      Served bar (.changeField field) (.ok .nothing)
        { bar with field := bar.field.map fun _ => field }

/-- A look is stopped for one reason only. -/
theorem lookEnd_eq_error {input : String} {stop : Stop} (h : bar.lookEnd input = .error stop) :
    stop = .noText := by
  rw [lookEnd] at h
  split at h
  · rw [liveEnd] at h
    split at h
    · split at h
      · cases h
      · exact (Except.error.inj h).symm
    · cases h
  · cases h

/-- An entry that is shown belongs to a step of a walk. -/
theorem served_showEntry (bar : Bar) (hwalks : request.walks = true) (field : Field)
    (place : Option ℕ) (entry : String) (hplace : ∀ i ∈ place, i < bar.session.history.length) :
    Served bar request
      (((Steps.showEntry field entry).run.run { bar with place }).1.map fun _ => .nothing)
      ((Steps.showEntry field entry).run.run { bar with place }).2 := by
  rw [run_showEntry]
  split
  · next hend =>
    rw [showEntry_withPlace]
    dsimp only [Except.map]
    exact .walked hwalks hplace
  · next stop hend =>
    obtain rfl := lookEnd_eq_error hend
    dsimp only [Except.map]
    exact .walkStopped hwalks hplace

theorem served_walkTo (bar : Bar) (hwalks : request.walks = true) (field : Field) {place : ℕ}
    (hplace : place < bar.session.history.length) :
    Served bar request
      (((Steps.walkTo field bar.session.history place).run.run bar).1.map fun _ => .nothing)
      ((Steps.walkTo field bar.session.history place).run.run bar).2 := by
  rw [run_walkTo, List.getElem?_eq_getElem hplace]
  refine served_showEntry bar hwalks field (some place) _ ?_
  rintro _ ⟨⟩
  exact hplace

/-- **Every request comes to one of these.** -/
theorem served (bar : Bar) (request : Request) :
    Served bar request (bar.serve request).1 (bar.serve request).2 := by
  cases request with
  | update text =>
    rw [serve_update]
    dsimp only
    exact .updated text
  | calculate text =>
    rw [serve, Request.steps, run_reply_ask]
    dsimp only
    exact .asked rfl
  | setVariable name value =>
    rw [serve, Request.steps, run_reply_ask]
    dsimp only
    exact .asked rfl
  | back =>
    rw [serve, Request.steps, run_nothing, Steps.back, run_get_bind]
    dsimp only
    split
    · next field history hwalk hplace =>
      obtain ⟨rfl, hne⟩ := of_walkable?_eq_some hwalk
      exact served_walkTo bar rfl field (Nat.sub_one_lt (mt List.length_eq_zero_iff.mp hne))
    · next field history i hwalk hplace =>
      obtain ⟨rfl, hne⟩ := of_walkable?_eq_some hwalk
      by_cases hlost : bar.session.history.length ≤ i - 1
      · rw [run_walkTo, List.getElem?_eq_none hlost]
        exact .lost hplace hlost
      · exact served_walkTo bar rfl field (Nat.lt_of_not_le hlost)
    · exact .rested rfl
  | forth =>
    rw [serve, Request.steps, run_nothing, Steps.forth, run_get_bind]
    dsimp only
    split
    · next field history i hwalk hplace =>
      obtain ⟨rfl, hne⟩ := of_walkable?_eq_some hwalk
      split
      · next hnext => exact served_walkTo bar rfl field hnext
      · rw [run_walkOut]
        exact served_showEntry bar rfl field none "" nofun
    · exact .rested rfl
  | clearHistory => exact .cleared
  | reset => exact .reset
  | changeField field => exact .changed field

end Bar

end Reckoner.Search
