import Reckoner.Search.Bar
import Reckoner.Session.Request

/-!
# Requests to a search bar

A host keeps one bar and makes requests to it, one after another. Like those to a session they are
carried out in place: each is a row of steps that read the bar or change it, and what has been
changed when the row is stopped stays changed.

Some steps are rows of their own. A step through the history looks at an entry as if it had been
typed, and what is typed ends a walk; so the place of the walk is kept aside meanwhile and put back
behind the look (`Steps.showEntry`). A value without a text stops the look, and then the place is
not put back.

Between two requests the field belongs to the host, which may do with it what it likes.
-/

namespace Reckoner.Search

/-- **What a host may ask of a search bar**, or do to its field. -/
inductive Request where
  /-- The text of the field has changed. -/
  | update (text : Option String)
  | calculate (text : String)
  | setVariable (name : String) (value : Session.Assigned)
  | back
  | forth
  | clearHistory
  | reset
  /-- The host changes its field, if there is one. The bar is not told. -/
  | changeField (field : Field)

/-- Why a request is stopped. -/
inductive Stop where
  /-- A line that was committed has a fault. -/
  | fault (fault : Fault)
  /-- A value is no number, so there is no text to show. -/
  | noText
  /-- The history has no entry at a place. -/
  | noEntry (place : Nat)
deriving DecidableEq

/-- What a host is given back. -/
inductive Reply where
  | nothing
  | text (input : String)
  | value (x : Decimal)
deriving DecidableEq

/-- How a request ends. -/
abbrev Outcome := Except Stop Reply

/-! ## Steps -/

/-- The bar where a new text is looked at: nothing is shown any more, and a walk is over. -/
def Bar.anew (bar : Bar) (input : String) : Bar :=
  { bar with place := none, lastInput := input, shown := none }

/-- **A row of steps** that read and change a search bar, and may be stopped. There is a bar after
it in either case. -/
abbrev Steps := ExceptT Stop (StateM Bar)

namespace Steps

/-- A request to the session of the bar. A fault stops the row. -/
def ask (request : Session.Request) : Steps (Option Decimal) := do
  let bar ← get
  let (outcome, session) := bar.session.serve request
  set { bar with session }
  match outcome with
  | .ok x => return x
  | .error fault => throw (.fault fault)

/-- A value is shown. One that has no text stops the row. -/
def showValue (x : Decimal) : Steps Unit := do
  match x.grouped? (← get).settings.enableCommaFormatting with
  | none => throw .noText
  | some shown => modify fun bar => { bar with shown := some shown }

/-- The value of a text is shown. A fault of the text is not, and does not stop the row. -/
def evaluateLive (text : String) : Steps Unit := do
  match ← tryCatch (ask (.evaluateQuietly (some text))) fun _ => return none with
  | none => modify fun bar => { bar with shown := none }
  | some x => showValue x

/-- A new text is looked at. -/
def look (input : String) : Steps Unit := do
  modify fun bar => bar.anew input
  if (← get).showsResultFor input then evaluateLive input

/-- The text of the field is looked at, unless it is the one that was last looked at. -/
def update (text : Option String) : Steps Unit := do
  if Bar.cleaned text ≠ (← get).lastInput then look (Bar.cleaned text)

/-- A text is written into the field, and what the field has made of it is looked at. The walk goes
on where it was. -/
def showEntry (field : Field) (text : String) : Steps Unit := do
  let place := (← get).place
  modify fun bar => { bar with field := some (field.write text) }
  update (some (field.write text).text)
  modify fun bar => { bar with place }

/-- The entry of the history at a place. -/
def entryAt (history : History) (place : Nat) : Steps String :=
  match history[place]? with
  | some entry => return entry
  | none => throw (.noEntry place)

/-- The walk comes to a place of the history, and the entry there is shown. -/
def walkTo (field : Field) (history : History) (place : Nat) : Steps Unit := do
  modify fun bar => { bar with place := some place }
  showEntry field (← entryAt history place)

/-- The walk comes to its end, and the field is empty. -/
def walkOut (field : Field) : Steps Unit := do
  modify fun bar => { bar with place := none }
  showEntry field ""

/-- One step back in the history. -/
def back : Steps Unit := do
  let bar ← get
  match bar.walkable?, bar.place with
  | some (field, history), none => walkTo field history (history.length - 1)
  | some (field, history), some i => walkTo field history (i - 1)
  | none, _ => return ()

/-- One step forth in the history. -/
def forth : Steps Unit := do
  let bar ← get
  match bar.walkable?, bar.place with
  | some (field, history), some i =>
    if i + 1 < history.length then walkTo field history (i + 1) else walkOut field
  | _, _ => return ()

end Steps

/-- The reply for what a session gives. -/
def Reply.ofValue : Option Decimal → Reply
  | none => .nothing
  | some x => .value x

/-- **The steps of a request.** -/
def Request.steps : Request → Steps Reply
  | .update text => do
    Steps.update text
    return .text (Bar.cleaned text)
  | .calculate text => Reply.ofValue <$> Steps.ask (.evaluate (some (Bar.cleaned (some text))))
  | .setVariable name value => Reply.ofValue <$> Steps.ask (.setVariable name value)
  | .back => do
    Steps.back
    return .nothing
  | .forth => do
    Steps.forth
    return .nothing
  | .clearHistory => do
    let _ ← Steps.ask .clearHistory
    modify fun bar => { bar with place := none }
    return .nothing
  | .reset => do
    modify Bar.reset
    return .nothing
  | .changeField field => do
    modify fun bar => { bar with field := bar.field.map fun _ => field }
    return .nothing

/-! ## Requests one after another -/

namespace Bar

/-- **Carry out a request**: how it ends, and the bar after it. -/
def serve (bar : Bar) (request : Request) : Outcome × Bar := request.steps.run.run bar

/-- **The bar after requests**, however they end. -/
def after (bar : Bar) (requests : List Request) : Bar :=
  requests.foldl (fun bar request => (bar.serve request).2) bar

end Bar

end Reckoner.Search
