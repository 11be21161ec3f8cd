import Reckoner.Console.Line
import Reckoner.Search.Detection
import Reckoner.Session.Machine
import Reckoner.Settings.Basic

/-!
# The console

The console answers typed lines one after another. A calculation is committed and shown with its
value; a command shows or changes what the console keeps. The answer to a line is a `Reply`, unless
the line ends the console or its value cannot be shown (`Interruption`).

`Console.step` is what comes of one event at the prompt, a line or a key, on a given machine. A line
may ask for more than the machine has, and then nothing answers it: the console is cut short.
`Console.run` takes one step after another until the console ends. Its transcript is what appears on
the screen.
-/

namespace Reckoner

/-- **A console**: the settings it was started with, and its session. -/
structure Console where
  settings : Settings
  session : Session

namespace Console

/-- A new console. -/
def start (settings : Settings) : Except PrecisionFault Console :=
  (Session.start settings.internalPrecision).map fun session => ⟨settings, session⟩

/-- **The answer to a line**: whether it could be carried out, and what is shown. -/
structure Reply where
  ok : Bool
  text : String
deriving DecidableEq

/-- **Why a line has no answer.** -/
inductive Interruption where
  /-- The user leaves. -/
  | leave
  /-- A value is infinite or not a number, and has no text. -/
  | notShown
deriving DecidableEq

/-- The answer to a line, or why there is none. -/
abbrev Outcome := Except Interruption Reply

/-- How many entries of the history are shown at most. -/
def shownEntries : Nat := 10

/-- The answer of a line that could be carried out. -/
def done (text : String) : Outcome := .ok ⟨true, text⟩

/-- The answer of a line that could not be carried out. -/
def failed (text : String) : Outcome := .ok ⟨false, text⟩

/-- The text of a fault. -/
def faultText (fault : Fault) : String :=
  "Error: " ++ fault.message ++ " (at position " ++ toString fault.position ++ ")"

/-- A named value as it is shown. -/
def showValue (console : Console) (name : String) (x : Decimal) : Outcome :=
  match x.display? console.settings.showUnitSuggestions console.settings.enableCommaFormatting with
  | some text => done (name ++ " = " ++ text)
  | none => .error .notShown

/-- **The history as it is shown**: the newest entries with their numbers. -/
def historyText (history : History) : String :=
  if history.isEmpty then "No calculations in history"
  else
    let first := history.length - shownEntries
    let entries := (history.drop first).zipIdx (first + 1)
    let lines := entries.map fun (line, i) => "  " ++ toString i ++ ". " ++ line
    let note :=
      if shownEntries < history.length then
        ["(showing last " ++ toString shownEntries ++ " of " ++ toString history.length ++ ")"]
      else []
    "\n".intercalate ("Calculation history:" :: lines ++ note)

/-- **Commit a calculation.** The line is shown with its value. -/
def calculate (console : Console) (text : String) : Console × Outcome :=
  let input := String.ofList (Search.clean text.toList)
  match console.session.evaluate (some input) with
  | .ok (x, session) => ({ console with session }, console.showValue text x)
  | .error fault => (console, failed (faultText fault))

/-- **Bind a variable** to the value of a text, which is committed. -/
def assign (console : Console) (name text : String) : Console × Outcome :=
  match console.session.assignLine name text with
  | .ok (x, session) =>
    ({ console with session }, console.showValue ("$" ++ Unicode.lowerText name) x)
  | .error fault => (console, failed (faultText fault))

/-- **Carry out what a line asks for.** -/
def perform (console : Console) : Line → Console × Outcome
  | .calculation text => console.calculate text
  | .noCommand => (console, failed "No command specified. Use :help for available commands.")
  | .leave => (console, .error .leave)
  | .help page => (console, done (helpText page))
  | .showHistory => (console, done (historyText console.session.history))
  | .clearHistory => ({ console with session := console.session.clearHistory },
      done "History cleared")
  | .showVariables =>
    (console, match console.session.describeVariables? with
      | some text => done text
      | none => .error .notShown)
  | .showSettings => (console, done console.settings.describe)
  | .assign name text => console.assign name text
  | .badAssign => (console, done "Usage: :set <var> <expr>")
  | .unknown command => (console, done ("Unknown command: " ++ command))

/-- **Answer a typed line.** -/
def answer (console : Console) (line : String) : Console × Outcome :=
  console.perform (Line.ofText line.toList)

/-! ## Machines that are too small -/

/-- **What a machine is too small for**, if anything, when a line is to be answered. -/
def shortage? (console : Console) (machine : Machine) (line : String) : Option Shortage :=
  match Line.ofText line.toList with
  | .calculation text =>
    machine.shortage? console.session (String.ofList (Search.clean text.toList))
  | .assign _ text => machine.shortage? console.session text
  | .showVariables =>
    if console.session.variables.all (machine.shows ·.2) then none else some .showing
  | _ => none

/-- The console that a line leaves behind for which the machine is too small. What was to be shown
has been carried out. -/
def leftBy (console : Console) (line : String) : Shortage → Console
  | .evaluating => console
  | .showing => (console.answer line).1

/-! ## Events -/

/-- **What a user does at the prompt.** -/
inductive Event where
  /-- A line is typed. -/
  | line (text : String)
  /-- The line is given up. -/
  | cancel
  /-- The input ends. -/
  | close
deriving DecidableEq

/-- **Why a console is cut short.** -/
inductive Escape where
  /-- A value is infinite or not a number, and has no text. -/
  | notShown
  /-- The machine is too small. -/
  | exhausted
deriving DecidableEq

/-- **What comes of an event.** -/
inductive Step where
  /-- The console waits for the next event, and may have shown an entry. -/
  | waits (console : Console) (entry : Option String)
  /-- The console ends. -/
  | ends (console : Console)
  /-- The console is cut short. -/
  | cut (console : Console) (escape : Escape)

/-- **One event at the prompt.** A blank line is passed over. -/
def step (console : Console) (machine : Machine) : Event → Step
  | .close => .ends console
  | .cancel => .waits console (some "^C")
  | .line text =>
    if Unicode.isBlankText text.toList then .waits console none
    else
      match console.shortage? machine text with
      | some shortage => .cut (console.leftBy text shortage) .exhausted
      | none =>
        match console.answer text with
        | (next, .ok reply) => .waits next (some reply.text)
        | (next, .error .leave) => .ends next
        | (next, .error .notShown) => .cut next .notShown

/-! ## Scripts -/

/-- **The words that are offered for completion**: functions, units, the last answer, and the
variables. -/
def completions (console : Console) : List String :=
  Builtin.all.map (·.text) ++ UnitSuffix.all.map (·.text) ++ ["ans"]
    ++ console.session.variables.names.map ("$" ++ ·)

/-- The line that greets the user. -/
def greeting : String := "Calculator. Type :help for help. Ctrl-D or :exit to quit."

/-- The line that takes leave of the user. -/
def farewell : String := "Exiting."

/-- **How a run ends**: the console, the lines on the screen after the greeting, what is left of the
script, the words offered at the last prompt, and what has cut the run short, if anything has. -/
structure Run where
  console : Console
  screen : List String
  left : List Event
  offered : List String
  cut : Option Escape

namespace Run

/-- The run with an entry on the screen before it, if there is one. -/
def showing (entry : Option String) (run : Run) : Run :=
  { run with screen := entry.toList ++ run.screen }

/-- The text of the screen. -/
def transcript (run : Run) : String :=
  String.join ((greeting :: run.screen).map (· ++ "\n"))

end Run

/-- The run that ends here with a word of leave. -/
def finish (console : Console) (offered : List String) (left : List Event) : Run :=
  ⟨console, [farewell], left, offered, none⟩

/-- **Play a script**, step by step, until the console ends or is cut short. The end of the script
is the end of the input. -/
def run (console : Console) (machine : Machine) : List Event → Run
  | [] => finish console console.completions []
  | event :: events =>
    match console.step machine event with
    | .waits next entry => (run next machine events).showing entry
    | .ends next => finish next console.completions events
    | .cut next escape => ⟨next, [], events, console.completions, some escape⟩

end Console

end Reckoner
