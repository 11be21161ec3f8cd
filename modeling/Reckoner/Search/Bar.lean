import Reckoner.Search.Detection
import Reckoner.Settings.Basic

/-!
# The search bar

The search bar belongs to a host that calls it whenever the text in its field has changed. If the
text is a complete calculation its value is shown beside the field; errors are not shown, since the
text may still be under way. The host may also step back and forth through the history: the bar then
writes an entry into the field itself.

The place in the history is an index, or nothing while the history is not being walked. Text that
the user types ends a walk, text that the bar writes does not (`showEntry`).
-/

namespace Reckoner.Search

/-- **The field of the host**: its text, and what it makes of a text that is written into it. -/
structure Field where
  text : String
  /-- What the field stores of a text; it may, for instance, cut a long one. -/
  accept : String → String

namespace Field

/-- Write a text into the field. -/
def write (field : Field) (text : String) : Field := { field with text := field.accept text }

/-- A field that stores what it is given. -/
def plain (text : String) : Field := ⟨text, id⟩

/-- A field that keeps the first `limit` characters of what it is given. -/
def limited (text : String) (limit : Nat) : Field :=
  ⟨text, fun s => String.ofList (s.toList.take limit)⟩

end Field

/-- **A search bar.** -/
structure Bar where
  settings : Settings
  /-- The field of the host, if it has one. -/
  field : Option Field
  session : Session
  /-- The text that was last looked at, cleaned. -/
  lastInput : String
  /-- The result that is shown for it, if any. -/
  shown : Option String
  /-- The entry of the history that was last written into the field, while it is being walked. -/
  place : Option Nat

namespace Bar

/-- A new search bar. -/
def start (settings : Settings) (field : Option Field) : Except PrecisionFault Bar :=
  (Session.start settings.internalPrecision).map fun session =>
    ⟨settings, field, session, "", none, none⟩

/-- A text without what is invisible in it; no text is an empty one. -/
def cleaned (text : Option String) : String := String.ofList (clean (text.getD "").toList)

/-- Whether a result is shown for a text. -/
def showsResultFor (bar : Bar) (text : String) : Bool :=
  bar.settings.showInlineResults && looksLikeCalculation text.toList && isComplete text.toList

/-- Evaluate a text quietly and show its value; a fault is not shown. -/
def evaluateLive (bar : Bar) (text : String) : Bar :=
  match bar.session.evaluateQuietly (some text) with
  | .ok (x, session) =>
    { bar with session, shown := x.grouped? bar.settings.enableCommaFormatting }
  | .error _ => { bar with shown := none }

/-- **Look at the text of the field.** Nothing happens if it is the text that was last looked at. -/
def update (bar : Bar) (text : Option String) : Bar :=
  let input := cleaned text
  if input = bar.lastInput then bar
  else
    let bar := { bar with place := none, lastInput := input, shown := none }
    if bar.showsResultFor input then bar.evaluateLive input else bar

/-- Whether a result is shown. -/
def hasResult (bar : Bar) : Bool := bar.shown.isSome

/-- **Commit a calculation.** -/
def calculate (bar : Bar) (text : String) : Except Fault (Decimal × Bar) :=
  (bar.session.evaluate (some (cleaned (some text)))).map fun (x, session) =>
    (x, { bar with session })

/-- Bind a variable to the value of a line, which is committed. -/
def assignLine (bar : Bar) (name line : String) : Except Fault (Decimal × Bar) :=
  (bar.session.assignLine name line).map fun (x, session) => (x, { bar with session })

/-! ## Walking the history -/

/-- The field, and the history, if this can be walked: that has to be enabled, there has to be a
field, and the history must not be empty. -/
def walkable? (bar : Bar) : Option (Field × History) :=
  match bar.field with
  | some field =>
    if bar.settings.enableHistoryNavigation && !bar.session.history.isEmpty then
      some (field, bar.session.history)
    else none
  | none => none

/-- **Write a text into the field** and look at what the field has made of it. The walk goes on at
`place`. -/
def showEntry (bar : Bar) (field : Field) (place : Option Nat) (text : String) : Bar :=
  let field := field.write text
  { ({ bar with field := some field }).update (some field.text) with place }

/-- The bar with an entry written into its field. -/
def withEntry (bar : Bar) (field : Field) (entry : String) : Bar :=
  { bar with field := some (field.write entry) }

/-! ## Starting over -/

/-- Forget the history and end the walk. -/
def clearHistory (bar : Bar) : Bar :=
  { bar with session := bar.session.clearHistory, place := none }

/-- Forget what is shown and end the walk, as when the host is closed. -/
def reset (bar : Bar) : Bar := { bar with lastInput := "", shown := none, place := none }

end Bar

end Reckoner.Search
