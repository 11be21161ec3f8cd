import Reckoner.Search.Request
import Reckoner.Session.Machine

/-!
# A search bar and its machine

A committed line may be too much for the machine, and so may a text that is looked at, be it typed
or an entry of the history. The request then ends without an outcome of its own: what has been
changed up to there stays changed, and nothing that comes after it is done. In particular the place
of a walk is not put back behind a look that was cut short.

Whether that will happen is told beforehand (`Bar.short?`). If not, the request is carried out as on
a machine without limits (`Bar.serveOn`).
-/

namespace Reckoner.Search

/-- The line that a request commits, if it commits one. -/
def Request.committed? : Request → Option String
  | .calculate text => some (Bar.cleaned (some text))
  | .setVariable _ (.line text) => some text
  | _ => none

namespace Bar

/-- **Where a step through the history leads**: the field, the place the walk comes to, and the
entry there. At the end there is no place, and the entry is empty. -/
def step? (bar : Bar) (request : Request) : Option (Field × Option Nat × String) :=
  match request, bar.walkable?, bar.place with
  | .back, some (field, history), none =>
    some (field, some (history.length - 1), history.getD (history.length - 1) "")
  | .back, some (field, history), some i => some (field, some (i - 1), history.getD (i - 1) "")
  | .forth, some (field, history), some i =>
    if i + 1 < history.length then some (field, some (i + 1), history.getD (i + 1) "")
    else some (field, none, "")
  | _, _, _ => none

/-- **The text that a request looks at**, if it looks at one, and the bar at this time. -/
def look? (bar : Bar) : Request → Option (Bar × String)
  | .update text => some (bar, cleaned text)
  | request =>
    (bar.step? request).map fun (field, place, entry) =>
      (withEntry { bar with place } field entry, cleaned (some (field.write entry).text))

/-- **What a machine is too small for**, if anything, when a text is looked at. -/
def lookShortage? (bar : Bar) (machine : Machine) (input : String) : Option Shortage :=
  if input ≠ bar.lastInput ∧ bar.showsResultFor input then machine.shortage? bar.session input
  else none

/-- The bar that a look leaves behind for which the machine is too small. -/
def leftByLook (bar : Bar) (input : String) : Shortage → Bar
  | .evaluating => bar.anew input
  | .showing =>
    match bar.session.evaluateQuietly (some input) with
    | .ok (_, session) => { bar.anew input with session }
    | .error _ => bar.anew input

/-- **The bar that a request leaves behind** for which the machine is too small, if it is. -/
def short? (bar : Bar) (machine : Machine) (request : Request) : Option Bar :=
  match request.committed?, bar.look? request with
  | some line, _ => if machine.evaluates bar.session line then none else some bar
  | none, some (looking, input) =>
    (looking.lookShortage? machine input).map (looking.leftByLook input)
  | none, none => none

/-- **Carry out a request on a machine**: how it ends, if it comes to an end, and the bar after
it. -/
def serveOn (bar : Bar) (machine : Machine) (request : Request) : Option Outcome × Bar :=
  match bar.short? machine request with
  | some left => (none, left)
  | none => (some (bar.serve request).1, (bar.serve request).2)

/-- **The bar after requests** on a machine, however they end. -/
def afterOn (bar : Bar) (machine : Machine) (requests : List Request) : Bar :=
  requests.foldl (fun bar request => (bar.serveOn machine request).2) bar

end Bar

end Reckoner.Search
