/-!
# Where the settings are

The path of the settings file may be chosen by the environment. Paths are written in one form: single
slashes between the parts, no part that is a point, no slash at the end. Two slashes at the front
are kept apart from one, since a system may give them a meaning; more than two are one. What is left
of nothing is a point.
-/

namespace Reckoner.Settings

/-- The parts of a path between slashes. -/
def pathParts (cs : List Char) : List (List Char) :=
  match cs with
  | [] => [[]]
  | c :: rest =>
    if c = '/' then [] :: pathParts rest
    else
      match pathParts rest with
      | part :: parts => (c :: part) :: parts
      | [] => [[c]]

/-- The slashes that a path begins with, in the form that is kept. -/
def pathRoot (cs : List Char) : String :=
  match (cs.takeWhile (· == '/')).length with
  | 0 => ""
  | 2 => "//"
  | _ => "/"

/-- **A path in its one form.** -/
def normalPath (path : String) : String :=
  let cs := path.toList
  let parts := (pathParts cs).filter fun part => !part.isEmpty && part != ['.']
  let text := pathRoot cs ++ "/".intercalate (parts.map String.ofList)
  if text = "" then "." else text

/-- The file that is used if nothing else is chosen. -/
def initialPath : String := "notenoughcalculator.json"

/-- **The path of the settings file**, given what the environment says. -/
def defaultPath (chosen : Option String) : String := normalPath (chosen.getD initialPath)

end Reckoner.Settings
