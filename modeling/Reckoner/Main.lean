import Reckoner.Launch.Basic
import Reckoner.Outer.Lax

/-!
# The program

The outer layer: it asks the system for arguments, environment, files and typed lines, and shows
what the library answers. Nothing is decided here.
-/

namespace Reckoner

/-- What is at a path. -/
def inspectPath (path : String) : IO Storage := do
  try
    return .file (← IO.FS.readBinFile path).toList
  catch
    | .noFileOrDirectory .. => return .missing
    | .inappropriateType .. => return .directory
    | _ => return .blocked

/-- The directory that a path in its one form lies in. -/
def parentPath (path : String) : String :=
  let parent := (path.toList.reverse.dropWhile (· != '/')).drop 1
  if parent.isEmpty then "." else String.ofList parent.reverse

/-- Write what has come to be at a path, as far as the system allows it. -/
def writeStorage (path : String) : Storage → IO Unit
  | .file octets => do
    try
      IO.FS.createDirAll (parentPath path)
      IO.FS.writeBinFile path ⟨octets.toArray⟩
    catch _ => IO.eprintln ("cannot write " ++ path)
  | _ => return

/-- The machine that the program runs on. -/
def machine : Machine := .usual

/-- The next event at the prompt. -/
def readEvent : IO Console.Event := do
  IO.print "> "
  (← IO.getStdout).flush
  let typed ← (← IO.getStdin).getLine
  return if typed.isEmpty then .close else .line (typed.dropEndWhile (· == '\n')).toString

/-- Take one step after another until the console ends or is cut short. -/
partial def converse (console : Console) : IO Unit := do
  match console.step machine (← readEvent) with
  | .waits next entry => do
    entry.forM IO.println
    converse next
  | .ends _ => IO.println Console.farewell
  | .cut _ .notShown => throw (IO.userError "a value has no text")
  | .cut _ .exhausted => throw (IO.userError "the line is too much for the machine")

end Reckoner

open Reckoner in
/-- The program: start the console and answer lines. -/
def main (arguments : List String) : IO UInt32 := do
  match Launch.Options.ofArguments arguments with
  | .error stop =>
    IO.eprintln "usage: [-h] [--config CONFIG] [--precision PRECISION]"
    return stop.exitCode.toUInt32
  | .ok options =>
    let path := Launch.settingsPath options (← IO.getEnv "CALCULATOR_CONFIG")
    let before ← inspectPath path
    let launched := Launch.startConsole Lax.loader options (← IO.getEnv "CALC_LOG_LEVEL") before
    if let .missing := before then
      writeStorage path launched.storage
    match launched.result with
    | .error _ => return 1
    | .ok console =>
      IO.println Console.greeting
      converse console
      return 0
