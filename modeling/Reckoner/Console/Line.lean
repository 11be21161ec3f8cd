import Reckoner.Console.Help
import Reckoner.Unicode.Blank

/-!
# Lines of the console

A line that begins with a colon is a command; the word `help` may also stand without one. Every
other line is a calculation. What a line asks for is decided here, once; `Reckoner.Console.Basic`
carries it out.
-/

namespace Reckoner.Console

open Unicode

/-- **What a line asks for.** -/
inductive Line where
  /-- Evaluate a text and show it with its value. -/
  | calculation (text : String)
  /-- A colon with no command behind it. -/
  | noCommand
  /-- Leave the console. -/
  | leave
  /-- Show a help page. -/
  | help (page : Option String)
  /-- Show the history. -/
  | showHistory
  /-- Forget the history. -/
  | clearHistory
  /-- Show the variables. -/
  | showVariables
  /-- Show the settings. -/
  | showSettings
  /-- Bind a variable to the value of a text. -/
  | assign (name text : String)
  /-- An assignment without a name or a text. -/
  | badAssign
  /-- A command that does not exist. -/
  | unknown (command : String)
deriving DecidableEq

namespace Line

/-- A text, unless it is empty. -/
def nonempty? (text : List Char) : Option String :=
  if text.isEmpty then none else some (String.ofList text)

/-- An assignment. Dollar signs before the name do not belong to it. -/
def assignment (arguments : List Char) : Line :=
  match firstWord? arguments with
  | some (name, text) =>
    if text.isEmpty then .badAssign
    else .assign (String.ofList (name.dropWhile (· == '$'))) (String.ofList text)
  | none => .badAssign

/-- What a command asks for. -/
def ofCommand (command arguments : List Char) : Line :=
  match String.ofList (lower command) with
  | "exit" | "quit" => .leave
  | "help" => .help (nonempty? (trim arguments))
  | "hist" => .showHistory
  | "clear" => .clearHistory
  | "vars" => .showVariables
  | "config" => .showSettings
  | "set" => assignment arguments
  | _ => .unknown (String.ofList command)

/-- Whether a trimmed line is the word `help`, alone or before a space. -/
def asksForHelp (line : List Char) : Bool :=
  let small := lower line
  small == "help".toList || "help ".toList.isPrefixOf small

/-- **What a typed line asks for.** -/
def ofText (line : List Char) : Line :=
  match trim line with
  | ':' :: rest =>
    match firstWord? rest with
    | none => .noCommand
    | some (command, arguments) => ofCommand command arguments
  | text =>
    if asksForHelp text then .help (nonempty? (trim (text.drop 4)))
    else .calculation (String.ofList text)

end Line

end Reckoner.Console
