import Reckoner.Session.Basic

/-!
# Settings

What a user may choose about the calculator. The precision is the number of digits of quotients and
powers; whatever is chosen, at least `minPrecision` digits are used.
-/

namespace Reckoner

/-- **The settings** of the calculator. -/
structure Settings where
  /-- How many digits quotients and powers should have. -/
  decimalPrecision : Nat := 10
  /-- Whether results are shown with a unit suggestion. -/
  showUnitSuggestions : Bool := true
  /-- Whether the search bar walks through the history. -/
  enableHistoryNavigation : Bool := true
  /-- Whether the search bar shows results while a line is typed. -/
  showInlineResults : Bool := true
  /-- Whether thousands are separated by commas. -/
  enableCommaFormatting : Bool := true
deriving DecidableEq

namespace Settings

/-- The settings of a user who has chosen nothing. -/
def initial : Settings := {}

/-- **The precision that is used.** -/
def internalPrecision (settings : Settings) : Nat := max settings.decimalPrecision minPrecision

/-- "yes" or "no". -/
def yesNo (flag : Bool) : String := if flag then "yes" else "no"

/-- **The settings in words.** -/
def describe (settings : Settings) : String :=
  "Current settings:\n"
    ++ "  Decimal precision:    " ++ toString settings.decimalPrecision
    ++ " (internal " ++ toString settings.internalPrecision ++ ")\n"
    ++ "  Unit suggestions:     " ++ yesNo settings.showUnitSuggestions ++ "\n"
    ++ "  Comma formatting:     " ++ yesNo settings.enableCommaFormatting ++ "\n"
    ++ "  Inline results:       " ++ yesNo settings.showInlineResults ++ "\n"
    ++ "  History navigation:   " ++ yesNo settings.enableHistoryNavigation ++ "\n"
    ++ "  History size:         " ++ toString History.capacity ++ " (fixed)"

/-- **The text of a settings file.** -/
def fileText (settings : Settings) : String :=
  let entry (key value : String) : String := "    \"" ++ key ++ "\": " ++ value
  let flag (b : Bool) : String := if b then "true" else "false"
  "\x7b\n" ++ ",\n".intercalate [
      entry "decimal_precision" (toString settings.decimalPrecision),
      entry "show_unit_suggestions" (flag settings.showUnitSuggestions),
      entry "enable_history_navigation" (flag settings.enableHistoryNavigation),
      entry "show_inline_results" (flag settings.showInlineResults),
      entry "enable_comma_formatting" (flag settings.enableCommaFormatting)] ++ "\n\x7d"

end Settings

end Reckoner
