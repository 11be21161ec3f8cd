import Reckoner.Unicode.Case

/-!
# Help pages

The pages that the console shows. A page is asked for by its name in any letter case; an unknown
name gives the main page.
-/

namespace Reckoner.Console

/-- **The help pages.** -/
inductive Page where
  | main
  | operators
  | functions
  | units
  | variables
  | examples
  | config
deriving DecidableEq

namespace Page

/-- Every page. -/
def all : List Page :=
  [.main, .operators, .functions, .units, .variables, .examples, .config]

/-- The name of a page. -/
def name : Page → String
  | main => "main"
  | operators => "operators"
  | functions => "functions"
  | units => "units"
  | .variables => "variables"
  | examples => "examples"
  | config => "config"

/-- **The text of a page.** -/
def text : Page → String
  | main =>
    "Calculator help\n"
      ++ "Type an expression to calculate it, e.g. 10m/64 or 2.5k*3.\n"
      ++ "Commands:\n"
      ++ "  :hist                 show calculation history\n"
      ++ "  :clear                clear calculation history\n"
      ++ "  :set <var> <expr>     store a variable\n"
      ++ "  :vars                 list variables\n"
      ++ "  :config               show current settings\n"
      ++ "  :exit                 exit\n"
      ++ "Help pages: :help operators | functions | units | variables | examples | config\n"
  | operators =>
    "Operators (high -> low precedence):\n"
      ++ "  ^          power (right-assoc: 2^3^2 == 2^(3^2)), integer exponents up to 1000\n"
      ++ "  - +        unary sign\n"
      ++ "  * x / %    multiply, divide, remainder ('x' works as multiply: 10x5, (2+3)x4)\n"
      ++ "  + -        add, subtract\n"
      ++ "Parentheses group: (2+3)*4 -> 20\n"
      ++ "Adding, subtracting and multiplying are exact; division keeps at least 50 digits.\n"
  | functions =>
    "Functions (one argument each):\n"
      ++ "  sqrt(x)    square root          sqrt(144) -> 12\n"
      ++ "  abs(x)     absolute value       abs(-5) -> 5\n"
      ++ "  floor(x)   round down           floor(2.7) -> 2\n"
      ++ "  ceil(x)    round up             ceil(2.1) -> 3\n"
      ++ "  round(x)   round half up        round(2.5) -> 3\n"
      ++ "Functions combine: sqrt(abs(-16)) + round(2.4) -> 6\n"
  | units =>
    "Units (written right after a number):\n"
      ++ "  Currency:  k = 1,000   m = 1,000,000   b = 1,000,000,000   t = 1,000,000,000,000\n"
      ++ "  Items:     s = 64 (stack)   e = 160 (enchanted)\n"
      ++ "  Storage:   h = sc = 1,728 (shulker / small chest)   dc = 3,456 (double chest)"
      ++ "   eb = 2,880 (ender chest)\n"
      ++ "Examples: 5k -> 5,000   2.5m -> 2,500,000   3s -> 192   10bx50k -> 500,000,000,000,000\n"
  | .variables =>
    "Variables:\n"
      ++ "  ans        result of the last calculation: 5*5 then ans*2 -> 50\n"
      ++ "  $name      custom variable, set with :set name <expr>\n"
      ++ "Examples:\n"
      ++ "  :set price 2.5m\n"
      ++ "  $price*64\n"
  | examples =>
    "Examples:\n"
      ++ "  Auction profit:   1.2m*0.98 - 1m\n"
      ++ "  Items to stacks:  1000/64\n"
      ++ "  Bulk buying:      3dc*45\n"
      ++ "  Budget split:     50m/3\n"
      ++ "  With ans:         2.5k*3 then ans/2\n"
  | config =>
    "Configuration:\n"
      ++ "  Settings are read from notenoughcalculator.json (or $CALCULATOR_CONFIG).\n"
      ++ "  Keys: decimal_precision, show_unit_suggestions, enable_history_navigation,\n"
      ++ "        show_inline_results, enable_comma_formatting\n"
      ++ "  :config shows the current values.\n"

end Page

/-- **The page that is asked for.** -/
def helpPage (name : String) : Page :=
  (Page.all.find? (·.name == Unicode.lowerText name)).getD .main

/-- The text of the page that is asked for; without a name it is the main page. -/
def helpText : Option String → String
  | none => Page.main.text
  | some name => (helpPage name).text

end Reckoner.Console
