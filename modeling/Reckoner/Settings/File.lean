import Reckoner.Settings.Basic
import Reckoner.Settings.Json
import Reckoner.Text.Utf8

/-!
# The settings file

Settings are loaded when the calculator starts. If nothing exists at the path a file with the
initial settings is written there; a file that cannot be understood is left alone and the initial
settings are used. Three mistakes are not taken for that and stop the calculator: octets that are no
UTF-8, an integer of more than `maxIntegerDigits` digits, and arrays and objects that are nested too
deep.

How the values in a document are understood is not decided here, nor how deep they may be nested:
both come from outside (`Loader`). What is decided is what becomes of them.

What is at the path is a value (`Storage`), and loading gives what is there afterwards, so "nothing
is changed" can be said of the function itself.
-/

namespace Reckoner

/-! ## Entries -/

/-- **The entries of a settings file**, each a value of its type. -/
structure Entries where
  decimalPrecision : Int := 10
  showUnitSuggestions : Bool := true
  enableHistoryNavigation : Bool := true
  showInlineResults : Bool := true
  enableCommaFormatting : Bool := true
deriving DecidableEq

namespace Entries

/-- The entries of a file with nothing in it. -/
def initial : Entries := {}

/-- **The settings of entries.** A negative precision is refused. -/
def settings? (entries : Entries) : Option Settings :=
  if entries.decimalPrecision < 0 then none
  else
    some {
      decimalPrecision := entries.decimalPrecision.toNat
      showUnitSuggestions := entries.showUnitSuggestions
      enableHistoryNavigation := entries.enableHistoryNavigation
      showInlineResults := entries.showInlineResults
      enableCommaFormatting := entries.enableCommaFormatting }

end Entries

/-- **What loading takes from outside**, as parameters. -/
structure Loader where
  /-- How deep arrays and objects of a document may be nested in each other. -/
  nesting : Nat
  nesting_pos : 0 < nesting
  /-- The entries that a document gives, unless a value in it cannot be understood. -/
  validate : JsonValue → Option Entries

/-! ## Records -/

/-- Who writes a record into the log. -/
inductive LogSource where
  | settings
  | console
deriving DecidableEq

/-- **How serious a record is.** -/
inductive Severity where
  | info
  | warning
deriving DecidableEq

/-- A record of the log, without its text. -/
structure LogRecord where
  source : LogSource
  severity : Severity
deriving DecidableEq

/-! ## Files -/

/-- **What is at a path.** -/
inductive Storage where
  /-- A file with these octets. -/
  | file (octets : List UInt8)
  /-- Nothing, in a place where a file may be created. -/
  | missing
  /-- A directory. -/
  | directory
  /-- Nothing, below something that is no directory. -/
  | blocked

/-- **Why loading stops the calculator.** -/
inductive LoadFault where
  /-- The file is not encoded in UTF-8. -/
  | notUtf8
  /-- An integer has too many digits. -/
  | longInteger
  /-- Arrays and objects are nested too deep. -/
  | tooDeep
deriving DecidableEq

/-- **What comes of loading**: the settings, the records, and what is at the path afterwards. -/
structure Loading where
  result : Except LoadFault Settings
  log : List LogRecord
  storage : Storage

namespace Settings

/-- The octets of a settings file. -/
def fileOctets (settings : Settings) : List UInt8 := Text.Utf8.encode settings.fileText.toList

/-- **Save settings**, if a file can be written at the path. -/
def save (settings : Settings) : Storage → Option Storage
  | .file _ | .missing => some (.file settings.fileOctets)
  | .directory | .blocked => none

/-- **The settings that the octets of a file hold**; `none` if they are to be ignored. -/
def ofOctets (loader : Loader) (octets : List UInt8) : Except LoadFault (Option Settings) :=
  match Text.Utf8.decode? octets with
  | none => .error .notUtf8
  | some cs =>
    match JsonValue.ofText loader.nesting cs with
    | .error .malformed => .ok none
    | .error .longInteger => .error .longInteger
    | .error .tooDeep => .error .tooDeep
    | .ok document => .ok ((loader.validate document).bind Entries.settings?)

/-- A record about the settings. -/
def logged (severity : Severity) : LogRecord := ⟨.settings, severity⟩

/-- **Load the settings** from a path. -/
def load (loader : Loader) (storage : Storage) : Loading :=
  match storage with
  | .missing =>
    match initial.save storage with
    | some written => ⟨.ok initial, [logged .info], written⟩
    | none => ⟨.ok initial, [logged .warning], storage⟩
  | .blocked | .directory => ⟨.ok initial, [logged .warning], storage⟩
  | .file octets =>
    match ofOctets loader octets with
    | .error fault => ⟨.error fault, [], storage⟩
    | .ok none => ⟨.ok initial, [logged .warning], storage⟩
    | .ok (some settings) => ⟨.ok settings, [logged .info], storage⟩

end Settings

end Reckoner
