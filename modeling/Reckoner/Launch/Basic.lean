import Reckoner.Console.Basic
import Reckoner.Launch.Arguments
import Reckoner.Settings.File
import Reckoner.Settings.Location

/-!
# Starting the calculator

The arguments are read first, then the level of the log, then the settings, on which a precision
from the arguments is imposed. The console is started last. Each step may end the start; the records
written up to there are kept.
-/

namespace Reckoner.Launch

/-! ## The level of the log -/

/-- The capital of a letter whose capital is one of the ASCII letters. -/
def capital (c : Char) : Char :=
  if c = 'ı' then 'I' else if c = 'ſ' then 'S' else c.toUpper

/-- The names of levels. -/
def levels : List (String × Nat) :=
  [("CRITICAL", 50), ("FATAL", 50), ("ERROR", 40), ("WARN", 30), ("WARNING", 30), ("INFO", 20),
    ("DEBUG", 10), ("NOTSET", 0)]

/-- The level that is used if none is named. -/
def initialLevel : Nat := 30

/-- **The level of the log**, given the name in the environment, and the records about it. An
unknown name is reported. -/
def logLevel (name : Option String) : Nat × List LogRecord :=
  match name with
  | none => (initialLevel, [])
  | some text =>
    match levels.lookup (String.ofList (text.toList.map capital)) with
    | some level => (level, [])
    | none => (initialLevel, [⟨.console, .warning⟩])

/-! ## The start -/

/-- **Why a start fails.** -/
inductive Failure where
  /-- An option is given without a value. -/
  | noValue
  /-- The settings stop the calculator. -/
  | load (fault : LoadFault)
  /-- No arithmetic has the precision. -/
  | precision (fault : PrecisionFault)
deriving DecidableEq

/-- **What comes of a start**: the console, the records, and what is at the path of the settings
afterwards. -/
structure Launched where
  result : Except Failure Console
  log : List LogRecord
  storage : Storage

/-- The settings with a precision imposed on them. A negative one counts as zero. -/
def imposePrecision (settings : Settings) (precision : Given Int) : Except Failure Settings :=
  match precision with
  | none => .ok settings
  | some none => .error .noValue
  | some (some n) => .ok { settings with decimalPrecision := n.toNat }

/-- **The path of the settings**, from the options or else from the environment. -/
def settingsPath (options : Options) (environment : Option String) : String :=
  match options.config with
  | some (some path) => Settings.normalPath path
  | _ => Settings.defaultPath environment

/-- **Load the settings**, unless their path is given without a value. -/
def loadSettings (loader : Loader) (options : Options) (storage : Storage) :
    Except Failure Settings × List LogRecord × Storage :=
  if options.config = some none then (.error .noValue, [], storage)
  else
    let loading := Settings.load loader storage
    (loading.result.mapError .load, loading.log, loading.storage)

/-- **Start the console** with options that were understood. -/
def startConsole (loader : Loader) (options : Options) (levelName : Option String)
    (storage : Storage) : Launched :=
  let (_, levelLog) := logLevel levelName
  let (loaded, loadLog, after) := loadSettings loader options storage
  let log := levelLog ++ loadLog
  match loaded.bind (imposePrecision · options.precision) with
  | .error failure => ⟨.error failure, log, after⟩
  | .ok settings =>
    ⟨(Console.start settings).mapError .precision, log ++ [⟨.console, .info⟩], after⟩

end Reckoner.Launch
