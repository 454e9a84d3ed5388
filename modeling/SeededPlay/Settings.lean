/-
# `SeededPlay.Settings` — what the environment decides

Four settings with defaults, and what a log level is called.  Rule texts are read
leniently unless the environment asks for strict reading.
-/
import SeededPlay.Numeric

namespace SeededPlay

structure Settings where
  /-- Whether rule texts outside the language are refused. -/
  strict : Bool := false
  /-- What stands before a code in an address. -/
  sharePrefix : String := "/play/"
  /-- How many samples a difficulty curve has. -/
  curvePoints : Int := 10
  logLevel : String := "INFO"
deriving DecidableEq, Repr, Inhabited

namespace Settings

/-- The settings of an environment that sets nothing. -/
def standard : Settings := {}

/-- Whether a text switches a setting on. -/
def isOn (s : String) : Bool := ["1", "true", "yes", "on"].contains (Text.lower (Text.trim s))

/-- The settings of an environment. -/
def ofEnvironment (env : Fields String) : Except Fault Settings := do
  let points ← match env.get? "SEEDFORGE_DIFFICULTY_POINTS" with
    | some s => Datum.toInt (.text s)
    | none => .ok standard.curvePoints
  return {
    strict := (env.get? "SEEDFORGE_STRICT_EXPRESSIONS").any isOn
    sharePrefix := env.getD "SEEDFORGE_SHARE_URL_PREFIX" standard.sharePrefix
    curvePoints := points
    logLevel := Text.upper (env.getD "SEEDFORGE_LOG_LEVEL" standard.logLevel) }

def dump (s : Settings) : Datum :=
  .record [("strict_expressions", .bool s.strict), ("share_url_prefix", .text s.sharePrefix),
    ("difficulty_curve_points", .int s.curvePoints), ("log_level", .text s.logLevel)]

end Settings

namespace Logging

/-- How a line of the log is laid out. -/
def lineFormat : String := "[%(asctime)s] %(levelname)s %(message)s"

/-- How the time of a line is written. -/
def timeFormat : String := "%H:%M:%S"

/-- The layout that logs have before any other is set. -/
def plainFormat : String := "%(levelname)s:%(name)s:%(message)s"

/-- The level of a word in any case; a word that means nothing is the level of plain
information.  Two words of logging mean something else and are refused. -/
def levelOf (word : String) : Except Fault Nat :=
  match Text.upper word with
  | "CRITICAL" => .ok 50
  | "FATAL" => .ok 50
  | "ERROR" => .ok 40
  | "WARNING" => .ok 30
  | "WARN" => .ok 30
  | "INFO" => .ok 20
  | "DEBUG" => .ok 10
  | "NOTSET" => .ok 0
  | "BASIC_FORMAT" => .error (.unknownLevel plainFormat)
  | "_STYLES" => .error .wrongKind
  | _ => .ok 20

/-- The level that a raw value asks for, the one of the settings if it asks for none. -/
def levelOfDatum (settings : Settings) (level : Datum) : Except Fault Nat :=
  if level.isPresent then
    match level with
    | .text s => levelOf s
    | _ => .error .noMembers
  else levelOf settings.logLevel

end Logging

end SeededPlay
