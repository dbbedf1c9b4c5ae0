-- The settings of a session: bus width, register preset, and the pause between the steps of a run.
import BusCycle.Bus.Transaction
import BusCycle.Config.Preset

namespace BusCycle

/-! ## Faults -/

/-- Why no file can be read at a path. It may also lead through a file as if that were a directory, or
have a name in it that is too long for any file. -/
inductive PathFault
  | missing
  | directory
  | throughFile
  | tooLong

/-- What a message says about a fault at a path. -/
def PathFault.message (path : String) (fault : PathFault) : String :=
  let cause := match fault with
    | missing => "[Errno 2] No such file or directory"
    | directory => "[Errno 21] Is a directory"
    | throughFile => "[Errno 20] Not a directory"
    | tooLong => "[Errno 36] File name too long"
  cause ++ ": " ++ Text.quoted path

/-- Why settings are refused. -/
inductive ConfigError
  | busWidth (given : Datum)
  | unknownPreset (given : Datum)
  | delayNotNumber (given : Datum)
  | delayNegative (given : Quantity)
  | unreadable (path : String) (fault : PathFault)
  | malformed (path : String)
  | notObject (path : String)
  | unknownKeys (keys : List String)

namespace ConfigError

/-- What a message says about a fault. -/
def message : ConfigError → String
  | busWidth given => "Bus width must be 8 or 16, got " ++ given.display
  | unknownPreset given =>
    "Unknown register preset '" ++ given.inserted ++ "' (known: " ++
      String.intercalate ", " (Preset.all.map Preset.name) ++ ")"
  | delayNotNumber given => "run_delay must be a number of seconds, got " ++ given.display
  | delayNegative given => "run_delay must be >= 0, got " ++ given.display
  | unreadable path fault => "Cannot read config " ++ path ++ ": " ++ fault.message path
  | malformed path => "Malformed config " ++ path
  | notObject path => "Config " ++ path ++ " must be a JSON object"
  | unknownKeys keys => "Unknown config keys: " ++ String.intercalate ", " keys

end ConfigError

/-! ## Checks -/

/-- A bus width as it was given, if it is 8 or 16. -/
def BusWidth.ofDatum (d : Datum) : Except ConfigError BusWidth :=
  let asReal := match d with
    | .number (.real _) => true
    | _ => false
  match d with
  | .number q =>
    if q.isNat 8 then .ok ⟨8, asReal⟩
    else if q.isNat 16 then .ok ⟨16, asReal⟩
    else .error (.busWidth d)
  | _ => .error (.busWidth d)

/-- A bus width that was checked is a whole number of lines. -/
def BusWidth.check (d : Datum) : Except ConfigError BusWidth :=
  (BusWidth.ofDatum d).map fun w => .ofInt w.lines

/-- The preset of a name. -/
def Preset.ofDatum (d : Datum) : Except ConfigError Preset :=
  match d with
  | .text name =>
    match Preset.ofName? name with
    | some p => .ok p
    | none => .error (.unknownPreset d)
  | _ => .error (.unknownPreset d)

/-- A pause in seconds: any number that is not below zero. -/
def delayOfDatum (d : Datum) : Except ConfigError Quantity :=
  match d with
  | .number q => if q.isNegative then .error (.delayNegative q) else .ok q
  | _ => .error (.delayNotNumber d)

/-! ## Settings -/

/-- The settings of a session. -/
structure Config where
  width : BusWidth
  preset : Preset
  delay : Quantity
  deriving DecidableEq

namespace Config

/-- The pause between steps unless something else is asked for: nine tenths of a second. -/
def defaultDelay : Binary64 := .ofDecimal false 9 (-1)

/-- The bus width unless something else is asked for. -/
def defaultWidth : Datum := .number (.whole 16)

/-- The preset unless something else is asked for. -/
def defaultPreset : Datum := .text Preset.classic.name

/-- Settings from data that may be of any kind. The first fault in the order of the fields wins. -/
def ofData (width preset delay : Datum) : Except ConfigError Config := do
  let width ← BusWidth.ofDatum width
  let preset ← Preset.ofDatum preset
  let delay ← delayOfDatum delay
  return ⟨width, preset, delay⟩

/-- The settings if nothing is asked for. -/
def default : Config := ⟨.ofInt 16, .classic, .real defaultDelay⟩

end Config

end BusCycle
