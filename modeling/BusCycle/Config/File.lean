-- Settings files: an object with up to three fields. Every field may be missing.
import BusCycle.Config.Basic
import BusCycle.Document.Reader

namespace BusCycle

/-! ## What may stand at a path -/

/-- What is found where a file is looked for. -/
inductive Entry
  | file (bytes : ByteArray)
  | unreadable (fault : PathFault)

/-- Why a settings file gives no settings. Some faults have no message of their own. -/
inductive ConfigFault
  | config (e : ConfigError)
  | zeroInPath
  | notText
  | tooDeep (n : Document.Nest)
  | delayTooGreat

namespace Config

/-! ## Fields -/

def fieldNames : List String := ["bus_width", "preset", "run_delay"]

/-- The fields that have no meaning, in the order of their names. -/
def unknownKeys (fields : List (String × Datum)) : List String :=
  ((fields.map (·.1)).filter fun k => !fieldNames.contains k).mergeSort fun a b => a ≤ b

/-- A pause in a file: a number, or a text that spells one, always as a real number. -/
def delayOfField (d : Datum) : Except ConfigFault Datum :=
  match d with
  | .number (.real _) => .ok d
  | .number (.whole n) =>
    match Binary64.ofInt? n with
    | some x => .ok (.number (.real x))
    | none => .error .delayTooGreat
  | .text s =>
    match Number.readReal? s.toList with
    | some x => .ok (.number (.real x))
    | none => .error (.config (.delayNotNumber d))
  | _ => .error (.config (.delayNotNumber d))

/-! ## Files -/

/-- The settings in the fields of an object. Unknown fields are refused first, then a pause that
spells no number, then what is out of range. -/
def ofFields (fields : List (String × Datum)) : Except ConfigFault Config := do
  let unknown := unknownKeys fields
  if !unknown.isEmpty then throw (.config (.unknownKeys unknown))
  let delay ← match Datum.field? fields "run_delay" with
    | some d => delayOfField d
    | none => pure (.number (.real defaultDelay))
  let width := (Datum.field? fields "bus_width").getD defaultWidth
  let preset := (Datum.field? fields "preset").getD defaultPreset
  (ofData width preset delay).mapError .config

def ofText (path : String) (text : String) : Except ConfigFault Config :=
  match Document.read text.toList with
  | .error .malformed => .error (.config (.malformed path))
  | .error (.tooDeep n) => .error (.tooDeep n)
  | .ok (.object fields) => ofFields fields
  | .ok _ => .error (.config (.notObject path))

/-- The settings in what is found at a path. -/
def load (path : String) (entry : Entry) : Except ConfigFault Config :=
  match entry with
  | .unreadable fault => .error (.config (.unreadable path fault))
  | .file bytes =>
    match String.fromUTF8? bytes with
    | none => .error .notText
    | some text => ofText path text

end Config

end BusCycle
