-- Register presets. A preset has a version in its name and is never changed, so that saved sessions
-- stay as they were.
import BusCycle.Document.Datum
import BusCycle.Register

namespace BusCycle

/-- A named set of initial register contents. -/
inductive Preset
  | classic
  | zeroed
  deriving DecidableEq

namespace Preset

/-- The name of a preset with its version. -/
def name : Preset → String
  | classic => "classic-v1"
  | zeroed => "zeroed-v1"

/-- Every preset, in the order of their names. -/
def all : List Preset := [classic, zeroed]

def ofName? (name : String) : Option Preset := all.find? (·.name == name)

/-- The flags of a machine that has computed nothing. -/
def initialFlags : Flags := ⟨0x0002, by decide⟩

/-- The registers that a preset stands for. -/
def registers : Preset → Registers
  | classic => ⟨0, 0, 0, 0, 0x0010, 0, 0, 0xFFFE, 0x1000, 0x2000, 0x3000, 0x4000, 0x0100, initialFlags⟩
  | zeroed => ⟨0, 0, 0, 0, 0, 0, 0, 0xFFFE, 0, 0, 0, 0, 0x0100, initialFlags⟩

end Preset

end BusCycle
