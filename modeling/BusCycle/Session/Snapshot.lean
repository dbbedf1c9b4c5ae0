-- Snapshots: what there is to see of a session at one moment.
import BusCycle.Session.Basic

namespace BusCycle

/-- A row of the memory table. -/
structure MemoryRow where
  key : String
  value : Byte
  tag : String
  deriving DecidableEq

/-- What there is to see of a session. -/
structure Snapshot where
  phase : Phase
  pc : Nat
  program : List String
  width : BusWidth
  busStep : Int
  registers : Registers
  memory : List MemoryRow
  history : List Reference
  transactions : List Transaction
  stepLog : String
  flow : List FlowEntry
  deriving DecidableEq

/-- The snapshot of a session. Its bus width is the machine's, not a later setting. -/
def Session.snapshot (s : Session) : Snapshot where
  phase := s.phase
  pc := s.pc
  program := s.program
  width := s.machine.width
  busStep := s.machine.bus.step
  registers := s.machine.registers
  memory := s.machine.memory.rows.map fun (key, value, tag) => ⟨key, value, tag⟩
  history := s.machine.history
  transactions := s.machine.bus.transactions
  stepLog := s.machine.bus.text
  flow := s.flow

namespace Snapshot

/-- The row of a key, if that byte was ever written. -/
def memoryAt? (s : Snapshot) (key : String) : Option MemoryRow := s.memory.find? (·.key == key)

def flowText (s : Snapshot) : String := String.intercalate "\n\n" (s.flow.map FlowEntry.render)

def historyText (s : Snapshot) : String := String.intercalate "\n" (s.history.map Reference.describe)

end Snapshot

end BusCycle
