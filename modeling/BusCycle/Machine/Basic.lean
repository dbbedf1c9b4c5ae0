-- The machine: processor registers, memory, and the bus between them with its log and the history
-- of the addresses that were formed.
import BusCycle.Bus.Log
import BusCycle.Memory
import BusCycle.Register

namespace BusCycle

/-- The state of the machine. -/
structure Machine where
  registers : Registers
  memory : Memory
  width : BusWidth
  bus : BusLog
  history : List Reference
  deriving DecidableEq

namespace Machine

/-- A new machine: given registers, nothing in memory, nothing in the history. -/
def fresh (registers : Registers) (width : BusWidth) : Machine :=
  ⟨registers, .empty, width, .initial, []⟩

/-! ## Parts -/

/-- The machine with a note in its log. -/
def note (m : Machine) (n : Note) : Machine := { m with bus := m.bus.note n }

/-- The machine with transfers made on its bus. -/
def transferAll (m : Machine) (ts : List Transfer) : Machine :=
  { m with bus := m.bus.transferAll ts }

/-- The machine with an address formed: it is put into the history and noted in the log. -/
def refer (m : Machine) (r : Reference) : Machine :=
  { m with history := m.history ++ [r] }.note (.formed r)

def setRegister (m : Machine) (r : Register) (w : Word) : Machine :=
  { m with registers := m.registers.set r w }

/-- The machine with a general register set. -/
def setGeneral (m : Machine) (r : General) (w : Word) : Machine :=
  { m with registers := m.registers.setGeneral r w }

/-- The machine with the instruction pointer set. -/
def setIp (m : Machine) (w : Word) : Machine := { m with registers := { m.registers with ip := w } }

/-- The machine with the zero and the sign flag set from a result. -/
def setResultFlags (m : Machine) (result : Word) : Machine :=
  { m with registers :=
      { m.registers with flags := m.registers.flags.setZeroSign (flagsOfResult result) } }

/-! ## Fetching -/

/-- The reference that the machine fetches by. -/
def fetchReference (m : Machine) : Reference :=
  .fetch m.registers.cs.toNat m.registers.ip.toNat

/-- The address of a byte of the instruction. The instruction pointer wraps within the code
segment. -/
def codeAddress (r : Registers) (i : Nat) : Int :=
  physicalAddress r.cs.toNat (r.ip + BitVec.ofNat 16 i).toNat

end Machine

end BusCycle
