-- Words that an instruction reads and writes through the bus, and the stack, which is a place for
-- words too: it grows downward and `SS:SP` points at the last word pushed.
import BusCycle.Machine.Basic

namespace BusCycle.Machine

/-! ## Operands in memory -/

/-- The reference to a word at an offset in a segment. -/
def dataReference (m : Machine) (segment : Register) (offsetName : String) (offset : Word) :
    Reference :=
  ⟨.data, (m.registers.get segment).toNat, offset.toNat, segment.name, offsetName⟩

/-- The machine after a word was written at an offset in a segment. -/
def writeWord (m : Machine) (segment : Register) (offsetName : String) (offset value : Word)
    (lowTag highTag : String) : Machine :=
  let r := m.dataReference segment offsetName offset
  let m := m.refer r
  let m := { m with memory := m.memory.writeWord r.physical value lowTag highTag }
  m.transferAll (Transfer.word m.width .write r.physical value lowTag highTag)

/-- The word at an offset in a segment, and the machine after it was read. Bytes that were never
written read as zero. -/
def readWord (m : Machine) (segment : Register) (offsetName : String) (offset : Word) :
    Word × Machine :=
  let r := m.dataReference segment offsetName offset
  let m := m.refer r
  let value := m.memory.readWord r.physical
  let lowTag := m.memory.tagAt r.physical
  let highTag := m.memory.tagAt (r.physical + 1)
  (value, m.transferAll (Transfer.word m.width .read r.physical value lowTag highTag))

/-! ## The stack -/

/-- The machine after a word was pushed. -/
def push (m : Machine) (value : Word) : Machine :=
  let sp := m.registers.sp - 2
  let m := m.setGeneral .sp sp
  let m := m.writeWord (.segment .ss) "SP" sp value "Stack low" "Stack high"
  m.note (.pushed value sp)

/-- The word on top of the stack, and the machine after it was popped. -/
def pop (m : Machine) : Word × Machine :=
  let (value, m) := m.readWord (.segment .ss) "SP" m.registers.sp
  let sp := m.registers.sp + 2
  (value, (m.setGeneral .sp sp).note (.popped value sp))

end BusCycle.Machine
