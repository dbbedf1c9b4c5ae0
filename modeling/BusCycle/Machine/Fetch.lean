-- The fetch half of a step: machine code is laid down at `CS:IP`, walks over the bus, and the
-- instruction pointer moves past it.
import BusCycle.Instruction.Encoding
import BusCycle.Machine.Basic

namespace BusCycle

/-! ## Machine code in its place -/

/-- The bytes of an instruction with their addresses. -/
def placedCode (r : Registers) (code : List CodeByte) : List (Int × CodeByte) :=
  code.mapIdx fun i b => (Machine.codeAddress r i, b)

/-- The memory with bytes written at their addresses, in order. -/
def Memory.writeCode (m : Memory) (placed : List (Int × CodeByte)) : Memory :=
  placed.foldl (fun m p => m.write p.1 p.2.value p.2.tag) m

/-! ## Transfers -/

/-- One transfer for each byte. -/
def byteTransfers (placed : List (Int × CodeByte)) : List Transfer :=
  placed.map fun (a, b) => .byte .fetch a b.value b.tag

/-- One transfer for each two bytes, at the address of the first, and one for a byte left over. -/
def pairTransfers : List (Int × CodeByte) → List Transfer
  | [] => []
  | [(a, b)] => [.byte .fetch a b.value b.tag]
  | (a, low) :: (_, high) :: rest =>
    .pair .fetch a low.value high.value low.tag high.tag :: pairTransfers rest

/-- The transfers that fetch an instruction: byte by byte on a bus of 8 lines, else in pairs. -/
def fetchTransfers (width : BusWidth) (placed : List (Int × CodeByte)) : List Transfer :=
  if width.lines = 8 then byteTransfers placed else pairTransfers placed

/-! ## The fetch -/

/-- The machine after machine code was fetched. -/
def Machine.fetch (m : Machine) (code : List CodeByte) : Machine :=
  let placed := placedCode m.registers code
  let ip := m.registers.ip
  let next := ip + BitVec.ofNat 16 code.length
  let m := m.refer m.fetchReference
  let m := { m with memory := m.memory.writeCode placed }
  let m := (m.transferAll (fetchTransfers m.width placed)).setIp next
  m.note (.advanced ip next code.length)

end BusCycle
