-- The execute half of a step. The instruction pointer already points past the instruction. Moves
-- between registers and arithmetic stay inside the processor; only operands in memory and the stack
-- go over the bus.
import BusCycle.Machine.Access
import BusCycle.Machine.Fetch

namespace BusCycle

/-- The name and the value of the offset that a place gives. -/
def Place.offset (r : Registers) : Place → String × Word
  | si => ("SI", r.si)
  | di => ("DI", r.di)
  | literal displacement => ("disp", BitVec.ofInt 16 displacement)

namespace Machine

/-! ## Moves and jumps -/

def moveTo (m : Machine) (dest : Register) (value : Word) : Machine :=
  let m := m.setRegister dest value
  m.note (.moved dest (m.registers.get dest))

/-- A word stored at a place in the data segment. -/
def storeAt (m : Machine) (dest : Place) (value : Word) : Machine :=
  let (name, offset) := dest.offset m.registers
  m.writeWord (.segment .ds) name offset value "Data low" "Data high"

/-- A word loaded from a place in the data segment. -/
def loadFrom (m : Machine) (src : Place) : Word × Machine :=
  let (name, offset) := src.offset m.registers
  m.readWord (.segment .ds) name offset

def jumpTo (m : Machine) (target : Word) : Machine :=
  (m.setIp target).note (.branched m.registers.ip target)

/-! ## Arithmetic -/

/-- An operation on a register and a number. The note shows the number as it was written. -/
def computeBinary (m : Machine) (op : BinaryOp) (dest : General) (right : Int) : Machine :=
  let left := m.registers.general dest
  let result := op.apply left (BitVec.ofInt 16 right)
  let m := m.setResultFlags result
  let flags := m.registers.flags.word
  if op.stores then (m.setGeneral dest result).note (.computed dest result flags)
  else m.note (.compared op left right result flags)

def computeUnary (m : Machine) (op : UnaryOp) (dest : General) : Machine :=
  let result := op.apply (m.registers.general dest)
  let m := (m.setGeneral dest result).setResultFlags result
  m.note (.computed dest result m.registers.flags.word)

/-! ## Control -/

def branch (m : Machine) (condition : Condition) (target : Word) : Machine :=
  if condition.holds m.registers.flags then m.jumpTo target
  else m.note (.notTaken condition m.registers.ip)

/-- A jump that counts `CX` down and is taken until it is zero. -/
def loop (m : Machine) (target : Word) : Machine :=
  let cx := m.registers.cx - 1
  let m := (m.setGeneral .cx cx).note (.counted cx)
  if cx = 0 then m.note (.counterSpent m.registers.ip) else m.jumpTo target

/-! ## Forms -/

/-- The machine after a known form was executed. -/
def executeForm (m : Machine) (f : Form) : Machine :=
  match f with
  | .moveImmediate dest value => m.moveTo (.general dest) (BitVec.ofInt 16 value)
  | .move dest src => m.moveTo (.general dest) (m.registers.general src)
  | .loadSegment dest src => m.moveTo (.segment dest.segment) (m.registers.general src)
  | .storeSegment dest src => m.moveTo (.general dest) (m.registers.segment src)
  | .store dest src => m.storeAt dest (m.registers.general src)
  | .load dest src =>
    let (value, m) := m.loadFrom src
    m.moveTo (.general dest) value
  | .binary op dest src => m.computeBinary op dest (m.registers.general src).toNat
  | .binaryImmediate op dest value => m.computeBinary op dest value
  | .unary op dest => m.computeUnary op dest
  | .jump target => m.jumpTo (BitVec.ofInt 16 target)
  | .call target => (m.push m.registers.ip).jumpTo (BitVec.ofInt 16 target)
  | .ret =>
    let (value, m) := m.pop
    m.jumpTo value
  | .branch condition target => m.branch condition (BitVec.ofInt 16 target)
  | .loop target => m.loop (BitVec.ofInt 16 target)
  | .push src => m.push (m.registers.general src)
  | .pop dest =>
    let (value, m) := m.pop
    m.moveTo (.general dest) value
  | .pushFlags => m.push m.registers.flags.word
  | .popFlags =>
    let (value, m) := m.pop
    m.moveTo .flags value
  | .nop | .halt | .input | .output => m.note (.idle f.mnemonic)

/-- The machine after an assembled instruction was executed. -/
def execute (m : Machine) (a : Assembled) : Machine :=
  match a.form with
  | some f => m.executeForm f
  | none => m.note (.unknown a.instruction.display)

/-- The machine after an assembled instruction was fetched and executed. -/
def cycle (m : Machine) (a : Assembled) : Machine := (m.fetch a.code).execute a

end Machine

end BusCycle
