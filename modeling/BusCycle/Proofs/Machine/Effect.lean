-- What a step does to each part of a machine. While an instruction is executed, at most one word
-- crosses the bus, so registers, memory, history and transactions after the step are told by what
-- was there before it and by that word.
import BusCycle.Machine.Execute

namespace BusCycle

/-! ## Transfers and their numbers -/

/-- Transfers as the transactions that they become, with the first one numbered `step`. -/
def Transfer.numbered (step : Int) : List Transfer → List Transaction
  | [] => []
  | t :: ts => { t with step } :: numbered (step + 2) ts

@[simp] theorem Transfer.numbered_nil (step : Int) : numbered step [] = [] := rfl

/-- Numbering changes nothing but the numbers. -/
@[simp] theorem Transfer.map_toTransfer_numbered (step : Int) (ts : List Transfer) :
    (numbered step ts).map Transaction.toTransfer = ts := by
  induction ts generalizing step with
  | nil => rfl
  | cons t ts ih =>
    simp only [numbered, List.map_cons]
    rw [ih]

theorem Transfer.numbered_append (step : Int) (ts us : List Transfer) :
    numbered step (ts ++ us) = numbered step ts ++ numbered (step + 2 * ts.length) us := by
  induction ts generalizing step with
  | nil => simp
  | cons t ts ih =>
    simp only [List.cons_append, numbered, ih, List.length_cons, List.cons.injEq, true_and]
    congr 2
    omega

theorem BusLog.transactions_transferAll (log : BusLog) (ts : List Transfer) :
    (log.transferAll ts).transactions = log.transactions ++ Transfer.numbered log.step ts := by
  induction ts generalizing log with
  | nil => simp
  | cons t ts ih =>
    rw [transferAll_cons, ih, transactions_transfer, List.append_assoc]
    rfl

/-! ## The word that crosses the bus -/

/-- A word that an instruction reads from memory or writes to it. -/
inductive WordAccess
  | read (place : Reference)
  | write (place : Reference) (value : Word) (lowTag highTag : String)
  deriving DecidableEq

namespace WordAccess

def place : WordAccess → Reference
  | read r => r
  | write r .. => r

/-- The memory after the access. -/
def memoryAfter (m : Memory) : WordAccess → Memory
  | read _ => m
  | write r value lowTag highTag => m.writeWord r.physical value lowTag highTag

/-- The word that comes from memory, zero if none does. -/
def wordFrom (m : Memory) : WordAccess → Word
  | read r => m.readWord r.physical
  | write .. => 0

def transfers (width : BusWidth) (m : Memory) : WordAccess → List Transfer
  | read r =>
    Transfer.word width .read r.physical (m.readWord r.physical) (m.tagAt r.physical)
      (m.tagAt (r.physical + 1))
  | write r value lowTag highTag => Transfer.word width .write r.physical value lowTag highTag

end WordAccess

/-! ## What each form asks for -/

/-- The reference to an offset in a segment. -/
def Registers.reference (r : Registers) (segment : Segment) (offsetName : String) (offset : Word) :
    Reference :=
  ⟨.data, (r.segment segment).toNat, offset.toNat, segment.name, offsetName⟩

def Place.reference (r : Registers) (p : Place) : Reference :=
  r.reference .ds (p.offset r).1 (p.offset r).2

def Registers.pushOf (r : Registers) (value : Word) : WordAccess :=
  .write (r.reference .ss "SP" (r.sp - 2)) value "Stack low" "Stack high"

def Registers.popOf (r : Registers) : WordAccess := .read (r.reference .ss "SP" r.sp)

namespace Form

/-- The word that a form moves, by the registers after the fetch. -/
def access? (r : Registers) : Form → Option WordAccess
  | store dest src => some (.write (dest.reference r) (r.general src) "Data low" "Data high")
  | load _ src => some (.read (src.reference r))
  | call _ => some (r.pushOf r.ip)
  | push src => some (r.pushOf (r.general src))
  | pushFlags => some (r.pushOf r.flags.word)
  | ret | pop _ | popFlags => some r.popOf
  | _ => none

end Form

namespace Registers

/-- The registers with the zero and the sign flag of a result. -/
def withFlagsOf (r : Registers) (result : Word) : Registers :=
  { r with flags := r.flags.setZeroSign (flagsOfResult result) }

/-- The registers after an operation on a register and a word. -/
def afterBinary (r : Registers) (op : BinaryOp) (dest : General) (right : Word) : Registers :=
  let result := op.apply (r.general dest) right
  if op.stores then (r.withFlagsOf result).setGeneral dest result else r.withFlagsOf result

def afterUnary (r : Registers) (op : UnaryOp) (dest : General) : Registers :=
  let result := op.apply (r.general dest)
  (r.setGeneral dest result).withFlagsOf result

def afterLoop (r : Registers) (target : Word) : Registers :=
  let counted := r.setGeneral .cx (r.cx - 1)
  if r.cx - 1 = 0 then counted else { counted with ip := target }

end Registers

/-- The registers after a form was executed, if `word` is what came from memory. -/
def Form.registersAfter (r : Registers) (word : Word) : Form → Registers
  | moveImmediate dest value => r.setGeneral dest (BitVec.ofInt 16 value)
  | move dest src => r.setGeneral dest (r.general src)
  | loadSegment dest src => r.setSegment dest.segment (r.general src)
  | storeSegment dest src => r.setGeneral dest (r.segment src)
  | store .. => r
  | load dest _ => r.setGeneral dest word
  | binary op dest src => r.afterBinary op dest (r.general src)
  | binaryImmediate op dest value => r.afterBinary op dest (BitVec.ofInt 16 value)
  | unary op dest => r.afterUnary op dest
  | jump target => { r with ip := BitVec.ofInt 16 target }
  | call target => { r with sp := r.sp - 2, ip := BitVec.ofInt 16 target }
  | ret => { r with sp := r.sp + 2, ip := word }
  | branch condition target =>
    if condition.holds r.flags then { r with ip := BitVec.ofInt 16 target } else r
  | loop target => r.afterLoop (BitVec.ofInt 16 target)
  | push _ | pushFlags => { r with sp := r.sp - 2 }
  | pop dest => { r with sp := r.sp + 2 }.setGeneral dest word
  | popFlags => { r with sp := r.sp + 2, flags := .ofWord word }
  | nop | halt | input | output => r

/-! ## What is done to a machine -/

namespace Machine

/-- The transfers of an access, if there is one. -/
def accessTransfers (m : Machine) (access : Option WordAccess) : List Transfer :=
  access.elim [] (·.transfers m.width m.memory)

/-- What a machine did on its way to `next`: it moved one word or none, it set its registers, and
the rest is notes. -/
structure Did (m : Machine) (access : Option WordAccess) (registers : Registers) (next : Machine) :
    Prop where
  registers : next.registers = registers
  memory : next.memory = access.elim m.memory (·.memoryAfter m.memory)
  history : next.history = m.history ++ access.toList.map WordAccess.place
  width : next.width = m.width
  busStep : next.bus.step = m.bus.step + 2 * (m.accessTransfers access).length
  transactions : next.bus.transactions =
    m.bus.transactions ++ Transfer.numbered m.bus.step (m.accessTransfers access)

variable {m next : Machine} {access : Option WordAccess} {r : Registers}

/-- Nothing but registers and notes. -/
theorem did_nothing (m : Machine) : m.Did none m.registers m :=
  ⟨rfl, rfl, (List.append_nil _).symm, rfl, by simp [accessTransfers], by simp [accessTransfers]⟩

/-- Registers that are set afterwards are those of the end. -/
theorem Did.setRegisters (h : m.Did access r next) (r' : Registers) :
    m.Did access r' { next with registers := r' } :=
  ⟨rfl, h.memory, h.history, h.width, h.busStep, h.transactions⟩

/-- A note changes the text of the log alone. -/
theorem Did.note (h : m.Did access r next) (n : Note) : m.Did access r (next.note n) := by
  refine ⟨h.registers, h.memory, h.history, h.width, h.busStep, ?_⟩
  rw [← h.transactions]
  exact BusLog.transactions_note next.bus n

/-- Registers that were set before do not change which transfers are made. -/
theorem Did.of_setRegisters {r' : Registers}
    (h : { m with registers := r' }.Did access r next) : m.Did access r next :=
  ⟨h.registers, h.memory, h.history, h.width, h.busStep, h.transactions⟩

/-! ## Words through the bus -/

/-- An address is formed, the memory takes what is written, and the transfers are made. -/
theorem did_access (m : Machine) (a : WordAccess) :
    m.Did (some a) m.registers
      ({ m.refer a.place with memory := a.memoryAfter m.memory }.transferAll
        (a.transfers m.width m.memory)) := by
  have formed : (m.refer a.place).bus.transactions = m.bus.transactions :=
    BusLog.transactions_note m.bus (.formed a.place)
  refine ⟨rfl, rfl, rfl, rfl, BusLog.step_transferAll _ _, ?_⟩
  rw [← formed]
  exact BusLog.transactions_transferAll _ _

theorem did_writeWord (m : Machine) (segment : Segment) (offsetName : String)
    (offset value : Word) (lowTag highTag : String) :
    m.Did (some (.write (m.registers.reference segment offsetName offset) value lowTag highTag))
      m.registers (m.writeWord (.segment segment) offsetName offset value lowTag highTag) :=
  m.did_access (.write (m.registers.reference segment offsetName offset) value lowTag highTag)

theorem did_readWord (m : Machine) (segment : Segment) (offsetName : String) (offset : Word) :
    m.Did (some (.read (m.registers.reference segment offsetName offset))) m.registers
      (m.readWord (.segment segment) offsetName offset).2 :=
  m.did_access (.read (m.registers.reference segment offsetName offset))

theorem did_push (m : Machine) (value : Word) :
    m.Did (some (m.registers.pushOf value)) { m.registers with sp := m.registers.sp - 2 }
      (m.push value) := by
  have moved := m.setGeneral .sp (m.registers.sp - 2) |>.did_writeWord .ss "SP"
    (m.registers.sp - 2) value "Stack low" "Stack high"
  exact (Did.of_setRegisters moved).note _

theorem did_pop (m : Machine) :
    m.Did (some m.registers.popOf) { m.registers with sp := m.registers.sp + 2 } m.pop.2 :=
  ((did_readWord m .ss "SP" m.registers.sp).setRegisters _).note _

theorem did_storeAt (m : Machine) (dest : Place) (value : Word) :
    m.Did (some (.write (dest.reference m.registers) value "Data low" "Data high")) m.registers
      (m.storeAt dest value) :=
  did_writeWord m .ds _ _ value _ _

theorem did_loadFrom (m : Machine) (src : Place) :
    m.Did (some (.read (src.reference m.registers))) m.registers (m.loadFrom src).2 :=
  did_readWord m .ds _ _

/-! ## Forms -/

/-- The word that an access brings from memory. -/
def wordRead (m : Machine) (access : Option WordAccess) : Word :=
  access.elim 0 (·.wordFrom m.memory)

theorem Did.moveTo (h : m.Did access r next) (dest : Register) (value : Word) :
    m.Did access (r.set dest value) (next.moveTo dest value) := by
  obtain rfl := h.registers
  exact (h.setRegisters _).note _

theorem Did.jumpTo (h : m.Did access r next) (target : Word) :
    m.Did access { r with ip := target } (next.jumpTo target) := by
  obtain rfl := h.registers
  exact (h.setRegisters _).note _

theorem did_computeBinary (m : Machine) (op : BinaryOp) (dest : General) (right : Int) :
    m.Did none (m.registers.afterBinary op dest (BitVec.ofInt 16 right))
      (m.computeBinary op dest right) := by
  unfold computeBinary Registers.afterBinary
  dsimp only
  split
  · exact (m.did_nothing.setRegisters _).note _
  · exact (m.did_nothing.setRegisters _).note _

theorem did_computeUnary (m : Machine) (op : UnaryOp) (dest : General) :
    m.Did none (m.registers.afterUnary op dest) (m.computeUnary op dest) :=
  (m.did_nothing.setRegisters _).note _

theorem did_branch (m : Machine) (condition : Condition) (target : Word) :
    m.Did none
      (if condition.holds m.registers.flags then { m.registers with ip := target }
        else m.registers)
      (m.branch condition target) := by
  unfold branch
  split
  · exact m.did_nothing.jumpTo target
  · exact m.did_nothing.note _

theorem did_loop (m : Machine) (target : Word) :
    m.Did none (m.registers.afterLoop target) (m.loop target) := by
  have counted := (m.did_nothing.setRegisters
    (m.registers.setGeneral .cx (m.registers.cx - 1))).note (.counted (m.registers.cx - 1))
  unfold loop Registers.afterLoop
  dsimp only
  split
  · exact counted.note _
  · exact counted.jumpTo target

/-- What the execution of a form does, whatever the form. -/
theorem did_executeForm (m : Machine) (f : Form) :
    m.Did (f.access? m.registers)
      (f.registersAfter m.registers (m.wordRead (f.access? m.registers))) (m.executeForm f) := by
  cases f with
  | moveImmediate dest value => exact m.did_nothing.moveTo (.general dest) _
  | move dest src => exact m.did_nothing.moveTo (.general dest) _
  | loadSegment dest src => exact m.did_nothing.moveTo (.segment dest.segment) _
  | storeSegment dest src => exact m.did_nothing.moveTo (.general dest) _
  | store dest src => exact m.did_storeAt dest _
  | load dest src => exact (m.did_loadFrom src).moveTo (.general dest) _
  | binary op dest src =>
    have h := m.did_computeBinary op dest (m.registers.general src).toNat
    rw [BitVec.ofInt_natCast, BitVec.ofNat_toNat, BitVec.setWidth_eq] at h
    exact h
  | binaryImmediate op dest value => exact m.did_computeBinary op dest value
  | unary op dest => exact m.did_computeUnary op dest
  | jump target => exact m.did_nothing.jumpTo _
  | call target => exact (m.did_push m.registers.ip).jumpTo _
  | ret => exact m.did_pop.jumpTo _
  | branch condition target => exact m.did_branch condition _
  | loop target => exact m.did_loop _
  | push src => exact m.did_push _
  | pop dest => exact m.did_pop.moveTo (.general dest) _
  | pushFlags => exact m.did_push _
  | popFlags => exact m.did_pop.moveTo .flags _
  | nop | halt | input | output => exact m.did_nothing.note _

end Machine

/-! ## Assembled instructions -/

namespace Assembled

/-- The word that an instruction moves, by the registers after its fetch. -/
def access? (a : Assembled) (r : Registers) : Option WordAccess := a.form.bind (·.access? r)

/-- The registers after an instruction was executed, if `word` is what came from memory. -/
def registersAfter (a : Assembled) (r : Registers) (word : Word) : Registers :=
  a.form.elim r (·.registersAfter r word)

end Assembled

namespace Machine

/-- What the execution of an instruction does. One of no known form does nothing. -/
theorem did_execute (m : Machine) (a : Assembled) :
    m.Did (a.access? m.registers)
      (a.registersAfter m.registers (m.wordRead (a.access? m.registers))) (m.execute a) := by
  unfold execute Assembled.access? Assembled.registersAfter
  cases a.form with
  | none => exact m.did_nothing.note _
  | some f => exact m.did_executeForm f

/-! ## The fetch -/

/-- The transfers of a fetch at the instruction pointer. -/
def codeTransfers (m : Machine) (code : List CodeByte) : List Transfer :=
  fetchTransfers m.width (placedCode m.registers code)

@[simp] theorem registers_fetch (m : Machine) (code : List CodeByte) :
    (m.fetch code).registers =
      { m.registers with ip := m.registers.ip + BitVec.ofNat 16 code.length } := rfl

@[simp] theorem memory_fetch (m : Machine) (code : List CodeByte) :
    (m.fetch code).memory = m.memory.writeCode (placedCode m.registers code) := rfl

@[simp] theorem history_fetch (m : Machine) (code : List CodeByte) :
    (m.fetch code).history = m.history ++ [m.fetchReference] := rfl

theorem step_fetch (m : Machine) (code : List CodeByte) :
    (m.fetch code).bus.step = m.bus.step + 2 * (m.codeTransfers code).length :=
  BusLog.step_transferAll _ _

theorem transactions_fetch (m : Machine) (code : List CodeByte) :
    (m.fetch code).bus.transactions =
      m.bus.transactions ++ Transfer.numbered m.bus.step (m.codeTransfers code) := by
  have formed : (m.refer m.fetchReference).bus.transactions = m.bus.transactions :=
    BusLog.transactions_note m.bus (.formed m.fetchReference)
  rw [← formed]
  exact (BusLog.transactions_note _ _).trans (BusLog.transactions_transferAll _ _)

/-! ## The whole cycle -/

/-- The word that crosses the bus after the fetch of an instruction. -/
def cycleAccess? (m : Machine) (a : Assembled) : Option WordAccess :=
  a.access? (m.fetch a.code).registers

/-- The transfers of a cycle: those of the fetch, then those of the word. -/
def cycleTransfers (m : Machine) (a : Assembled) : List Transfer :=
  m.codeTransfers a.code ++ (m.fetch a.code).accessTransfers (m.cycleAccess? a)

theorem registers_cycle (m : Machine) (a : Assembled) :
    (m.cycle a).registers =
      a.registersAfter (m.fetch a.code).registers ((m.fetch a.code).wordRead (m.cycleAccess? a)) :=
  ((m.fetch a.code).did_execute a).registers

theorem memory_cycle (m : Machine) (a : Assembled) :
    (m.cycle a).memory =
      (m.cycleAccess? a).elim (m.fetch a.code).memory (·.memoryAfter (m.fetch a.code).memory) :=
  ((m.fetch a.code).did_execute a).memory

theorem history_cycle (m : Machine) (a : Assembled) :
    (m.cycle a).history =
      m.history ++ m.fetchReference :: (m.cycleAccess? a).toList.map WordAccess.place := by
  have h := ((m.fetch a.code).did_execute a).history
  rw [history_fetch, List.append_assoc] at h
  exact h

theorem width_cycle (m : Machine) (a : Assembled) : (m.cycle a).width = m.width :=
  ((m.fetch a.code).did_execute a).width

theorem transactions_cycle (m : Machine) (a : Assembled) :
    (m.cycle a).bus.transactions =
      m.bus.transactions ++ Transfer.numbered m.bus.step (m.cycleTransfers a) := by
  have h := ((m.fetch a.code).did_execute a).transactions
  rw [transactions_fetch, step_fetch, List.append_assoc, ← Transfer.numbered_append] at h
  exact h

end Machine

end BusCycle
