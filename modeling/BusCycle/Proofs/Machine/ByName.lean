-- Execution told by names. A handler is looked up by the kind of an instruction, and it looks up
-- what the instruction names: registers in the register file, operations and conditions in their
-- tables. No handler asks in vain, and what it does is what the form of the instruction does.
import BusCycle.Machine.Execute
import BusCycle.Proofs.Instruction.ByName

namespace BusCycle

/-! ## Tables -/

/-- The register file. -/
def registerFile : List (String × Register) :=
  [("AX", .general .ax), ("BX", .general .bx), ("CX", .general .cx), ("DX", .general .dx),
    ("SI", .general .si), ("DI", .general .di), ("BP", .general .bp), ("SP", .general .sp),
    ("CS", .segment .cs), ("SS", .segment .ss), ("DS", .segment .ds), ("ES", .segment .es),
    ("IP", .ip), ("FLAGS", .flags)]

/-- The registers that arithmetic works on. -/
def generalFile : List (String × General) :=
  [("AX", .ax), ("BX", .bx), ("CX", .cx), ("DX", .dx), ("SI", .si), ("DI", .di), ("BP", .bp),
    ("SP", .sp)]

def binaryOps : List (String × BinaryOp) :=
  [("ADD", .add), ("SUB", .sub), ("AND", .and), ("OR", .or), ("XOR", .xor), ("CMP", .cmp)]

def unaryOps : List (String × UnaryOp) :=
  [("INC", .inc), ("DEC", .dec), ("NOT", .not), ("NEG", .neg)]

def conditions : List (String × Condition) :=
  [("JE", .je), ("JZ", .jz), ("JNE", .jne), ("JNZ", .jnz), ("JS", .js), ("JNS", .jns), ("JL", .jl),
    ("JGE", .jge), ("JLE", .jle), ("JG", .jg)]

theorem lookUp_registerFile (r : Register) : lookUp registerFile r.name = .ok r := by
  rcases r with (_ | _ | _ | _ | _ | _ | _ | _) | (_ | _ | _ | _) | _ | _ <;> rfl

theorem lookUp_generalFile (r : General) : lookUp generalFile r.name = .ok r := by
  cases r <;> rfl

theorem lookUp_binaryOps (op : BinaryOp) : lookUp binaryOps op.name = .ok op := by
  cases op <;> rfl

theorem lookUp_unaryOps (op : UnaryOp) : lookUp unaryOps op.name = .ok op := by
  cases op <;> rfl

theorem lookUp_conditions (c : Condition) : lookUp conditions c.name = .ok c := by
  cases c <;> rfl

/-! ## Handlers -/

/-- What executes an instruction on a machine. -/
abbrev Handler := Machine → Instruction → Except Lapse Machine

namespace Handler

/-- The register that an operand names. -/
def registerAt (i : Instruction) (side : Side) : Except Lapse Register :=
  i.entryAt registerFile side

def moveNumber : Handler := fun m i => do
  let dest ← registerAt i .dest
  return m.moveTo dest (BitVec.ofInt 16 (← i.valueAt .src))

def moveRegister : Handler := fun m i => do
  let src ← registerAt i .src
  return m.moveTo (← registerAt i .dest) (m.registers.get src)

/-- The name and the value of the offset that an operand in memory gives. -/
def offsetAt (m : Machine) (i : Instruction) (side : Side) : Except Lapse (String × Word) := do
  match ← i.baseAt side with
  | some base => return (base, m.registers.get (← lookUp registerFile base))
  | none => return ("disp", BitVec.ofInt 16 (← i.displacementAt side))

def store : Handler := fun m i => do
  let (name, offset) ← offsetAt m i .dest
  let src ← registerAt i .src
  let segment ← lookUp registerFile "DS"
  return m.writeWord segment name offset (m.registers.get src) "Data low" "Data high"

def load : Handler := fun m i => do
  let (name, offset) ← offsetAt m i .src
  let dest ← registerAt i .dest
  let (value, m) := m.readWord (← lookUp registerFile "DS") name offset
  return m.moveTo dest value

/-- An operation on a register and a number. -/
def binary (m : Machine) (i : Instruction) (right : Int) : Except Lapse Machine := do
  let dest ← i.entryAt generalFile .dest
  return m.computeBinary (← lookUp binaryOps i.mnemonic) dest right

def binaryRegister : Handler := fun m i => do
  binary m i (m.registers.get (← registerAt i .src)).toNat

def binaryNumber : Handler := fun m i => do binary m i (← i.valueAt .src)

def unary : Handler := fun m i => do
  let dest ← i.entryAt generalFile .dest
  return m.computeUnary (← lookUp unaryOps i.mnemonic) dest

/-- The target of a jump. -/
def targetOf (i : Instruction) : Except Lapse Word := do
  return BitVec.ofInt 16 (← i.valueAt .dest)

def jump : Handler := fun m i => do return m.jumpTo (← targetOf i)

def call : Handler := fun m i => do return (m.push m.registers.ip).jumpTo (← targetOf i)

def ret : Handler := fun m _ =>
  let (value, m) := m.pop
  .ok (m.jumpTo value)

def branch : Handler := fun m i => do
  let condition ← lookUp conditions i.mnemonic
  return m.branch condition (← targetOf i)

def loop : Handler := fun m i => do return m.loop (← targetOf i)

def push : Handler := fun m i => do return m.push (m.registers.get (← registerAt i .dest))

def pop : Handler := fun m i => do
  let (value, m) := m.pop
  return m.moveTo (← registerAt i .dest) value

def pushFlags : Handler := fun m _ => .ok (m.push m.registers.flags.word)

def popFlags : Handler := fun m _ => do
  let (value, m) := m.pop
  return m.moveTo (← lookUp registerFile "FLAGS") value

def idle : Handler := fun m i => .ok (m.note (.idle i.mnemonic))

def unknown : Handler := fun m i => .ok (m.note (.unknown i.display))

/-- The handler of each kind of instruction. -/
def all : List (String × Handler) :=
  [("MOV_REG_IMM", moveNumber),
    ("MOV_REG_REG", moveRegister),
    ("MOV_SREG_REG", moveRegister),
    ("MOV_REG_SREG", moveRegister),
    ("MOV_MEM_REG", store),
    ("MOV_REG_MEM", load),
    ("ALU_REG_REG", binaryRegister),
    ("ALU_REG_IMM", binaryNumber),
    ("INC_DEC_REG", unary),
    ("NOT_NEG_REG", unary),
    ("JMP_NEAR", jump),
    ("CALL_NEAR", call),
    ("RET_NEAR", ret),
    ("JCC_SHORT", branch),
    ("LOOP", loop),
    ("PUSH_REG", push),
    ("POP_REG", pop),
    ("PUSHF", pushFlags),
    ("POPF", popFlags),
    ("NOP", idle),
    ("HLT", idle),
    ("IO_STUB", idle),
    ("UNRECOGNIZED", unknown)]

end Handler

/-- The machine after an instruction was executed by the handler of its kind. -/
def Machine.executeByName (m : Machine) (i : Instruction) : Except Lapse Machine := do
  (← lookUp Handler.all i.kind) m i

/-! ## Every instruction is executed -/

namespace Handler

variable {i : Instruction} {side : Side}

theorem registerAt_eq {r : Register} (name : i.nameAt side = .ok r.name) :
    registerAt i side = .ok r :=
  (Instruction.entryAt_of_nameAt name _).trans (lookUp_registerFile r)

theorem generalAt_eq {r : General} (name : i.nameAt side = .ok r.name) :
    i.entryAt generalFile side = .ok r :=
  (Instruction.entryAt_of_nameAt name _).trans (lookUp_generalFile r)

theorem offsetAt_eq {p : Place} (m : Machine) (base : i.baseAt side = .ok p.baseName?)
    (literal : ∀ d, p = .literal d → i.displacementAt side = .ok d) :
    offsetAt m i side = .ok (p.offset m.registers) := by
  unfold offsetAt
  rw [base]
  cases p with
  | si | di => rfl
  | literal d =>
    simp only [Place.baseName?, literal d rfl]
    rfl

theorem targetOf_eq {target : Int} (value : i.valueAt .dest = .ok target) :
    targetOf i = .ok (BitVec.ofInt 16 target) := by
  rw [targetOf, value]
  rfl

theorem binary_eq {op : BinaryOp} {dest : General} (m : Machine) (mnemonic : i.mnemonic = op.name)
    (name : i.nameAt .dest = .ok dest.name) (right : Int) :
    binary m i right = .ok (m.computeBinary op dest right) := by
  rw [binary, generalAt_eq name, mnemonic, lookUp_binaryOps]
  rfl

end Handler

/-- The handler of the kind of a form does what the form does. -/
theorem Form.Tells.executeByName {f : Form} {i : Instruction} (h : f.Tells i.mnemonic i.operands)
    (m : Machine) : m.executeByName i = .ok (m.executeForm f) := by
  unfold Machine.executeByName
  rw [h.kind]
  have mnemonic : i.mnemonic = f.mnemonic := h.1.symm
  have general (side : Side) {r : General} (name : i.nameAt side = .ok r.name) :
      Handler.registerAt i side = .ok (.general r) :=
    Handler.registerAt_eq (r := .general r) name
  have segment (side : Side) {r : Segment} (name : i.nameAt side = .ok r.name) :
      Handler.registerAt i side = .ok (.segment r) :=
    Handler.registerAt_eq (r := .segment r) name
  cases f with
  | moveImmediate dest value =>
    show Handler.moveNumber m i = _
    rw [Handler.moveNumber, general .dest (h.nameAt .dest), h.valueAt]
    rfl
  | move dest src =>
    show Handler.moveRegister m i = _
    rw [Handler.moveRegister, general .src (h.nameAt .src), general .dest (h.nameAt .dest)]
    rfl
  | loadSegment dest src =>
    show Handler.moveRegister m i = _
    rw [Handler.moveRegister, general .src (h.nameAt .src), segment .dest (h.nameAt .dest)]
    rfl
  | storeSegment dest src =>
    show Handler.moveRegister m i = _
    rw [Handler.moveRegister, segment .src (h.nameAt .src), general .dest (h.nameAt .dest)]
    rfl
  | store dest src =>
    have offset : Handler.offsetAt m i .dest = .ok (dest.offset m.registers) := by
      refine Handler.offsetAt_eq m ((h.baseAt .dest).trans dest.baseOf_operand) ?_
      rintro d rfl
      exact h.displacementAt .dest
    show Handler.store m i = _
    rw [Handler.store, offset, general .src (h.nameAt .src)]
    rfl
  | load dest src =>
    have offset : Handler.offsetAt m i .src = .ok (src.offset m.registers) := by
      refine Handler.offsetAt_eq m ((h.baseAt .src).trans src.baseOf_operand) ?_
      rintro d rfl
      exact h.displacementAt .src
    show Handler.load m i = _
    rw [Handler.load, offset, general .dest (h.nameAt .dest)]
    rfl
  | binary op dest src =>
    show Handler.binaryRegister m i = _
    rw [Handler.binaryRegister, general .src (h.nameAt .src), Lapse.ok_bind]
    exact Handler.binary_eq m mnemonic (h.nameAt .dest) _
  | binaryImmediate op dest value =>
    show Handler.binaryNumber m i = _
    rw [Handler.binaryNumber, h.valueAt]
    exact Handler.binary_eq m mnemonic (h.nameAt .dest) value
  | unary op dest =>
    have unary : Handler.unary m i = .ok (m.computeUnary op dest) := by
      rw [Handler.unary, Handler.generalAt_eq (h.nameAt .dest), mnemonic]
      simp only [Lapse.ok_bind, Form.mnemonic, lookUp_unaryOps]
      rfl
    cases op <;> exact unary
  | jump target =>
    show Handler.jump m i = _
    rw [Handler.jump, Handler.targetOf_eq (h.valueAt .dest)]
    rfl
  | call target =>
    show Handler.call m i = _
    rw [Handler.call, Handler.targetOf_eq (h.valueAt .dest)]
    rfl
  | branch condition target =>
    show Handler.branch m i = _
    rw [Handler.branch, mnemonic, Handler.targetOf_eq (h.valueAt .dest)]
    simp only [Form.mnemonic, lookUp_conditions]
    rfl
  | loop target =>
    show Handler.loop m i = _
    rw [Handler.loop, Handler.targetOf_eq (h.valueAt .dest)]
    rfl
  | push src =>
    show Handler.push m i = _
    rw [Handler.push, general .dest (h.nameAt .dest)]
    rfl
  | pop dest =>
    show Handler.pop m i = _
    rw [Handler.pop, general .dest (h.nameAt .dest)]
    rfl
  | ret | pushFlags | popFlags => rfl
  | nop | halt | input | output =>
    show Handler.idle m i = _
    rw [Handler.idle, mnemonic]
    rfl

/-- Every instruction is executed on every machine, as it is when it was assembled anywhere: the
handler of its kind asks for no name that is not known and for no operand that is not there. -/
theorem Machine.executeByName_eq (m : Machine) (i : Instruction) (ip : Word) :
    m.executeByName i = .ok (m.execute (.ofInstruction i ip)) := by
  unfold Assembled.ofInstruction
  rcases form : Form.ofInstruction? i with _ | f
  · have kind : i.kind = "UNRECOGNIZED" := by
      rw [Instruction.kind, form]
      rfl
    unfold executeByName
    rw [kind]
    rfl
  · exact (Form.tells_of_ofInstruction? form).executeByName m

end BusCycle
