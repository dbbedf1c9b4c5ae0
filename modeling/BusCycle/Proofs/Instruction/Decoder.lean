-- Machine code read back. The opcode map says for each opcode what follows it, and from that the
-- bytes of an instruction give its length, its mnemonic and its operands again, whatever follows
-- them. So code that lies one instruction behind the other can be read in one way only.
import BusCycle.Proofs.Instruction.Forms

namespace BusCycle

/-! ## What machine code keeps -/

/-- The mnemonic and the operands of an instruction, as far as its machine code keeps them. -/
structure Essence where
  mnemonic : String
  operands : Operands
  deriving DecidableEq

/-- The first of the mnemonics that mean the same. -/
def commonMnemonic : String → String
  | "JZ" => "JE"
  | "JNZ" => "JNE"
  | mnemonic => mnemonic

/-- Whether the code of a jump holds one byte of the distance only. -/
def isShortJump (mnemonic : String) : Bool :=
  mnemonic == "LOOP" || (Condition.ofName? mnemonic).isSome

/-- The operand as the code of a short jump keeps it: the target without what lies above bit 7. -/
def Operand.shortened : Operand → Operand
  | .immediate value _ => numberOperand (value % 256)
  | op => op

def Essence.of (mnemonic : String) (ops : Operands) : Essence :=
  ⟨commonMnemonic mnemonic,
    ops.map (if isShortJump mnemonic then Operand.shortened else Operand.plain)⟩

/-- What machine code keeps of an instruction. -/
def Instruction.essence (i : Instruction) : Essence := .of i.mnemonic i.operands

/-! ## Codes read back -/

/-- The general register of a code of three bits. -/
def General.ofCode : Nat → General
  | 0 => ax
  | 1 => cx
  | 2 => dx
  | 3 => bx
  | 4 => sp
  | 5 => bp
  | 6 => si
  | _ => di

def Segment.ofCode? : Nat → Option Segment
  | 0 => some es
  | 1 => some cs
  | 2 => some ss
  | 3 => some ds
  | _ => none

def BinaryOp.ofCode? : Nat → Option BinaryOp
  | 0 => some add
  | 1 => some or
  | 4 => some and
  | 5 => some sub
  | 6 => some xor
  | 7 => some cmp
  | _ => none

def Condition.ofCode? : Nat → Option Condition
  | 0x4 => some je
  | 0x5 => some jne
  | 0x8 => some js
  | 0x9 => some jns
  | 0xC => some jl
  | 0xD => some jge
  | 0xE => some jle
  | 0xF => some jg
  | _ => none

def UnaryOp.ofCode? : Nat → Option UnaryOp
  | 2 => some not
  | 3 => some neg
  | _ => none

@[simp] theorem General.ofCode_code (r : General) : ofCode r.code = r := by
  cases r <;> rfl

@[simp] theorem Segment.ofCode?_code (s : Segment) : ofCode? s.code = some s := by
  cases s <;> rfl

@[simp] theorem BinaryOp.ofCode?_code (op : BinaryOp) : ofCode? op.code = some op := by
  cases op <;> rfl

/-! ## The opcode map -/

/-- What an opcode stands for, and so what follows it. -/
inductive Format
  -- Nothing follows.
  | bare (essence : Essence)
  -- A number for a register.
  | number (mnemonic : String) (dest : General)
  -- An offset. `AX` is moved there or comes from there.
  | accumulator (stores : Bool)
  -- An operand byte with two registers.
  | registers (op : BinaryOp)
  -- An operand byte with a register and a register or a place. The register is the source or the
  -- destination.
  | move (fromRegister : Bool)
  -- An operand byte with a segment register and a register.
  | moveSegment (fromSegment : Bool)
  -- An operand byte with an operation and a register, then a number.
  | numberGroup
  -- An operand byte with an operation and a register.
  | unaryGroup
  -- A distance of two bytes.
  | near (mnemonic : String)
  -- A distance of one byte.
  | short (mnemonic : String)

namespace Format

/-- An instruction on the register whose code is in the opcode. -/
def ofRegister (mnemonic : String) (opcode : Nat) : Format :=
  .bare ⟨mnemonic, .one (General.ofCode (opcode % 8)).operand⟩

/-- The opcodes from 80H on that do not hold a register. -/
def ofSingleOpcode? : Nat → Option Format
  | 0x81 => some numberGroup
  | 0x89 => some (move true)
  | 0x8B => some (move false)
  | 0x8C => some (moveSegment true)
  | 0x8E => some (moveSegment false)
  | 0x90 => some (bare ⟨"NOP", .none⟩)
  | 0x9C => some (bare ⟨"PUSHF", .none⟩)
  | 0x9D => some (bare ⟨"POPF", .none⟩)
  | 0xA1 => some (accumulator false)
  | 0xA3 => some (accumulator true)
  | 0xC3 => some (bare ⟨"RET", .none⟩)
  | 0xE2 => some (short "LOOP")
  | 0xE8 => some (near "CALL")
  | 0xE9 => some (near "JMP")
  | 0xED => some (bare ⟨"IN", .two General.ax.operand General.dx.operand⟩)
  | 0xEF => some (bare ⟨"OUT", .two General.dx.operand General.ax.operand⟩)
  | 0xF4 => some (bare ⟨"HLT", .none⟩)
  | 0xF7 => some unaryGroup
  | _ => none

def ofOpcode? (opcode : Nat) : Option Format :=
  match opcode / 8 with
  | 0x08 => some (ofRegister "INC" opcode)
  | 0x09 => some (ofRegister "DEC" opcode)
  | 0x0A => some (ofRegister "PUSH" opcode)
  | 0x0B => some (ofRegister "POP" opcode)
  | 0x0E | 0x0F => (Condition.ofCode? (opcode % 16)).map fun c => short c.name
  | 0x17 => some (number "MOV" (.ofCode (opcode % 8)))
  | row =>
    match BinaryOp.ofCode? row, opcode % 8 with
    | some op, 1 => some (registers op)
    | some op, 5 => some (number op.name .ax)
    | _, _ => ofSingleOpcode? opcode

end Format

/-! ## Reading what follows an opcode -/

def readWord? : List Byte → Option Word
  | low :: high :: _ => some (wordOf low high)
  | _ => none

/-- The mode and the two codes of an operand byte. -/
def operandFields (b : Byte) : Nat × Nat × Nat := (b.toNat / 64, b.toNat / 8 % 8, b.toNat % 8)

/-- The operand of a mode and a code, and how many bytes of an offset belong to it. -/
def readOperand? (rest : List Byte) : Nat → Nat → Option (Operand × Nat)
  | 0, 4 => some (Place.si.operand, 0)
  | 0, 5 => some (Place.di.operand, 0)
  | 0, 6 => (readWord? rest).map fun w => ((Place.literal w.toNat).operand, 2)
  | 3, code => some ((General.ofCode code).operand, 0)
  | _, _ => none

/-- The register of a mode and a code. -/
def readRegister? : Nat → Nat → Option General
  | 3, code => some (.ofCode code)
  | _, _ => none

namespace Format

/-- The length of an instruction at an instruction pointer and what its code keeps of it, from the
bytes behind the opcode. -/
def read (ip : Word) (rest : List Byte) : Format → Option (Nat × Essence)
  | bare essence => some (1, essence)
  | number mnemonic dest => do
    let w ← readWord? rest
    return (3, ⟨mnemonic, .two dest.operand (numberOperand w.toNat)⟩)
  | accumulator stores => do
    let w ← readWord? rest
    let place := (Place.literal w.toNat).operand
    let ax := General.ax.operand
    return (3, ⟨"MOV", if stores then .two place ax else .two ax place⟩)
  | registers op => do
    let (mode, reg, rm) := operandFields (← rest.head?)
    let dest ← readRegister? mode rm
    return (2, ⟨op.name, .two dest.operand (General.ofCode reg).operand⟩)
  | move fromRegister => do
    let (mode, reg, rm) := operandFields (← rest.head?)
    let (operand, used) ← readOperand? rest.tail mode rm
    let register := (General.ofCode reg).operand
    return (2 + used,
      ⟨"MOV", if fromRegister then .two operand register else .two register operand⟩)
  | moveSegment fromSegment => do
    let (mode, reg, rm) := operandFields (← rest.head?)
    let segment ← Segment.ofCode? reg
    let register ← readRegister? mode rm
    return (2, ⟨"MOV", if fromSegment then .two register.operand segment.operand
      else .two segment.operand register.operand⟩)
  | numberGroup => do
    let (mode, reg, rm) := operandFields (← rest.head?)
    let op ← BinaryOp.ofCode? reg
    let dest ← readRegister? mode rm
    let w ← readWord? rest.tail
    return (4, ⟨op.name, .two dest.operand (numberOperand w.toNat)⟩)
  | unaryGroup => do
    let (mode, reg, rm) := operandFields (← rest.head?)
    let op ← UnaryOp.ofCode? reg
    let dest ← readRegister? mode rm
    return (2, ⟨op.name, .one dest.operand⟩)
  | near mnemonic => do
    let w ← readWord? rest
    return (3, ⟨mnemonic, .one (numberOperand (ip + 3 + w).toNat)⟩)
  | short mnemonic => do
    let b ← rest.head?
    return (2, ⟨mnemonic, .one (numberOperand (lowByte ip + 2 + b).toNat)⟩)

end Format

/-- The length of the instruction at the front of machine code, and what its code keeps of it. -/
def decode (ip : Word) : List Byte → Option (Nat × Essence)
  | [] => none
  | opcode :: rest => (Format.ofOpcode? opcode.toNat).bind (·.read ip rest)

end BusCycle
