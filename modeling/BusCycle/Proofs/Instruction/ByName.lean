-- Encoding told by names. Operands are taken as they were read, tables are asked for names that
-- they may lack, and bytes are whole numbers of any size. Nothing of this ever comes to nothing: what
-- an instruction was recognised as vouches for every name that its encoder asks for, and the bytes
-- are those of its machine code.
import BusCycle.Proofs.Instruction.RoundTrip

namespace BusCycle

/-! ## What can come to nothing -/

/-- Why something that was asked for is not there. -/
inductive Lapse
  /-- A table has no entry of a name. -/
  | unknownName (name : String)
  /-- An instruction has no operand in a place. -/
  | noOperand
  /-- An operand is of another kind. -/
  | otherOperand
  /-- A number is too great or too small for a byte. -/
  | noByte (value : Int)
  /-- A program has no line of an index. -/
  | noLine (index : Nat)
  deriving DecidableEq

/-- What is there is gone on with. -/
@[simp] theorem Lapse.ok_bind {α β : Type} (a : α) (next : α → Except Lapse β) :
    (Except.ok a >>= next) = next a := rfl

/-- The entry of a table under a name. -/
def lookUp {α : Type} (table : List (String × α)) (name : String) : Except Lapse α :=
  match table.lookup name with
  | some entry => .ok entry
  | none => .error (.unknownName name)

/-! ## Operands by their place -/

/-- The place of an operand in an instruction. -/
inductive Side
  | dest | src
  deriving DecidableEq

/-- The operand in a place. -/
def Operands.at? (ops : Operands) : Side → Option Operand
  | .dest => ops.first?
  | .src => ops.second?

/-- The name of an operand, which only a register has. -/
def Operand.nameOf : Option Operand → Except Lapse String
  | some (register name) => .ok name
  | some _ => .error .otherOperand
  | none => .error .noOperand

/-- The value of an operand, which only a number has. -/
def Operand.valueOf : Option Operand → Except Lapse Int
  | some (immediate value _) => .ok value
  | some _ => .error .otherOperand
  | none => .error .noOperand

/-- The base of an operand in memory, if it has one. -/
def Operand.baseOf : Option Operand → Except Lapse (Option String)
  | some (indirect base) => .ok (some base)
  | some (direct _) => .ok none
  | some _ => .error .otherOperand
  | none => .error .noOperand

/-- The displacement of an operand in memory, which one with a base does not have. -/
def Operand.displacementOf : Option Operand → Except Lapse Int
  | some (direct displacement) => .ok displacement
  | some _ => .error .otherOperand
  | none => .error .noOperand

namespace Instruction

def nameAt (i : Instruction) (side : Side) : Except Lapse String :=
  Operand.nameOf (i.operands.at? side)

def valueAt (i : Instruction) (side : Side) : Except Lapse Int :=
  Operand.valueOf (i.operands.at? side)

def baseAt (i : Instruction) (side : Side) : Except Lapse (Option String) :=
  Operand.baseOf (i.operands.at? side)

def displacementAt (i : Instruction) (side : Side) : Except Lapse Int :=
  Operand.displacementOf (i.operands.at? side)

/-- The entry of a table under the name of an operand. -/
def entryAt {α : Type} (i : Instruction) (table : List (String × α)) (side : Side) :
    Except Lapse α := do
  lookUp table (← i.nameAt side)

end Instruction

/-! ## Tables -/

def generalCodes : List (String × Int) :=
  [("AX", 0), ("CX", 1), ("DX", 2), ("BX", 3), ("SP", 4), ("BP", 5), ("SI", 6), ("DI", 7)]

def segmentCodes : List (String × Int) := [("ES", 0), ("CS", 1), ("SS", 2), ("DS", 3)]

/-- The codes of the registers that give a place in memory. -/
def baseCodes : List (String × Int) := [("SI", 4), ("DI", 5)]

/-- The opcodes of operations on two registers. -/
def binaryOpcodes : List (String × Int) :=
  [("ADD", 0x01), ("OR", 0x09), ("AND", 0x21), ("SUB", 0x29), ("XOR", 0x31), ("CMP", 0x39)]

/-- What names an operation on a register and a number in its operand byte. -/
def binaryDigits : List (String × Int) :=
  [("ADD", 0), ("OR", 1), ("AND", 4), ("SUB", 5), ("XOR", 6), ("CMP", 7)]

/-- The opcodes of operations on `AX` and a number. -/
def accumulatorOpcodes : List (String × Int) :=
  [("ADD", 0x05), ("OR", 0x0D), ("AND", 0x25), ("SUB", 0x2D), ("XOR", 0x35), ("CMP", 0x3D)]

/-- The opcodes of `INC` and `DEC`, without the code of their register. -/
def countingOpcodes : List (String × Int) := [("INC", 0x40), ("DEC", 0x48)]

/-- What names `NOT` and `NEG` in their operand byte. -/
def complementDigits : List (String × Int) := [("NOT", 2), ("NEG", 3)]

def branchOpcodes : List (String × Int) :=
  [("JE", 0x74), ("JZ", 0x74), ("JNE", 0x75), ("JNZ", 0x75), ("JS", 0x78), ("JNS", 0x79),
    ("JL", 0x7C), ("JGE", 0x7D), ("JLE", 0x7E), ("JG", 0x7F)]

/-- The opcodes of instructions that are one byte long. -/
def singleOpcodes : List (String × Int) :=
  [("RET", 0xC3), ("PUSHF", 0x9C), ("POPF", 0x9D), ("NOP", 0x90), ("HLT", 0xF4)]

/-! ## Bytes as numbers -/

/-- A number that is to be a byte of machine code, with its tag. -/
structure RawByte where
  value : Int
  tag : String
  deriving DecidableEq

namespace RawByte

def opcode (value : Int) : RawByte := ⟨value, "Opcode"⟩

def modRm (mode reg rm : Int) : RawByte :=
  ⟨64 * (mode % 4) + 8 * (reg % 8) + rm % 8, "ModRM"⟩

/-- The two lowest bytes of a number. -/
def word (value : Int) (lowTag highTag : String) : List RawByte :=
  [⟨value % 65536 % 256, lowTag⟩, ⟨value % 65536 / 256 % 256, highTag⟩]

def immediate (value : Int) : List RawByte := word value "Immediate low" "Immediate high"

def displacement (value : Int) : List RawByte := word value "Displacement low" "Displacement high"

/-- The distance from the end of an instruction to a target. -/
def distance (target ip length : Int) : Int := (target - (ip + length)) % 65536

/-- A byte of machine code as a number. -/
def ofCode (b : CodeByte) : RawByte := ⟨b.value.toNat, b.tag⟩

end RawByte

/-! ## Encoders -/

/-- What makes numbers of an instruction at an instruction pointer. -/
abbrev Encoder := Instruction → Int → Except Lapse (List RawByte)

namespace Encoder

open RawByte (opcode modRm immediate displacement)

def moveImmediate : Encoder := fun i _ => do
  let code ← i.entryAt generalCodes .dest
  return opcode (0xB8 + code) :: immediate (← i.valueAt .src)

/-- An opcode and two registers, each in its field of the operand byte. -/
def pair (number : Int) (regs : List (String × Int)) (reg : Side) (rms : List (String × Int))
    (rm : Side) : Encoder := fun i _ => do
  return [opcode number, modRm 3 (← i.entryAt regs reg) (← i.entryAt rms rm)]

/-- The operand byte of a place in memory, with its displacement. -/
def place (code : Int) (memory : Side) (i : Instruction) : Except Lapse (List RawByte) := do
  match ← i.baseAt memory with
  | some base => return [modRm 0 code (← lookUp baseCodes base)]
  | none => return modRm 0 code 6 :: displacement (← i.displacementAt memory)

/-- A move between a register and memory. -/
def transfer (number short : Int) (memory register : Side) : Encoder := fun i _ => do
  let name ← i.nameAt register
  if (← i.baseAt memory) = none ∧ name = "AX" then
    return opcode short :: displacement (← i.displacementAt memory)
  else return opcode number :: (← place (← lookUp generalCodes name) memory i)

def binary : Encoder := fun i ip => do
  pair (← lookUp binaryOpcodes i.mnemonic) generalCodes .src generalCodes .dest i ip

def binaryImmediate : Encoder := fun i _ => do
  let value ← i.valueAt .src
  let name ← i.nameAt .dest
  if name = "AX" then
    return opcode (← lookUp accumulatorOpcodes i.mnemonic) :: immediate value
  else
    let digit ← lookUp binaryDigits i.mnemonic
    return opcode 0x81 :: modRm 3 digit (← lookUp generalCodes name) :: immediate value

def counting : Encoder := fun i _ => do
  return [opcode ((← lookUp countingOpcodes i.mnemonic) + (← i.entryAt generalCodes .dest))]

def complement : Encoder := fun i _ => do
  let digit ← lookUp complementDigits i.mnemonic
  return [opcode 0xF7, modRm 3 digit (← i.entryAt generalCodes .dest)]

def near (number : Int) : Encoder := fun i ip => do
  return opcode number :: displacement (RawByte.distance (← i.valueAt .dest) ip 3)

def short (number : Int) (i : Instruction) (ip : Int) : Except Lapse (List RawByte) := do
  let distance := RawByte.distance (← i.valueAt .dest) ip 2
  return [opcode number, ⟨distance % 256, "Displacement low"⟩]

def branch : Encoder := fun i ip => do short (← lookUp branchOpcodes i.mnemonic) i ip

/-- An opcode with the code of one register in it. -/
def inOpcode (number : Int) : Encoder := fun i _ => do
  return [opcode (number + (← i.entryAt generalCodes .dest))]

def single : Encoder := fun i _ => do
  return [opcode (← lookUp singleOpcodes i.mnemonic)]

def port : Encoder := fun i _ => .ok [opcode (if i.mnemonic = "IN" then 0xED else 0xEF)]

def placeholder : Encoder := fun i _ =>
  .ok (List.replicate (if i.operands = .none then 1 else 2) ⟨0x90, "Byte"⟩)

/-- The encoder of each kind of instruction. -/
def all : List (String × Encoder) :=
  [("MOV_REG_IMM", moveImmediate),
    ("MOV_REG_REG", pair 0x89 generalCodes .src generalCodes .dest),
    ("MOV_SREG_REG", pair 0x8E segmentCodes .dest generalCodes .src),
    ("MOV_REG_SREG", pair 0x8C segmentCodes .src generalCodes .dest),
    ("MOV_MEM_REG", transfer 0x89 0xA3 .dest .src),
    ("MOV_REG_MEM", transfer 0x8B 0xA1 .src .dest),
    ("ALU_REG_REG", binary),
    ("ALU_REG_IMM", binaryImmediate),
    ("INC_DEC_REG", counting),
    ("NOT_NEG_REG", complement),
    ("JMP_NEAR", near 0xE9),
    ("CALL_NEAR", near 0xE8),
    ("RET_NEAR", single),
    ("JCC_SHORT", branch),
    ("LOOP", short 0xE2),
    ("PUSH_REG", inOpcode 0x50),
    ("POP_REG", inOpcode 0x58),
    ("PUSHF", single),
    ("POPF", single),
    ("NOP", single),
    ("HLT", single),
    ("IO_STUB", port),
    ("UNRECOGNIZED", placeholder)]

end Encoder

/-- The kind that an instruction is recognised as. -/
def Instruction.kind (i : Instruction) : String := Form.kindOf (Form.ofInstruction? i)

/-- The numbers of an instruction at an instruction pointer, by the encoder of its kind. -/
def Instruction.encodeByName (i : Instruction) (ip : Int) : Except Lapse (List RawByte) := do
  (← lookUp Encoder.all i.kind) i (ip % 65536)

/-! ## Operands of a form -/

namespace Operand

theorem nameOf_map_plain (op : Option Operand) : nameOf (op.map plain) = nameOf op := by
  rcases op with _ | (_ | _ | _ | _) <;> rfl

theorem valueOf_map_plain (op : Option Operand) : valueOf (op.map plain) = valueOf op := by
  rcases op with _ | (_ | _ | _ | _) <;> rfl

theorem baseOf_map_plain (op : Option Operand) : baseOf (op.map plain) = baseOf op := by
  rcases op with _ | (_ | _ | _ | _) <;> rfl

theorem displacementOf_map_plain (op : Option Operand) :
    displacementOf (op.map plain) = displacementOf op := by
  rcases op with _ | (_ | _ | _ | _) <;> rfl

end Operand

namespace Form.Tells

variable {f : Form} {i : Instruction}

theorem at? (h : f.Tells i.mnemonic i.operands) (side : Side) :
    f.operands.at? side = (i.operands.at? side).map Operand.plain := by
  rw [h.2]
  cases i.operands <;> cases side <;> rfl

theorem nameAt (h : f.Tells i.mnemonic i.operands) (side : Side) :
    i.nameAt side = Operand.nameOf (f.operands.at? side) := by
  rw [h.at? side, Operand.nameOf_map_plain]
  rfl

theorem valueAt (h : f.Tells i.mnemonic i.operands) (side : Side) :
    i.valueAt side = Operand.valueOf (f.operands.at? side) := by
  rw [h.at? side, Operand.valueOf_map_plain]
  rfl

theorem baseAt (h : f.Tells i.mnemonic i.operands) (side : Side) :
    i.baseAt side = Operand.baseOf (f.operands.at? side) := by
  rw [h.at? side, Operand.baseOf_map_plain]
  rfl

theorem displacementAt (h : f.Tells i.mnemonic i.operands) (side : Side) :
    i.displacementAt side = Operand.displacementOf (f.operands.at? side) := by
  rw [h.at? side, Operand.displacementOf_map_plain]
  rfl

theorem kind (h : f.Tells i.mnemonic i.operands) : i.kind = f.kind := by
  unfold Instruction.kind
  rw [ofInstruction?_eq_some_iff.mpr h]
  rfl

end Form.Tells

/-- The base that a place in memory is written with, if it has one. -/
def Place.baseName? : Place → Option String
  | si => some "SI"
  | di => some "DI"
  | literal _ => none

theorem Place.baseOf_operand (p : Place) : Operand.baseOf (some p.operand) = .ok p.baseName? := by
  cases p <;> rfl

/-- What is in memory and has no base has a displacement. -/
theorem Operand.displacementOf_of_baseOf {op : Option Operand} (h : baseOf op = .ok none) :
    ∃ d, displacementOf op = .ok d := by
  rcases op with _ | (_ | _ | _ | d)
  · cases h
  · cases h
  · cases h
  · cases h
  · exact ⟨d, rfl⟩

/-! ## Names that are in the tables -/

theorem lookUp_generalCodes (r : General) : lookUp generalCodes r.name = .ok (r.code : Int) := by
  cases r <;> rfl

theorem lookUp_segmentCodes (s : Segment) : lookUp segmentCodes s.name = .ok (s.code : Int) := by
  cases s <;> rfl

theorem lookUp_binaryOpcodes (op : BinaryOp) :
    lookUp binaryOpcodes op.name = .ok ((8 * op.code + 1 : Nat) : Int) := by
  cases op <;> rfl

theorem lookUp_binaryDigits (op : BinaryOp) :
    lookUp binaryDigits op.name = .ok (op.code : Int) := by
  cases op <;> rfl

theorem lookUp_accumulatorOpcodes (op : BinaryOp) :
    lookUp accumulatorOpcodes op.name = .ok ((8 * op.code + 5 : Nat) : Int) := by
  cases op <;> rfl

theorem lookUp_branchOpcodes (c : Condition) :
    lookUp branchOpcodes c.name = .ok ((0x70 + c.code : Nat) : Int) := by
  cases c <;> rfl

/-! ## Numbers that are the bytes -/

namespace RawByte

theorem ofCode_opcode {n : Nat} (h : n < 256) : ofCode (.opcode n) = opcode n := by
  simp only [ofCode, CodeByte.opcode, BitVec.toNat_ofNat, opcode, mk.injEq, and_true]
  omega

theorem ofCode_modRm (mode : Nat) {reg rm : Nat} (hreg : reg < 8) (hrm : rm < 8) :
    ofCode (.modRm mode reg rm) = modRm mode reg rm := by
  simp only [ofCode, CodeByte.modRm, BitVec.toNat_ofNat, modRm, mk.injEq, and_true]
  omega

theorem ofCode_lowByte (value : Int) (tag : String) :
    ofCode ⟨lowByte (BitVec.ofInt 16 value), tag⟩ = ⟨value % 256, tag⟩ := by
  simp only [ofCode, toNat_lowByte, BitVec.toNat_ofInt, mk.injEq, and_true]
  omega

/-- The two bytes of a word are the lowest two of the number that it was made from. -/
theorem ofCode_word (value : Int) (lowTag highTag : String) :
    [ofCode ⟨lowByte (BitVec.ofInt 16 value), lowTag⟩,
      ofCode ⟨highByte (BitVec.ofInt 16 value), highTag⟩] = word value lowTag highTag := by
  simp only [ofCode, word, toNat_lowByte, toNat_highByte, BitVec.toNat_ofInt, List.cons.injEq,
    mk.injEq, and_true]
  omega

theorem map_ofCode_immediateBytes (value : Int) :
    (immediateBytes (BitVec.ofInt 16 value)).map ofCode = immediate value :=
  ofCode_word value _ _

theorem map_ofCode_displacementBytes (value : Int) :
    (displacementBytes (BitVec.ofInt 16 value)).map ofCode = displacement value :=
  ofCode_word value _ _

/-- The distance as a word. -/
theorem ofInt_distance (target : Int) (ip : Word) (length : Nat) :
    BitVec.ofInt 16 (distance target ip.toNat length) =
      BusCycle.distance target ip (BitVec.ofNat 16 length) := by
  apply BitVec.eq_of_toNat_eq
  simp only [distance, BusCycle.distance, BitVec.toNat_sub, BitVec.toNat_add, BitVec.toNat_ofInt,
    BitVec.toNat_ofNat]
  omega

/-- The code of two registers in their fields. -/
theorem map_ofCode_pair {n reg rm : Nat} (h : n < 256) (hreg : reg < 8) (hrm : rm < 8) :
    [CodeByte.opcode n, .modRm 3 reg rm].map ofCode = [opcode n, modRm 3 reg rm] := by
  rw [List.map_cons, List.map_singleton, ofCode_opcode h, ofCode_modRm 3 hreg hrm]
  rfl

end RawByte

/-! ## The encoder of each kind -/

theorem Instruction.entryAt_of_nameAt {α : Type} {i : Instruction} {side : Side} {name : String}
    (h : i.nameAt side = .ok name) (table : List (String × α)) :
    i.entryAt table side = lookUp table name := by
  rw [entryAt, h]
  rfl

namespace Encoder

open RawByte (opcode modRm immediate displacement)

variable {i : Instruction} {regs rms : List (String × Int)} {reg rm : Side}

theorem moveImmediate_eq {dest : General} {value : Int} (ip : Word)
    (h : (Form.moveImmediate dest value).Tells i.mnemonic i.operands) :
    moveImmediate i ip.toNat = .ok (((Form.moveImmediate dest value).encode ip).map .ofCode) := by
  have code : i.entryAt generalCodes .dest = .ok (dest.code : Int) :=
    (Instruction.entryAt_of_nameAt (h.nameAt .dest) _).trans (lookUp_generalCodes dest)
  have number : i.valueAt .src = .ok value := h.valueAt .src
  have := dest.code_lt
  rw [Form.encode, List.map_cons, RawByte.ofCode_opcode (by omega),
    RawByte.map_ofCode_immediateBytes]
  simp only [moveImmediate, code, number]
  rfl

theorem pair_eq {n a b : Nat} (hreg : i.entryAt regs reg = .ok (a : Int))
    (hrm : i.entryAt rms rm = .ok (b : Int)) (hn : n < 256) (ha : a < 8) (hb : b < 8) (ip : Int) :
    pair n regs reg rms rm i ip = .ok ([CodeByte.opcode n, .modRm 3 a b].map .ofCode) := by
  rw [RawByte.map_ofCode_pair hn ha hb]
  simp only [pair, hreg, hrm]
  rfl

theorem place_eq {p : Place} {memory : Side} (r : General)
    (base : i.baseAt memory = .ok p.baseName?)
    (literal : ∀ d, p = .literal d → i.displacementAt memory = .ok d) :
    place r.code memory i = .ok ((p.encode r).map .ofCode) := by
  have hr := r.code_lt
  unfold place
  rw [base]
  cases p with
  | si | di =>
    rw [Place.encode, List.map_singleton, RawByte.ofCode_modRm 0 hr (by decide)]
    rfl
  | literal d =>
    rw [Place.encode, List.map_cons, RawByte.ofCode_modRm 0 hr (by decide),
      RawByte.map_ofCode_displacementBytes]
    simp only [Place.baseName?, literal d rfl]
    rfl

theorem name_eq_ax_iff (r : General) : r.name = "AX" ↔ r = .ax := by
  cases r <;> decide

theorem transfer_eq {n k : Nat} {memory register : Side} {p : Place} {r : General}
    (hn : n < 256) (hk : k < 256) (name : i.nameAt register = .ok r.name)
    (base : i.baseAt memory = .ok p.baseName?)
    (literal : ∀ d, p = .literal d → i.displacementAt memory = .ok d) (ip : Int) :
    transfer n k memory register i ip = .ok ((encodeTransfer n k r p).map .ofCode) := by
  have placed := place_eq r base literal
  have long : opcode n :: (p.encode r).map RawByte.ofCode =
      (CodeByte.opcode n :: p.encode r).map .ofCode := by
    rw [List.map_cons, RawByte.ofCode_opcode hn]
  simp only [transfer, name, base, Lapse.ok_bind, lookUp_generalCodes, placed, name_eq_ax_iff, long]
  -- The short form is that of `AX` and a literal place, and of nothing else.
  cases p with
  | si | di =>
    rw [if_neg (by rintro ⟨base, -⟩; cases base)]
    cases r <;> rfl
  | literal d =>
    by_cases ax : r = .ax
    · subst ax
      rw [if_pos ⟨rfl, rfl⟩, literal d rfl, encodeTransfer, List.map_cons,
        RawByte.ofCode_opcode hk, RawByte.map_ofCode_displacementBytes]
      rfl
    · rw [if_neg (fun both => ax both.2), encodeTransfer]
      · rfl
      · exact fun _ same _ => ax same

theorem binary_eq {op : BinaryOp} {dest src : General} (ip : Word)
    (h : (Form.binary op dest src).Tells i.mnemonic i.operands) :
    binary i ip.toNat = .ok (((Form.binary op dest src).encode ip).map .ofCode) := by
  have number : lookUp binaryOpcodes i.mnemonic = .ok ((8 * op.code + 1 : Nat) : Int) := by
    rw [← h.1]
    exact lookUp_binaryOpcodes op
  have from_src : i.entryAt generalCodes .src = .ok (src.code : Int) :=
    (Instruction.entryAt_of_nameAt (h.nameAt .src) _).trans (lookUp_generalCodes src)
  have to_dest : i.entryAt generalCodes .dest = .ok (dest.code : Int) :=
    (Instruction.entryAt_of_nameAt (h.nameAt .dest) _).trans (lookUp_generalCodes dest)
  have := op.code_lt
  rw [binary, number, Lapse.ok_bind]
  exact pair_eq from_src to_dest (by omega) src.code_lt dest.code_lt ip.toNat

theorem binaryImmediate_eq {op : BinaryOp} {dest : General} {value : Int} (ip : Word)
    (h : (Form.binaryImmediate op dest value).Tells i.mnemonic i.operands) :
    binaryImmediate i ip.toNat =
      .ok (((Form.binaryImmediate op dest value).encode ip).map .ofCode) := by
  have number : i.valueAt .src = .ok value := h.valueAt .src
  have name : i.nameAt .dest = .ok dest.name := h.nameAt .dest
  have mnemonic : i.mnemonic = op.name := h.1.symm
  have := op.code_lt
  simp only [binaryImmediate, number, name, mnemonic, Lapse.ok_bind, lookUp_accumulatorOpcodes,
    lookUp_binaryDigits, lookUp_generalCodes, name_eq_ax_iff]
  by_cases ax : dest = .ax
  · subst ax
    rw [if_pos rfl, Form.encode, encodeBinaryImmediate, List.map_cons,
      RawByte.ofCode_opcode (by omega), RawByte.map_ofCode_immediateBytes]
    rfl
  · rw [if_neg ax, Form.encode, encodeBinaryImmediate, List.map_cons, List.map_cons,
      RawByte.ofCode_opcode (by omega), RawByte.ofCode_modRm 3 op.code_lt dest.code_lt,
      RawByte.map_ofCode_immediateBytes]
    · rfl
    · exact ax

theorem inOpcode_eq {n : Nat} {r : General} (hn : n + r.code < 256)
    (name : i.nameAt .dest = .ok r.name) (ip : Int) :
    inOpcode n i ip = .ok ([CodeByte.opcode (n + r.code)].map .ofCode) := by
  rw [List.map_singleton, RawByte.ofCode_opcode hn]
  simp only [inOpcode, Instruction.entryAt_of_nameAt name, lookUp_generalCodes]
  rfl

/-- `INC` and `DEC` have the register in their opcode, `NOT` and `NEG` in the operand byte. -/
theorem unary_eq {op : UnaryOp} {dest : General} (ip : Word)
    (h : (Form.unary op dest).Tells i.mnemonic i.operands) :
    (op = .inc ∨ op = .dec →
        counting i ip.toNat = .ok (((Form.unary op dest).encode ip).map .ofCode)) ∧
      (op = .not ∨ op = .neg →
        complement i ip.toNat = .ok (((Form.unary op dest).encode ip).map .ofCode)) := by
  have name : i.nameAt .dest = .ok dest.name := h.nameAt .dest
  have mnemonic : i.mnemonic = op.name := h.1.symm
  have := dest.code_lt
  constructor
  · rintro (rfl | rfl)
    all_goals
      rw [Form.encode, encodeUnary, List.map_singleton, RawByte.ofCode_opcode (by omega)]
      simp only [counting, Instruction.entryAt_of_nameAt name, lookUp_generalCodes, mnemonic]
      rfl
  · rintro (rfl | rfl)
    all_goals
      rw [Form.encode, encodeUnary, List.map_cons, List.map_singleton,
        RawByte.ofCode_opcode (by decide), RawByte.ofCode_modRm 3 (by decide) dest.code_lt]
      simp only [complement, Instruction.entryAt_of_nameAt name, lookUp_generalCodes, mnemonic]
      rfl

theorem near_eq {n : Nat} {target : Int} (hn : n < 256) (value : i.valueAt .dest = .ok target)
    (ip : Word) :
    near n i ip.toNat =
      .ok ((CodeByte.opcode n :: displacementBytes (distance target ip 3)).map .ofCode) := by
  have behind : BitVec.ofInt 16 (RawByte.distance target ip.toNat 3) = distance target ip 3 :=
    RawByte.ofInt_distance target ip 3
  rw [List.map_cons, RawByte.ofCode_opcode hn, ← behind, RawByte.map_ofCode_displacementBytes]
  simp only [near, value]
  rfl

theorem short_eq {n : Nat} {target : Int} (hn : n < 256) (value : i.valueAt .dest = .ok target)
    (ip : Word) :
    short n i ip.toNat =
      .ok ((CodeByte.opcode n :: shortDisplacementBytes (distance target ip 2)).map .ofCode) := by
  have behind : BitVec.ofInt 16 (RawByte.distance target ip.toNat 2) = distance target ip 2 :=
    RawByte.ofInt_distance target ip 2
  rw [List.map_cons, RawByte.ofCode_opcode hn, ← behind, shortDisplacementBytes,
    List.map_singleton, RawByte.ofCode_lowByte]
  simp only [short, value]
  rfl

end Encoder

/-! ## Every instruction is encoded -/

/-- By the encoder of its kind, every instruction gets the numbers that are its machine code. -/
theorem Form.Tells.encodeByName {f : Form} {i : Instruction} (h : f.Tells i.mnemonic i.operands)
    (ip : Word) : i.encodeByName ip.toNat = .ok ((f.encode ip).map .ofCode) := by
  have inside : (ip.toNat : Int) % 65536 = ip.toNat := by omega
  unfold Instruction.encodeByName
  rw [h.kind, inside]
  have code {r : General} {side : Side} (name : i.nameAt side = .ok r.name) :
      i.entryAt generalCodes side = .ok (r.code : Int) :=
    (Instruction.entryAt_of_nameAt name _).trans (lookUp_generalCodes r)
  have segmentCode {s : Segment} {side : Side} (name : i.nameAt side = .ok s.name) :
      i.entryAt segmentCodes side = .ok (s.code : Int) :=
    (Instruction.entryAt_of_nameAt name _).trans (lookUp_segmentCodes s)
  have single {n : Nat} (found : lookUp singleOpcodes i.mnemonic = .ok (n : Int)) (hn : n < 256) :
      Encoder.single i ip.toNat = .ok ([CodeByte.opcode n].map .ofCode) := by
    rw [List.map_singleton, RawByte.ofCode_opcode hn, Encoder.single, found]
    rfl
  cases f with
  | moveImmediate dest value => exact Encoder.moveImmediate_eq ip h
  | move dest src =>
    exact Encoder.pair_eq (n := 0x89) (code (h.nameAt .src)) (code (h.nameAt .dest)) (by decide)
      src.code_lt dest.code_lt ip.toNat
  | loadSegment dest src =>
    exact Encoder.pair_eq (n := 0x8E) (segmentCode (h.nameAt .dest)) (code (h.nameAt .src))
      (by decide) dest.segment.code_lt src.code_lt ip.toNat
  | storeSegment dest src =>
    exact Encoder.pair_eq (n := 0x8C) (segmentCode (h.nameAt .src)) (code (h.nameAt .dest))
      (by decide) src.code_lt dest.code_lt ip.toNat
  | store dest src =>
    have base : i.baseAt .dest = .ok dest.baseName? :=
      (h.baseAt .dest).trans dest.baseOf_operand
    refine Encoder.transfer_eq (n := 0x89) (k := 0xA3) (by decide) (by decide) (h.nameAt .src)
      base ?_ ip.toNat
    rintro d rfl
    exact h.displacementAt .dest
  | load dest src =>
    have base : i.baseAt .src = .ok src.baseName? :=
      (h.baseAt .src).trans src.baseOf_operand
    refine Encoder.transfer_eq (n := 0x8B) (k := 0xA1) (by decide) (by decide) (h.nameAt .dest)
      base ?_ ip.toNat
    rintro d rfl
    exact h.displacementAt .src
  | binary op dest src => exact Encoder.binary_eq ip h
  | binaryImmediate op dest value => exact Encoder.binaryImmediate_eq ip h
  | unary op dest =>
    obtain ⟨counts, complements⟩ := Encoder.unary_eq ip h
    cases op with
    | inc => exact counts (Or.inl rfl)
    | dec => exact counts (Or.inr rfl)
    | not => exact complements (Or.inl rfl)
    | neg => exact complements (Or.inr rfl)
  | jump target => exact Encoder.near_eq (n := 0xE9) (by decide) (h.valueAt .dest) ip
  | call target => exact Encoder.near_eq (n := 0xE8) (by decide) (h.valueAt .dest) ip
  | branch c target =>
    have found : lookUp branchOpcodes i.mnemonic = .ok ((0x70 + c.code : Nat) : Int) := by
      rw [← h.1]
      exact lookUp_branchOpcodes c
    have small : 0x70 + c.code < 256 := by cases c <;> decide
    have short := Encoder.short_eq small (h.valueAt .dest) ip
    rw [← Lapse.ok_bind ((0x70 + c.code : Nat) : Int) fun n => Encoder.short n i ip.toNat,
      ← found] at short
    exact short
  | loop target => exact Encoder.short_eq (n := 0xE2) (by decide) (h.valueAt .dest) ip
  | push src =>
    have := src.code_lt
    exact Encoder.inOpcode_eq (n := 0x50) (by omega) (h.nameAt .dest) ip.toNat
  | pop dest =>
    have := dest.code_lt
    exact Encoder.inOpcode_eq (n := 0x58) (by omega) (h.nameAt .dest) ip.toNat
  | ret | pushFlags | popFlags | nop | halt =>
    exact single (by rw [← h.1]; rfl) (by decide)
  | input | output =>
    have port : Encoder.port i ip.toNat =
        .ok [RawByte.opcode (if i.mnemonic = "IN" then 0xED else 0xEF)] := rfl
    rw [← h.1] at port
    exact port

/-- Every instruction gets the numbers that are its machine code, at every instruction pointer: the
encoder of its kind asks for no name that its table lacks and for no operand that is not there. -/
theorem Instruction.encodeByName_eq (i : Instruction) (ip : Word) :
    i.encodeByName ip.toNat = .ok ((Assembled.ofInstruction i ip).code.map .ofCode) := by
  unfold Assembled.ofInstruction
  rcases form : Form.ofInstruction? i with _ | f
  · have kind : i.kind = "UNRECOGNIZED" := by
      rw [kind, form]
      rfl
    unfold encodeByName Assembled.placeholders
    rw [kind]
    show Encoder.placeholder i (ip.toNat % 65536) = _
    unfold Encoder.placeholder
    cases i.operands <;> rfl
  · exact (Form.tells_of_ofInstruction? form).encodeByName ip

/-! ## The length of machine code -/

theorem Form.length_encode (f : Form) (ip : Word) :
    1 ≤ (f.encode ip).length ∧ (f.encode ip).length ≤ 4 := by
  have place (p : Place) (r : General) :
      1 ≤ (p.encode r).length ∧ (p.encode r).length ≤ 3 := by
    cases p <;> simp [Place.encode, displacementBytes]
  have transfer (n short : Nat) (r : General) (p : Place) :
      1 ≤ (encodeTransfer n short r p).length ∧ (encodeTransfer n short r p).length ≤ 4 := by
    have := place p r
    unfold encodeTransfer
    split
    · simp [displacementBytes]
    · rw [List.length_cons]
      omega
  cases f with
  | store dest src => exact transfer _ _ src dest
  | load dest src => exact transfer _ _ dest src
  | binaryImmediate op dest value =>
    cases dest <;> simp [encode, encodeBinaryImmediate, immediateBytes]
  | unary op dest => cases op <;> simp [encode, encodeUnary]
  | _ => simp [encode, immediateBytes, displacementBytes, shortDisplacementBytes]

theorem Assembled.length_code (i : Instruction) (ip : Word) :
    1 ≤ (ofInstruction i ip).code.length ∧ (ofInstruction i ip).code.length ≤ 4 := by
  unfold ofInstruction
  cases Form.ofInstruction? i with
  | none => cases h : i.operands <;> simp [placeholders, h]
  | some f => exact f.length_encode ip

/-- A number that is a byte of machine code is not below zero and not above 255. -/
theorem RawByte.value_ofCode (b : CodeByte) :
    0 ≤ (ofCode b).value ∧ (ofCode b).value ≤ 255 := by
  have := b.value.isLt
  unfold ofCode
  dsimp only
  omega

end BusCycle
