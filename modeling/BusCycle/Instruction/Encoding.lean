-- Machine code: the bytes of each form, with a tag on each byte that says what it is. Branches hold
-- the distance from the end of the instruction to the target.
import BusCycle.Instruction.Form
import BusCycle.Instruction.Parser

namespace BusCycle

/-! ## Bytes with tags -/

/-- A byte of machine code with its tag. -/
structure CodeByte where
  value : Byte
  tag : String
  deriving DecidableEq

namespace CodeByte

def opcode (n : Nat) : CodeByte := ⟨BitVec.ofNat 8 n, "Opcode"⟩

/-- The byte that names the operands: a mode of two bits, then two codes of three. -/
def modRm (mode reg rm : Nat) : CodeByte := ⟨BitVec.ofNat 8 (64 * mode + 8 * reg + rm), "ModRM"⟩

/-- The byte that stands for an instruction of no known form. -/
def placeholder : CodeByte := ⟨0x90, "Byte"⟩

end CodeByte

/-- A number in the code, low byte first. -/
def immediateBytes (w : Word) : List CodeByte :=
  [⟨lowByte w, "Immediate low"⟩, ⟨highByte w, "Immediate high"⟩]

/-- A distance or an offset in the code, low byte first. -/
def displacementBytes (w : Word) : List CodeByte :=
  [⟨lowByte w, "Displacement low"⟩, ⟨highByte w, "Displacement high"⟩]

/-- A distance of one byte, the low one. -/
def shortDisplacementBytes (w : Word) : List CodeByte := [⟨lowByte w, "Displacement low"⟩]

/-! ## Codes -/

def General.code : General → Nat
  | ax => 0
  | cx => 1
  | dx => 2
  | bx => 3
  | sp => 4
  | bp => 5
  | si => 6
  | di => 7

def Segment.code : Segment → Nat
  | es => 0
  | cs => 1
  | ss => 2
  | ds => 3

/-- The number that the opcodes of an operation share. -/
def BinaryOp.code : BinaryOp → Nat
  | add => 0
  | or => 1
  | and => 4
  | sub => 5
  | xor => 6
  | cmp => 7

/-- The low half of the opcode of a conditional jump. -/
def Condition.code : Condition → Nat
  | je | jz => 0x4
  | jne | jnz => 0x5
  | js => 0x8
  | jns => 0x9
  | jl => 0xC
  | jge => 0xD
  | jle => 0xE
  | jg => 0xF

/-! ## Encoding -/

/-- The operand byte and the offset, if there is one, of a place in memory. -/
def Place.encode (reg : General) : Place → List CodeByte
  | si => [.modRm 0 reg.code 4]
  | di => [.modRm 0 reg.code 5]
  | literal d => .modRm 0 reg.code 6 :: displacementBytes (BitVec.ofInt 16 d)

/-- The distance from the end of an instruction of `length` bytes at `ip` to a target. -/
def distance (target : Int) (ip length : Word) : Word := BitVec.ofInt 16 target - (ip + length)

/-- The opcode and the operand bytes of a move between `AX` and a literal place have a short form. -/
def encodeTransfer (opcode short : Nat) (reg : General) (place : Place) : List CodeByte :=
  match reg, place with
  | .ax, .literal d => .opcode short :: displacementBytes (BitVec.ofInt 16 d)
  | _, _ => .opcode opcode :: place.encode reg

/-- An operation with a number has a short form for `AX`. -/
def encodeBinaryImmediate (op : BinaryOp) (dest : General) (w : Word) : List CodeByte :=
  match dest with
  | .ax => .opcode (8 * op.code + 5) :: immediateBytes w
  | _ => .opcode 0x81 :: .modRm 3 op.code dest.code :: immediateBytes w

/-- An operation on one register. -/
def encodeUnary : UnaryOp → General → List CodeByte
  | .inc, r => [.opcode (0x40 + r.code)]
  | .dec, r => [.opcode (0x48 + r.code)]
  | .not, r => [.opcode 0xF7, .modRm 3 2 r.code]
  | .neg, r => [.opcode 0xF7, .modRm 3 3 r.code]

/-- The machine code of a form at an instruction pointer. -/
def Form.encode (ip : Word) : Form → List CodeByte
  | moveImmediate dest value => .opcode (0xB8 + dest.code) :: immediateBytes (BitVec.ofInt 16 value)
  | move dest src => [.opcode 0x89, .modRm 3 src.code dest.code]
  | loadSegment dest src => [.opcode 0x8E, .modRm 3 dest.segment.code src.code]
  | storeSegment dest src => [.opcode 0x8C, .modRm 3 src.code dest.code]
  | store dest src => encodeTransfer 0x89 0xA3 src dest
  | load dest src => encodeTransfer 0x8B 0xA1 dest src
  | binary op dest src => [.opcode (8 * op.code + 1), .modRm 3 src.code dest.code]
  | binaryImmediate op dest value => encodeBinaryImmediate op dest (BitVec.ofInt 16 value)
  | unary op dest => encodeUnary op dest
  | jump target => .opcode 0xE9 :: displacementBytes (distance target ip 3)
  | call target => .opcode 0xE8 :: displacementBytes (distance target ip 3)
  | ret => [.opcode 0xC3]
  | branch condition target =>
    .opcode (0x70 + condition.code) :: shortDisplacementBytes (distance target ip 2)
  | loop target => .opcode 0xE2 :: shortDisplacementBytes (distance target ip 2)
  | push src => [.opcode (0x50 + src.code)]
  | pop dest => [.opcode (0x58 + dest.code)]
  | pushFlags => [.opcode 0x9C]
  | popFlags => [.opcode 0x9D]
  | nop => [.opcode 0x90]
  | halt => [.opcode 0xF4]
  | input => [.opcode 0xED]
  | output => [.opcode 0xEF]

/-! ## Assembled instructions -/

/-- An instruction with its form, if it is known, and its machine code. -/
structure Assembled where
  instruction : Instruction
  form : Option Form
  code : List CodeByte
  deriving DecidableEq

namespace Assembled

/-- The bytes that take the place of an unknown instruction: one, or two if it has operands. -/
def placeholders (i : Instruction) : List CodeByte :=
  match i.operands with
  | .none => [.placeholder]
  | _ => [.placeholder, .placeholder]

/-- An instruction assembled at an instruction pointer. -/
def ofInstruction (i : Instruction) (ip : Word) : Assembled :=
  match Form.ofInstruction? i with
  | some f => ⟨i, some f, f.encode ip⟩
  | none => ⟨i, none, placeholders i⟩

/-- A line read and assembled at an instruction pointer. -/
def ofLine (line : String) (ip : Word) (lineNumber : Int) :
    Except (ReadFailure LineError) Assembled :=
  (Instruction.parse line lineNumber).map (ofInstruction · ip)

/-- The machine code as pairs of hexadecimal digits. -/
def hex (a : Assembled) : String := String.intercalate " " (a.code.map (hexByte ·.value))

end Assembled

end BusCycle
