-- The instruction forms that the machine knows. Each form holds just what its encoding and its
-- execution need, so that neither can meet an operand it does not expect. An instruction of no
-- known form is still an instruction: it takes up room and does nothing.
import BusCycle.Alu
import BusCycle.Instruction.Basic

namespace BusCycle

/-! ## The forms -/

/-- A segment register that may be loaded. The code segment may not. -/
inductive LoadableSegment
  | ds | es | ss
  deriving DecidableEq, Repr

namespace LoadableSegment

def segment : LoadableSegment → Segment
  | ds => .ds
  | es => .es
  | ss => .ss

/-- Every segment register that may be loaded. -/
def all : List LoadableSegment := [ds, es, ss]

/-- The loadable segment register of a name. -/
def ofName? (name : String) : Option LoadableSegment := all.find? (·.segment.name == name)

end LoadableSegment

/-- A word in the data segment. -/
inductive Place
  | si
  | di
  | literal (displacement : Int)
  deriving DecidableEq, Repr

/-- A known form of instruction. -/
inductive Form
  | moveImmediate (dest : General) (value : Int)
  | move (dest src : General)
  | loadSegment (dest : LoadableSegment) (src : General)
  | storeSegment (dest : General) (src : Segment)
  | store (dest : Place) (src : General)
  | load (dest : General) (src : Place)
  | binary (op : BinaryOp) (dest src : General)
  | binaryImmediate (op : BinaryOp) (dest : General) (value : Int)
  | unary (op : UnaryOp) (dest : General)
  | jump (target : Int)
  | call (target : Int)
  | ret
  | branch (condition : Condition) (target : Int)
  | loop (target : Int)
  | push (src : General)
  | pop (dest : General)
  | pushFlags
  | popFlags
  | nop
  | halt
  | input
  | output
  deriving DecidableEq, Repr

namespace Form

/-- The name of the kind of a form, as traces show it. -/
def kind : Form → String
  | moveImmediate .. => "MOV_REG_IMM"
  | move .. => "MOV_REG_REG"
  | loadSegment .. => "MOV_SREG_REG"
  | storeSegment .. => "MOV_REG_SREG"
  | store .. => "MOV_MEM_REG"
  | load .. => "MOV_REG_MEM"
  | binary .. => "ALU_REG_REG"
  | binaryImmediate .. => "ALU_REG_IMM"
  | unary .inc _ | unary .dec _ => "INC_DEC_REG"
  | unary .not _ | unary .neg _ => "NOT_NEG_REG"
  | jump _ => "JMP_NEAR"
  | call _ => "CALL_NEAR"
  | ret => "RET_NEAR"
  | branch .. => "JCC_SHORT"
  | loop _ => "LOOP"
  | push _ => "PUSH_REG"
  | pop _ => "POP_REG"
  | pushFlags => "PUSHF"
  | popFlags => "POPF"
  | nop => "NOP"
  | halt => "HLT"
  | input | output => "IO_STUB"

/-- The name of the kind of what may be no known form. -/
def kindOf : Option Form → String
  | some f => f.kind
  | none => "UNRECOGNIZED"

/-- The mnemonic that a form is written with. -/
def mnemonic : Form → String
  | moveImmediate .. | move .. | loadSegment .. | storeSegment .. | store .. | load .. => "MOV"
  | binary op .. | binaryImmediate op .. => op.name
  | unary op _ => op.name
  | jump _ => "JMP"
  | call _ => "CALL"
  | ret => "RET"
  | branch c _ => c.name
  | loop _ => "LOOP"
  | push _ => "PUSH"
  | pop _ => "POP"
  | pushFlags => "PUSHF"
  | popFlags => "POPF"
  | nop => "NOP"
  | halt => "HLT"
  | input => "IN"
  | output => "OUT"

/-! ## Operand classes -/

def general? : Operand → Option General
  | .register name => General.ofName? name
  | _ => none

def segment? : Operand → Option Segment
  | .register name => Segment.ofName? name
  | _ => none

/-- A segment register that may be loaded. -/
def loadable? : Operand → Option LoadableSegment
  | .register name => LoadableSegment.ofName? name
  | _ => none

/-- A place that may hold an operand. Of the registers only `SI` and `DI` give one. -/
def place? : Operand → Option Place
  | .indirect "SI" => some .si
  | .indirect "DI" => some .di
  | .direct displacement => some (.literal displacement)
  | _ => none

def immediate? : Operand → Option Int
  | .immediate value _ => some value
  | _ => none

/-! ## Recognition -/

/-- The form of an instruction without operands. -/
def ofBare? : String → Option Form
  | "RET" => some ret
  | "PUSHF" => some pushFlags
  | "POPF" => some popFlags
  | "NOP" => some nop
  | "HLT" => some halt
  | _ => none

/-- The form of an instruction on one general register. -/
def ofGeneral? (mnemonic : String) (r : General) : Option Form :=
  match mnemonic with
  | "PUSH" => some (push r)
  | "POP" => some (pop r)
  | _ => (UnaryOp.ofName? mnemonic).map (unary · r)

/-- The form of an instruction with a target. -/
def ofTarget? (mnemonic : String) (target : Int) : Option Form :=
  match mnemonic with
  | "JMP" => some (jump target)
  | "CALL" => some (call target)
  | "LOOP" => some (loop target)
  | _ => (Condition.ofName? mnemonic).map (branch · target)

/-- The form of an instruction with one operand. -/
def ofOne? (mnemonic : String) (op : Operand) : Option Form :=
  match general? op, immediate? op with
  | some r, _ => ofGeneral? mnemonic r
  | none, some target => ofTarget? mnemonic target
  | none, none => none

/-- The form of a move into a general register. -/
def ofMoveToGeneral? (dest : General) (src : Operand) : Option Form :=
  match immediate? src, general? src, segment? src, place? src with
  | some value, _, _, _ => some (moveImmediate dest value)
  | _, some r, _, _ => some (move dest r)
  | _, _, some s, _ => some (storeSegment dest s)
  | _, _, _, some p => some (load dest p)
  | _, _, _, _ => none

/-- The form of a move to elsewhere. -/
def ofMoveFromGeneral? (dest : Operand) (src : General) : Option Form :=
  match loadable? dest, place? dest with
  | some s, _ => some (loadSegment s src)
  | none, some p => some (store p src)
  | none, none => none

def ofMove? (dest src : Operand) : Option Form :=
  match general? dest, general? src with
  | some d, _ => ofMoveToGeneral? d src
  | none, some s => ofMoveFromGeneral? dest s
  | none, none => none

/-- The form of an operation on a general register and a second operand. -/
def ofBinary? (op : BinaryOp) (dest src : Operand) : Option Form :=
  match general? dest, general? src, immediate? src with
  | some d, some s, _ => some (binary op d s)
  | some d, none, some value => some (binaryImmediate op d value)
  | _, _, _ => none

/-- The form of an instruction with two operands. Input and output always move `AX`, and `DX` says
where. -/
def ofTwo? (mnemonic : String) (dest src : Operand) : Option Form :=
  match mnemonic, BinaryOp.ofName? mnemonic with
  | "MOV", _ => ofMove? dest src
  | _, some op => ofBinary? op dest src
  | "IN", _ => if dest = .register "AX" ∧ src = .register "DX" then some input else none
  | "OUT", _ => if dest = .register "DX" ∧ src = .register "AX" then some output else none
  | _, _ => none

/-- The form of an instruction, if the machine knows it. -/
def ofInstruction? (i : Instruction) : Option Form :=
  match i.operands with
  | .none => ofBare? i.mnemonic
  | .one op => ofOne? i.mnemonic op
  | .two dest src => ofTwo? i.mnemonic dest src

end Form

end BusCycle
