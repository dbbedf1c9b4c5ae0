-- Instructions as a program writes them: a mnemonic with up to two operands, before anything is
-- known about what the mnemonic means.
import BusCycle.Text.Blank
import BusCycle.Text.Layout

namespace BusCycle

/-! ## Operands -/

/-- The names of registers that hold a word and may be written as an operand. -/
def wordRegisterNames : List String :=
  ["AX", "BX", "CX", "DX", "SI", "DI", "BP", "SP", "CS", "DS", "ES", "SS", "IP"]

/-- The names of registers that hold a byte. They are known, but no instruction takes them. -/
def byteRegisterNames : List String := ["AL", "AH", "BL", "BH", "CL", "CH", "DL", "DH"]

/-- Whether a name is that of a register. -/
def isRegisterName (name : String) : Bool :=
  wordRegisterNames.contains name || byteRegisterNames.contains name

/-- An operand: a register, a number with the text it was written as, or a place in memory that is
given by a register or by a number. -/
inductive Operand
  | register (name : String)
  | immediate (value : Int) (text : String)
  | indirect (base : String)
  | direct (displacement : Int)
  deriving DecidableEq

namespace Operand

/-- The number of bits that a register operand holds. -/
def registerWidth (name : String) : Nat := if byteRegisterNames.contains name then 8 else 16

def display : Operand → String
  | register name => name
  | immediate _ text => text
  | indirect base => "[" ++ base ++ "]"
  | direct displacement => "[" ++ Text.hex 4 displacement ++ "H]"

end Operand

/-- The operands of one instruction: two at most. -/
inductive Operands
  | none
  | one (only : Operand)
  | two (first second : Operand)
  deriving DecidableEq

namespace Operands

def toList : Operands → List Operand
  | none => []
  | one a => [a]
  | two a b => [a, b]

/-- The operands of a list that has at most two. -/
def ofList? : List Operand → Option Operands
  | [] => some none
  | [a] => some (one a)
  | [a, b] => some (two a b)
  | _ => Option.none

/-- The first operand, which most instructions write to. -/
def first? (ops : Operands) : Option Operand := ops.toList[0]?

/-- The second operand, which most instructions read from. -/
def second? (ops : Operands) : Option Operand := ops.toList[1]?

@[simp] theorem ofList?_toList (ops : Operands) : ofList? ops.toList = some ops := by
  cases ops <;> rfl

end Operands

/-! ## Instructions -/

/-- An instruction with the text and the number of the line it was read from. -/
structure Instruction where
  mnemonic : String
  operands : Operands
  text : String
  lineNumber : Int
  deriving DecidableEq

namespace Instruction

/-- The instruction in program text, from its parts. -/
def parts (i : Instruction) : String :=
  let s := i.mnemonic ++ " " ++ String.intercalate ", " (i.operands.toList.map Operand.display)
  String.ofList (Text.trim s.toList)

/-- The text that the instruction was read from, or its parts if it has none. -/
def display (i : Instruction) : String := if i.text.isEmpty then i.parts else i.text

end Instruction

end BusCycle
