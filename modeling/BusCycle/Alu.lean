-- The arithmetic unit: operations on words, the two flags that a result sets, and the conditions
-- that jumps ask of the flags.
import BusCycle.Register

namespace BusCycle

/-! ## Operations -/

/-- An operation on two words. A comparison is a subtraction whose result is thrown away. -/
inductive BinaryOp
  | add | sub | and | or | xor | cmp
  deriving DecidableEq, Repr

/-- An operation on one word. -/
inductive UnaryOp
  | inc | dec | not | neg
  deriving DecidableEq, Repr

namespace BinaryOp

def name : BinaryOp → String
  | add => "ADD"
  | sub => "SUB"
  | and => "AND"
  | or => "OR"
  | xor => "XOR"
  | cmp => "CMP"

def all : List BinaryOp := [add, sub, and, or, xor, cmp]

def ofName? (name : String) : Option BinaryOp := all.find? (·.name == name)

/-- The result of an operation, with everything above bit 15 dropped. -/
def apply : BinaryOp → Word → Word → Word
  | add, a, b => a + b
  | sub, a, b => a - b
  | and, a, b => a &&& b
  | or, a, b => a ||| b
  | xor, a, b => a ^^^ b
  | cmp, a, b => a - b

/-- Whether the result is stored. -/
def stores : BinaryOp → Bool
  | cmp => false
  | _ => true

end BinaryOp

namespace UnaryOp

def name : UnaryOp → String
  | inc => "INC"
  | dec => "DEC"
  | not => "NOT"
  | neg => "NEG"

def all : List UnaryOp := [inc, dec, not, neg]

def ofName? (name : String) : Option UnaryOp := all.find? (·.name == name)

def apply : UnaryOp → Word → Word
  | inc, a => a + 1
  | dec, a => a - 1
  | not, a => ~~~a
  | neg, a => -a

end UnaryOp

/-! ## Flags -/

/-- The zero and the sign flag of a result; no other bit is set. -/
def flagsOfResult (w : Word) : Word :=
  (if w = 0 then Flags.zeroMask else 0) ||| (if w.getLsbD 15 then Flags.signMask else 0)

/-- A number read as signed if bit 15 is set. -/
def signedReading (v : Int) : Int := if v / 0x8000 % 2 = 1 then v - 0x10000 else v

/-! ## Conditions -/

/-- The condition of a conditional jump, by its mnemonic. Two pairs of mnemonics mean the same. -/
inductive Condition
  | je | jz | jne | jnz | js | jns | jl | jge | jle | jg
  deriving DecidableEq, Repr

namespace Condition

def name : Condition → String
  | je => "JE"
  | jz => "JZ"
  | jne => "JNE"
  | jnz => "JNZ"
  | js => "JS"
  | jns => "JNS"
  | jl => "JL"
  | jge => "JGE"
  | jle => "JLE"
  | jg => "JG"

def all : List Condition := [je, jz, jne, jnz, js, jns, jl, jge, jle, jg]

def ofName? (name : String) : Option Condition := all.find? (·.name == name)

/-- Whether flags meet the condition. There is no overflow flag, so the signed comparisons go by
the sign of the difference alone. -/
def holds (c : Condition) (f : Flags) : Bool :=
  match c with
  | je | jz => f.zero
  | jne | jnz => !f.zero
  | js | jl => f.sign
  | jns | jge => !f.sign
  | jle => f.zero || f.sign
  | jg => !f.zero && !f.sign

end Condition

end BusCycle
