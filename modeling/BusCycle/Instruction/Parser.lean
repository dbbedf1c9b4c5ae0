-- Reading one program line: a mnemonic, then up to two operands between commas. Case and the
-- blanks around the parts do not matter.
import BusCycle.Instruction.Basic
import BusCycle.Instruction.Numeral
import BusCycle.Text.Uppercase

namespace BusCycle

/-! ## Faults -/

/-- Why a line is not an instruction. -/
inductive LineFault
  | unreadable (line : String)
  | tooManyOperands (count : Nat)
  | emptyOperand
  | unclosedMemory (text : String)
  | emptyMemory
  | number (fault : Numeral.Fault)
  deriving DecidableEq

/-- What a message says about a fault. -/
def LineFault.message : LineFault → String
  | unreadable line => "Cannot parse '" ++ line ++ "'"
  | tooManyOperands count =>
    "Too many operands (" ++ Text.decimal count ++ "), at most 2 allowed"
  | emptyOperand => "Empty operand"
  | unclosedMemory text => "Unclosed memory operand: '" ++ text ++ "'"
  | emptyMemory => "Empty memory operand '[]'"
  | number fault => fault.message

/-- A fault with the line it is in. -/
structure LineError where
  fault : LineFault
  lineNumber : Int
  line : String
  deriving DecidableEq

/-- The message with the line number in front, unless that is zero. -/
def LineError.message (e : LineError) : String :=
  if e.lineNumber = 0 then e.fault.message
  else "Line " ++ Text.decimal e.lineNumber ++ ": " ++ e.fault.message

/-! ## Operands -/

def readNumber (text : List Char) : Except (ReadFailure LineFault) Word :=
  (Numeral.read text).mapError (.map .number)

namespace Operand

/-- A place in memory, from the text inside the brackets. Register names win over numbers. -/
def readPlace (inner : List Char) : Except (ReadFailure LineFault) Operand :=
  if inner.isEmpty then .error (.fault .emptyMemory)
  else if isRegisterName (String.ofList inner) then .ok (.indirect (String.ofList inner))
  else (readNumber inner).map fun w => .direct w.toNat

/-- An operand. Register names win over numbers, so `AH` is a register. -/
def read (text : List Char) : Except (ReadFailure LineFault) Operand :=
  match text with
  | [] => .error (.fault .emptyOperand)
  | '[' :: rest =>
    if rest.getLast? = some ']' then readPlace (Text.trim rest.dropLast)
    else .error (.fault (.unclosedMemory (String.ofList text)))
  | _ =>
    if isRegisterName (String.ofList text) then .ok (.register (String.ofList text))
    else (readNumber text).map fun w => .immediate w.toNat (String.ofList text)

end Operand

namespace Operands

/-- The operands of a line, from the text after the mnemonic. -/
def read (rest : List Char) : Except (ReadFailure LineFault) Operands :=
  if (Text.trim rest).isEmpty then .ok .none
  else
    match (rest.splitOn ',').map Text.trim with
    | [] => .ok .none
    | [a] => (Operand.read a).map .one
    | [a, b] =>
      match Operand.read a with
      | .error e => .error e
      | .ok x => (Operand.read b).map (.two x)
    | fields => .error (.fault (.tooManyOperands fields.length))

end Operands

/-! ## Lines -/

namespace Instruction

/-- A capital letter from A to Z. -/
def isCapital (c : Char) : Bool := 'A' ≤ c && c ≤ 'Z'

/-- A character that a mnemonic may hold after its first. -/
def isMnemonicChar (c : Char) : Bool := isCapital c || Numeral.isDecimal c

/-- The mnemonic at the start of a line and the text after it. They are kept apart by blanks, and
no line feed may follow these. -/
def split? : List Char → Option (List Char × List Char)
  | [] => none
  | c :: r =>
    if isCapital c then
      let mnemonic := c :: r.takeWhile isMnemonicChar
      let after := r.dropWhile isMnemonicChar
      let rest := Text.trimStart after
      if (after.isEmpty || after.length ≠ rest.length) && !rest.contains '\n' then
        some (mnemonic, rest)
      else none
    else none

/-- The instruction of a line. -/
def parse (line : String) (lineNumber : Int) : Except (ReadFailure LineError) Instruction :=
  let text := Text.upper (Text.trim line.toList)
  match split? text with
  | none => .error (.fault ⟨.unreadable line, lineNumber, line⟩)
  | some (mnemonic, rest) =>
    match Operands.read rest with
    | .error failure => .error (failure.map fun fault => ⟨fault, lineNumber, line⟩)
    | .ok operands => .ok ⟨String.ofList mnemonic, operands, String.ofList text, lineNumber⟩

end Instruction

end BusCycle
