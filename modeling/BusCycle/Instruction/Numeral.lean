-- Number literals of programs: decimal, hexadecimal with a final `H`, and hexadecimal after `0X`,
-- each with an optional minus sign, as words.
import BusCycle.Word
import BusCycle.Text.Blank
import BusCycle.Text.DecimalDigit

namespace BusCycle

/-! ## Failures -/

/-- Why digits are not converted into a number though they look like one. This is no fault that a
program could be told of: whatever reads the digits breaks off. -/
inductive ConversionFault
  | brokenSuffix (digits : String)
  | tooManyDigits (count : Nat)
  deriving DecidableEq

/-- What a message says about digits that are not converted. A broken literal is shown in quotes, cut
to 200 characters. -/
def ConversionFault.message : ConversionFault → String
  | brokenSuffix digits =>
    "invalid literal for int() with base 16: " ++
      String.ofList (('\'' :: digits.toList ++ ['\'']).take 200)
  | tooManyDigits count =>
    "Exceeds the limit (" ++ Text.decimal Text.digitLimit ++
      " digits) for integer string conversion: value has " ++ Text.decimal count ++
      " digits; use sys.set_int_max_str_digits() to increase the limit"

/-- Why nothing is read: the text has a fault, or digits in it are not converted. -/
inductive ReadFailure (α : Type)
  | fault (f : α)
  | conversion (c : ConversionFault)
  deriving DecidableEq

/-- The failure with its fault, if that is what it is, told in another way. -/
def ReadFailure.map {α β : Type} (tell : α → β) : ReadFailure α → ReadFailure β
  | fault f => fault (tell f)
  | conversion c => conversion c

namespace Numeral

/-! ## The three forms -/

def isDecimal (c : Char) : Bool := '0' ≤ c && c ≤ '9'

/-- A hexadecimal digit. Letters are capitals. -/
def isHex (c : Char) : Bool := isDecimal c || ('A' ≤ c && c ≤ 'F')

def digitValue (c : Char) : Nat := if isDecimal c then c.toNat - 48 else c.toNat - 55

/-- The number that digits of a base denote. -/
def valueOf (base : Nat) (digits : List Char) : Nat :=
  digits.foldl (fun n c => base * n + digitValue c) 0

/-- At least one digit, and nothing else. -/
def allDigits (isDigit : Char → Bool) (s : List Char) : Bool := !s.isEmpty && s.all isDigit

/-- The number that an unsigned literal denotes. -/
def unsigned? (s : List Char) : Option Nat :=
  if s.take 2 = ['0', 'X'] ∧ allDigits isHex (s.drop 2) then some (valueOf 16 (s.drop 2))
  else if s.getLast? = some 'H' ∧ allDigits isHex s.dropLast then some (valueOf 16 s.dropLast)
  else if allDigits isDecimal s then some (valueOf 10 s)
  else none

/-! ## Faults -/

/-- Why a text is not a number of a program. -/
inductive Fault
  | malformed (text : String)
  | outOfRange (text : String)
  deriving DecidableEq

/-- What a message says about a fault. -/
def Fault.message : Fault → String
  | malformed text => "Bad operand: '" ++ text ++ "'"
  | outOfRange text => "Value out of 16-bit range: '" ++ text ++ "'"

/-! ## Reading -/

/-- The least number that fits a word, read as signed. -/
def least : Int := -0x8000

/-- The greatest number that fits a word, read as unsigned. -/
def greatest : Int := 0xFFFF

/-- A signed number as a word, if it fits. -/
def fit (text : List Char) (v : Int) : Except (ReadFailure Fault) Word :=
  if least ≤ v ∧ v ≤ greatest then .ok (BitVec.ofInt 16 v)
  else .error (.fault (.outOfRange (String.ofList text)))

/-- Whether a text is more decimal digits than are made one number. There is no such limit to
hexadecimal digits. -/
def isOverlong (s : List Char) : Bool := allDigits isDecimal s && Text.digitLimit < s.length

/-- The word that a literal denotes, from what it is without its sign and from what the sign makes of
the number. -/
def readUnsigned (text unsigned : List Char) (signed : Nat → Int) :
    Except (ReadFailure Fault) Word :=
  if isOverlong unsigned then .error (.conversion (.tooManyDigits unsigned.length))
  else
    match unsigned? unsigned with
    | some n => fit text (signed n)
    | none => .error (.fault (.malformed (String.ofList text)))

/-- The word that a literal denotes. A line feed may follow the digits of a positive literal, but
after a final `H` it breaks the literal apart. -/
def read (text : List Char) : Except (ReadFailure Fault) Word :=
  match text with
  | '-' :: rest => readUnsigned text (Text.trim rest) fun n => -(n : Int)
  | _ =>
    let unsigned := Text.withoutFinalBreak text
    if unsigned ≠ text ∧ unsigned.getLast? = some 'H' ∧ allDigits isHex unsigned.dropLast then
      .error (.conversion (.brokenSuffix (String.ofList unsigned)))
    else readUnsigned text unsigned fun n => n

end Numeral

end BusCycle
