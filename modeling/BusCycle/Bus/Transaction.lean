-- Bus transactions: one address phase and one data phase each, numbered by two bus steps.
import BusCycle.Address

namespace BusCycle

/-! ## Widths -/

/-- The width of the data bus in lines. A width given as a real number stays one when it is shown;
it is the same width. -/
structure BusWidth where
  lines : Int
  asReal : Bool
  deriving DecidableEq

namespace BusWidth

/-- A width given as a whole number. -/
def ofInt (lines : Int) : BusWidth := ⟨lines, false⟩

/-- The two widths that the machine is built for. -/
def IsOffered (w : BusWidth) : Prop := w.lines = 8 ∨ w.lines = 16

instance (w : BusWidth) : Decidable w.IsOffered := inferInstanceAs (Decidable (_ ∨ _))

end BusWidth

/-! ## Transfers -/

/-- What a transfer is for. -/
inductive TransferKind
  | fetch | read | write
  deriving DecidableEq

namespace TransferKind

/-- The name of a kind of transfer. -/
def name : TransferKind → String
  | fetch => "fetch"
  | read => "read"
  | write => "write"

def all : List TransferKind := [fetch, read, write]

def ofName? (name : String) : Option TransferKind := all.find? (·.name == name)

/-- Which way the data go. -/
def direction : TransferKind → String
  | write => "CPU -> memory"
  | _ => "memory -> CPU"

end TransferKind

/-- Data to be moved over the bus in one go: `width` bytes from `address` on, with a tag for each.
Bits of the address above bit 19 are not on the bus, but they are kept for the record. -/
structure Transfer where
  kind : TransferKind
  address : Int
  data : Int
  width : Nat
  tags : List String
  deriving DecidableEq

namespace Transfer

def byte (kind : TransferKind) (address : Int) (value : Byte) (tag : String) : Transfer :=
  ⟨kind, address, value.toNat, 1, [tag]⟩

/-- A transfer of two bytes at once. -/
def pair (kind : TransferKind) (address : Int) (low high : Byte) (lowTag highTag : String) :
    Transfer :=
  ⟨kind, address, (wordOf low high).toNat, 2, [lowTag, highTag]⟩

/-- The transfers that move a word: one on a bus of 16 lines, else the low and the high byte. -/
def word (width : BusWidth) (kind : TransferKind) (address : Int) (value : Word)
    (lowTag highTag : String) : List Transfer :=
  if width.lines = 16 then [pair kind address (lowByte value) (highByte value) lowTag highTag]
  else [byte kind address (lowByte value) lowTag, byte kind (address + 1) (highByte value) highTag]

end Transfer

/-! ## Transactions -/

/-- A transfer that was made, with the bus step of its address phase. -/
structure Transaction extends Transfer where
  step : Int
  deriving DecidableEq

namespace Transaction

/-- The bus step of the data phase. -/
def dataStep (t : Transaction) : Int := t.step + 1

/-- The data in hexadecimal, two digits for each byte. -/
def dataText (t : Transaction) : String := Text.hex (2 * t.width) t.data ++ "H"

/-- The tags as they stand at the end of a line. -/
def tagText (t : Transaction) : String :=
  if t.tags.isEmpty then "" else "  (" ++ String.intercalate ", " t.tags ++ ")"

def addressLine (t : Transaction) : String :=
  "[" ++ Text.decimalField 3 t.step ++ "] ADDR  " ++ (Address.ofInt t.address).key ++ "H  " ++
    t.kind.name

def dataLine (t : Transaction) : String :=
  "[" ++ Text.decimalField 3 t.dataStep ++ "] DATA  " ++ Text.padEnd 6 t.dataText ++ " " ++
    t.kind.direction ++ t.tagText

def lines (t : Transaction) : List String := [t.addressLine, t.dataLine]

end Transaction

end BusCycle
