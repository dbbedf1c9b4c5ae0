-- Physical addresses: sixteen times a segment plus an offset. The sum is kept as it is, and only
-- the memory drops what lies above its twenty address bits.
import BusCycle.Word

namespace BusCycle

/-! ## Cells of the memory -/

/-- The address of a memory cell. Whole numbers become cell addresses by dropping what lies above
bit 19. -/
abbrev Address := BitVec 20

namespace Address

/-- The cell that a whole number addresses. -/
def ofInt (a : Int) : Address := BitVec.ofInt 20 a

/-- The five hexadecimal digits under which tables list a cell. -/
def key (a : Address) : String := Text.hex 5 a.toNat

end Address

/-! ## How an address was formed -/

/-- Sixteen times the segment plus the offset. -/
def physicalAddress (segment offset : Int) : Int := 16 * segment + offset

/-- What an address was formed for. -/
inductive ReferenceKind
  | fetch
  | data
  deriving DecidableEq

namespace ReferenceKind

/-- The name of a kind of reference. -/
def name : ReferenceKind → String
  | fetch => "fetch"
  | data => "data-reference"

def all : List ReferenceKind := [fetch, data]

def ofName? (name : String) : Option ReferenceKind := all.find? (·.name == name)

end ReferenceKind

/-- One forming of an address, with the names of the registers that the two parts came from. -/
structure Reference where
  kind : ReferenceKind
  segment : Int
  offset : Int
  segmentName : String
  offsetName : String
  deriving DecidableEq

namespace Reference

def fetch (segment offset : Int) : Reference := ⟨.fetch, segment, offset, "CS", "IP"⟩

/-- A reference of either kind. A fetch always goes by `CS:IP`, whatever names are given. -/
def ofParts (kind : ReferenceKind) (segment offset : Int) (segmentName offsetName : String) :
    Reference :=
  match kind with
  | .fetch => fetch segment offset
  | .data => ⟨.data, segment, offset, segmentName, offsetName⟩

def physical (r : Reference) : Int := physicalAddress r.segment r.offset

/-- The key of the cell that the reference reaches. -/
def key (r : Reference) : String := (Address.ofInt r.physical).key

/-- Whether the sum carried past the twenty address bits. -/
def overflowed (r : Reference) : Bool := r.physical > 0xFFFFF

/-- The address arithmetic as one line. -/
def describe (r : Reference) : String :=
  let segment := Text.hex 4 r.segment
  let offset := Text.hex 4 r.offset
  r.kind.name ++ ": " ++ r.segmentName ++ ":" ++ r.offsetName ++ " " ++ segment ++ ":" ++ offset ++
    " -> " ++ segment ++ "H x 10H + " ++ offset ++ "H = " ++ Text.hex 5 r.physical ++ "H" ++
    (if r.overflowed then " (wraps to " ++ r.key ++ "H)" else "")

end Reference

end BusCycle
