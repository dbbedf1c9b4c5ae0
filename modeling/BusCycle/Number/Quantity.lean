-- Quantities as settings give them: whole numbers of any size, and real numbers. `8` and `8.0` are
-- equal but stay apart, because each is shown as it was given.
import BusCycle.Number.Reading
import BusCycle.Number.Shortest

namespace BusCycle

/-- A whole or a real number. -/
inductive Quantity
  | whole (n : Int)
  | real (x : Binary64)
  deriving DecidableEq

namespace Quantity

def isNegative : Quantity → Bool
  | whole n => n < 0
  | real x => x.isNegative

def isPositive : Quantity → Bool
  | whole n => 0 < n
  | real x => x.isPositive

/-- Equal to a natural number, however it is written. -/
def isNat (q : Quantity) (n : Nat) : Bool :=
  match q with
  | whole k => k == n
  | real x => x.isNat n

/-- The quantity without its fraction, if it is finite. -/
def truncated? : Quantity → Option Int
  | whole n => some n
  | real (.finite negative m e) =>
    let size : Int := (m * Nat.pow 2 e.toNat / Nat.pow 2 (-e).toNat : Nat)
    some (if negative then -size else size)
  | real _ => none

/-- The thousandths of a quantity, without what is left over, if it is finite and not below zero. -/
def thousandths? : Quantity → Option Nat
  | whole n => if n < 0 then none else some (1000 * n.toNat)
  | real (.finite false m e) => some (1000 * m * Nat.pow 2 e.toNat / Nat.pow 2 (-e).toNat)
  | real _ => none

/-- Whether so many seconds can be waited for: in billionths they have to fit into 63 bits. Less than
zero is no wait at all. -/
def fitsClock : Quantity → Bool
  | whole n => n * 1000000000 < 0x8000000000000000
  | real (.finite negative m e) =>
    negative || m * 1000000000 * Nat.pow 2 e.toNat < 0x8000000000000000 * Nat.pow 2 (-e).toNat
  | real (.infinite negative) => negative
  | real .nan => true

/-- The text of the quantity as it was given. -/
def display : Quantity → String
  | whole n => Text.decimal n
  | real x => x.display

end Quantity

end BusCycle
