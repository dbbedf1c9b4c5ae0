-- The shortest decimal that reads back as a given real number, and how it is laid out.
import BusCycle.Number.Binary64
import BusCycle.Text.Layout

namespace BusCycle

/-! ## The shortest decimal -/

/-- The number `digits * 10 ^ exponent`. -/
structure Decimal where
  digits : Nat
  exponent : Int

namespace Decimal

/-- The exponent of the first power of ten above a positive quotient. -/
def order (num den : Nat) : Int :=
  if num ≥ den then (Nat.toDigits 10 (num / den)).length
  else 1 - ((Nat.toDigits 10 ((den - 1) / num)).length : Int)

/-- The quotient over a power of ten, as a numerator and a denominator. -/
def scaled (num den : Nat) (exponent : Int) : Nat × Nat :=
  (num * Nat.pow 10 (-exponent).toNat, den * Nat.pow 10 exponent.toNat)

/-- Whether `x / den` lies in the interval that rounds to the number, its ends included only if
the mantissa is even. -/
def reads (low high x : Nat) (closed : Bool) : Bool :=
  if closed then low ≤ x && x ≤ high else low < x && x < high

/-- The decimal with exponent `exponent` that reads back as `mantissa * 2 ^ power`, if there is
one: of the two neighbours on that grid the nearer, and halfway the even one. -/
def onGrid? (mantissa : Nat) (power exponent : Int) : Option Decimal :=
  -- Everything is measured in quarters of the last place of the mantissa.
  let (unitNum, unitDen) := Binary64.scaled 1 1 (2 - power)
  let (num, den) := scaled unitNum unitDen exponent
  let value := 4 * mantissa * num
  let narrow :=
    mantissa == Nat.pow 2 (Binary64.precision - 1) && power > Binary64.leastExponent
  let low := (4 * mantissa - if narrow then 1 else 2) * num
  let high := (4 * mantissa + 2) * num
  let closed := mantissa % 2 == 0
  let below := value / den
  let above := below + 1
  let belowReads := reads low high (below * den) closed && below != 0
  let aboveReads := reads low high (above * den) closed
  let belowNearer := 2 * (value % den) < den || (2 * (value % den) == den && below % 2 == 0)
  if belowReads && (belowNearer || !aboveReads) then some ⟨below, exponent⟩
  else if aboveReads then some ⟨above, exponent⟩
  else none

/-- The decimal with the fewest digits that reads back as a positive number; 17 always suffice. -/
def shortest (mantissa : Nat) (power : Int) : Decimal :=
  let (num, den) := Binary64.scaled mantissa 1 (-power)
  let top := order num den
  ((List.range 17).findSome? fun n => onGrid? mantissa power (top - (n + 1 : Nat))).getD ⟨0, 0⟩

end Decimal

/-! ## The layout -/

namespace Binary64

/-- The digits without zeros at the end. -/
def significant (digits : List Char) : List Char :=
  (digits.reverse.dropWhile (· == '0')).reverse

/-- A decimal point after `point` of the digits, with zeros where digits are missing. There is
always a digit on both sides. -/
def positional (digits : List Char) (point : Int) : List Char :=
  if point ≤ 0 then '0' :: '.' :: (List.replicate (-point).toNat '0' ++ digits)
  else
    let n := point.toNat
    if digits.length ≤ n then digits ++ List.replicate (n - digits.length) '0' ++ ['.', '0']
    else digits.take n ++ '.' :: digits.drop n

/-- One digit before the point, and an exponent of at least two digits with its sign. -/
def scientific (digits : List Char) (exponent : Int) : List Char :=
  let mark := if exponent < 0 then ['e', '-'] else ['e', '+']
  let mantissa := match digits with
    | d :: e :: r => d :: '.' :: e :: r
    | ds => ds
  mantissa ++ mark ++ Text.fillZeros 2 (Text.decimalDigits exponent.natAbs)

/-- The text of a positive number: positional from `0.0001` up to sixteen digits before the
point. -/
def layout (d : Decimal) : List Char :=
  let all := Text.decimalDigits d.digits
  let digits := significant all
  let point := all.length + d.exponent
  if -4 < point && point ≤ 16 then positional digits point else scientific digits (point - 1)

/-- The shortest text that reads back as the number. -/
def display : Binary64 → String
  | nan => "nan"
  | infinite false => "inf"
  | infinite true => "-inf"
  | finite negative m e =>
    let body := if m == 0 then ['0', '.', '0'] else layout (Decimal.shortest m e)
    String.ofList (if negative then '-' :: body else body)

end Binary64

end BusCycle
