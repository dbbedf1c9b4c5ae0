-- How numbers and fields are laid out: hexadecimal and decimal fields filled up with zeros,
-- signed differences, and columns filled up with blanks.

namespace BusCycle.Text

/-! ## Digits -/

/-- The hexadecimal digits of a number, in capitals. -/
def hexDigits (n : Nat) : List Char := (Nat.toDigits 16 n).map Char.toUpper

def decimalDigits (n : Nat) : List Char := Nat.toDigits 10 n

/-- The digits with zeros in front until they fill `width` places. More digits are all kept. -/
def fillZeros (width : Nat) (digits : List Char) : List Char :=
  List.replicate (width - digits.length) '0' ++ digits

/-- A number in a field of `width` places. A minus sign takes one of the places. -/
def field (digits : Nat → List Char) (width : Nat) (v : Int) : String :=
  if v < 0 then String.ofList ('-' :: fillZeros (width - 1) (digits v.natAbs))
  else String.ofList (fillZeros width (digits v.natAbs))

/-! ## Fields -/

/-- A hexadecimal field of at least `width` places, such as `00FF`. -/
def hex (width : Nat) (v : Int) : String := field hexDigits width v

/-- A decimal field of at least `width` places, such as `007`. -/
def decimalField (width : Nat) (v : Int) : String := field decimalDigits width v

/-- A decimal number with a minus sign where it has one. -/
def decimal (v : Int) : String := field decimalDigits 0 v

/-- A decimal number that always has a sign, such as `+5`. -/
def signed (v : Int) : String := if v < 0 then decimal v else "+" ++ decimal v

/-! ## Columns -/

/-- The text with blanks after it until it fills `width` places. -/
def padEnd (width : Nat) (s : String) : String :=
  s ++ String.ofList (List.replicate (width - s.length) ' ')

/-- The text with blanks before it until it fills `width` places. -/
def padStart (width : Nat) (s : String) : String :=
  String.ofList (List.replicate (width - s.length) ' ') ++ s

/-- The text in the middle of `width` places. An odd blank goes to the right. -/
def center (width : Nat) (s : String) : String :=
  let free := width - s.length
  padEnd width (String.ofList (List.replicate (free / 2) ' ') ++ s)

end BusCycle.Text
