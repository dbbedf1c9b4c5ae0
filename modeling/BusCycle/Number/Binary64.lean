-- Real numbers of 64 bits as exact values: a whole mantissa times a power of two. Whatever is
-- not such a value is rounded to the nearest one, and halfway to the even one.

namespace BusCycle

/-- A real number of 64 bits. A finite one is `mantissa * 2 ^ exponent`, with a minus sign if it is
negative; zero has a sign too. -/
inductive Binary64
  | finite (negative : Bool) (mantissa : Nat) (exponent : Int)
  | infinite (negative : Bool)
  | nan
  deriving DecidableEq

namespace Binary64

/-! ## Rounding -/

/-- The exponent of the smallest numbers; their mantissas may be small. -/
def leastExponent : Int := -1074

/-- The exponent of the greatest finite numbers. -/
def greatestExponent : Int := 971

/-- The number of bits of a mantissa. -/
def precision : Nat := 53

/-- The quotient rounded to the nearest whole number, and halfway to the even one. -/
def roundedQuotient (num den : Nat) : Nat :=
  let q := num / den
  let r := num % den
  if 2 * r > den || (2 * r == den && q % 2 == 1) then q + 1 else q

/-- The quotient over a power of two, as a numerator and a denominator. -/
def scaled (num den : Nat) (exponent : Int) : Nat × Nat :=
  (num * Nat.pow 2 (-exponent).toNat, den * Nat.pow 2 exponent.toNat)

/-- The exponent that gives a positive quotient a mantissa of full precision, or the least one. -/
def exponentOf (num den : Nat) : Int :=
  let low : Int := (num.log2 : Int) - den.log2 - precision
  let (n, d) := scaled num den low
  max leastExponent (if n / d ≥ Nat.pow 2 precision then low + 1 else low)

/-- The nearest number to a quotient of two positive numbers. -/
def ofQuotient (negative : Bool) (num den : Nat) : Binary64 :=
  let e := exponentOf num den
  let (n, d) := scaled num den e
  let m := roundedQuotient n d
  let (m, e) :=
    if m == Nat.pow 2 precision then (Nat.pow 2 (precision - 1), e + 1) else (m, e)
  if e > greatestExponent then infinite negative else finite negative m e

def zero (negative : Bool) : Binary64 := finite negative 0 leastExponent

/-- The nearest number to `digits * 10 ^ exponent`. Far out of range the digits do not matter. -/
def ofDecimal (negative : Bool) (digits : Nat) (exponent : Int) : Binary64 :=
  if digits == 0 then zero negative
  else
    let size := (Nat.toDigits 10 digits).length + exponent
    if size > 310 then infinite negative
    else if size < -330 then zero negative
    else
      ofQuotient negative (digits * Nat.pow 10 exponent.toNat) (Nat.pow 10 (-exponent).toNat)

/-- The nearest number to a whole number, if there is a finite one. -/
def ofInt? (n : Int) : Option Binary64 :=
  if n == 0 then some (zero false)
  else
    match ofQuotient (n < 0) n.natAbs 1 with
    | infinite _ => none
    | x => some x

/-! ## Comparing with whole numbers -/

/-- Less than zero. Neither zero is, and what is not a number is not. -/
def isNegative : Binary64 → Bool
  | finite negative m _ => negative && m != 0
  | infinite negative => negative
  | nan => false

def isPositive : Binary64 → Bool
  | finite negative m _ => !negative && m != 0
  | infinite negative => !negative
  | nan => false

def isNat (x : Binary64) (n : Nat) : Bool :=
  match x with
  | finite negative m e =>
    let (num, den) := scaled m 1 (-e)
    num == n * den && (!negative || m == 0)
  | _ => false

end Binary64

end BusCycle
