-- Reading numbers: the plain decimal spelling, and the free spelling of options and settings,
-- with blanks around it, digits of any script and underscores between digits.
import BusCycle.Number.Binary64
import BusCycle.Text.Blank
import BusCycle.Text.DecimalDigit

namespace BusCycle.Number

/-! ## Digits -/

/-- Whether a character is one of the ten plain digits. -/
def isDigit (c : Char) : Bool := '0' ≤ c && c ≤ '9'

/-- The number that a row of plain digits spells. -/
def ofDigits (digits : List Char) : Nat := Nat.ofDigitChars 10 digits 0

/-- The digits at the start of a text, and what follows them. -/
def spanDigits (s : List Char) : List Char × List Char := (s.takeWhile isDigit, s.dropWhile isDigit)

/-- The sign at the start of a text, `true` for a minus sign, and what follows it. -/
def readSign : List Char → Bool × List Char
  | '-' :: r => (true, r)
  | '+' :: r => (false, r)
  | r => (false, r)

/-! ## The plain decimal spelling -/

/-- The power of ten after the digits: none, or `e` with an optional sign and digits up to the
end of the text. -/
def readExponent? : List Char → Option Int
  | [] => some 0
  | c :: r =>
    if c == 'e' || c == 'E' then
      let (negative, r) := readSign r
      if !r.isEmpty && r.all isDigit then
        some (if negative then -(ofDigits r : Int) else ofDigits r)
      else none
    else none

/-- Digits with an optional point among them and an optional power of ten. -/
def readUnsigned? (negative : Bool) (s : List Char) : Option Binary64 :=
  let (whole, r) := spanDigits s
  let (fraction, r) := match r with
    | '.' :: t => spanDigits t
    | _ => ([], r)
  if whole.isEmpty && fraction.isEmpty then none
  else
    (readExponent? r).map fun e =>
      .ofDecimal negative (ofDigits (whole ++ fraction)) (e - fraction.length)

/-! ## The free spelling -/

/-- A character of a free spelling in plain form: any digit as a plain digit and any wide blank as
a space. What has no plain form is replaced by a character that no number has. -/
def plain (c : Char) : Char :=
  if c.toNat < 0x7F then c
  else if Text.isBlank c then ' '
  else match Text.decimalValue? c with
    | some v => Nat.digitChar v
    | none => '?'

/-- The blanks that may stand around a number in plain form. -/
def isPlainBlank (c : Char) : Bool := (0x09 ≤ c.toNat && c.toNat ≤ 0x0D) || c == ' '

/-- The text in plain form without the blanks around it. -/
def plainText (s : List Char) : List Char :=
  let t := (s.map plain).dropWhile isPlainBlank
  (t.reverse.dropWhile isPlainBlank).reverse

/-- The text without underscores, if each of them stands between two digits. -/
def ungrouped? (afterDigit : Bool) : List Char → Option (List Char)
  | [] => some []
  | '_' :: r => if afterDigit && (r.head?.any isDigit) then ungrouped? false r else none
  | c :: r => (ungrouped? (isDigit c) r).map (c :: ·)

/-- The real number that a free spelling denotes: a decimal, an infinity or not-a-number. -/
def readReal? (s : List Char) : Option Binary64 := do
  let (negative, body) := readSign (← ungrouped? false (plainText s))
  let word := body.map Char.toLower
  if word == "nan".toList then some .nan
  else if word == "inf".toList || word == "infinity".toList then some (.infinite negative)
  else readUnsigned? negative body

/-- The whole number that a free spelling denotes, unless it has too many digits. -/
def readInt? (s : List Char) : Option Int := do
  let (negative, body) := readSign (← ungrouped? false (plainText s))
  if !body.isEmpty && body.all isDigit && body.length ≤ Text.digitLimit then
    some (if negative then -(ofDigits body : Int) else ofDigits body)
  else none

end BusCycle.Number
