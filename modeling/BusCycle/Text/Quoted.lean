-- Quoted texts, as messages show a text that they complain about.
import BusCycle.Text.Layout
import BusCycle.Text.Printable

namespace BusCycle.Text

/-! ## One character -/

/-- A code point spelled out with as many hexadecimal digits as it needs: two, four or eight. -/
def spelledOut (n : Nat) : List Char :=
  let digits := Nat.toDigits 16 n
  if n < 0x100 then '\\' :: 'x' :: fillZeros 2 digits
  else if n < 0x10000 then '\\' :: 'u' :: fillZeros 4 digits
  else '\\' :: 'U' :: fillZeros 8 digits

/-- A character inside quotes of the given kind. -/
def quotedChar (quote c : Char) : List Char :=
  if c == quote || c == '\\' then ['\\', c]
  else if c == '\t' then ['\\', 't']
  else if c == '\n' then ['\\', 'n']
  else if c == '\r' then ['\\', 'r']
  else if isPrintable c then [c]
  else spelledOut c.toNat

/-! ## The whole text -/

/-- Single quotes, unless the text holds a single quote and no double quote. -/
def quoteFor (s : List Char) : Char :=
  if s.contains '\'' && !s.contains '"' then '"' else '\''

/-- The text in quotes, with everything that has no shape of its own spelled out. -/
def quoted (s : String) : String :=
  let q := quoteFor s.toList
  String.ofList (q :: s.toList.flatMap (quotedChar q) ++ [q])

end BusCycle.Text
