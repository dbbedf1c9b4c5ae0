-- Programs: the instruction lines of a text, without comments and blank lines, in capitals and with
-- single spaces.
import BusCycle.Text.Blank
import BusCycle.Text.Uppercase

namespace BusCycle.Program

/-- The instruction on a line, up to a semicolon, in capitals with single spaces between its
words. Nothing remains of a line without an instruction. -/
def cleanLine (line : List Char) : List Char :=
  [' '].intercalate (Text.words (Text.upper (Text.trim (Text.upTo ';' line))))

/-- The instruction lines of a text. -/
def clean (source : String) : List String :=
  (((Text.lines source.toList).map cleanLine).filter fun l => !l.isEmpty).map String.ofList

end BusCycle.Program
