-- Tables of what there is to see of a session, and the display that they are printed on. How the display
-- shows a table or a text is left to it.
import BusCycle.Session.Snapshot

namespace BusCycle

/-! ## Tables -/

/-- A column: its head, the style of its cells, and whether they stand at the right. -/
structure Column where
  head : String
  style : Option String
  atRight : Bool

/-- A table. -/
structure Table where
  title : String
  columns : List Column
  rows : List (List String)

/-! ## The tables of a snapshot -/

def Snapshot.registerTable (s : Snapshot) : Table where
  title := "Registers"
  columns := [⟨"Reg", some "cyan", false⟩, ⟨"Value", none, true⟩]
  rows := Register.all.map fun r => [r.name, hexWord (s.registers.get r) ++ "H"]

/-- The bytes of the memory with what put them there. -/
def Snapshot.memoryTable (s : Snapshot) : Table where
  title := "Memory"
  columns :=
    [⟨"Address", some "cyan", false⟩, ⟨"Value", none, true⟩, ⟨"Description", none, false⟩]
  rows := s.memory.map fun r => [r.key ++ "H", hexByte r.value ++ "H", r.tag]

/-! ## The display -/

/-- A display, by what comes out when something is printed on it: a text with marks for its styles, a
text without any, an empty line, or a table. In a text that is escaped nothing is taken for a mark. -/
structure Display where
  escape : String → String
  marked : String → String
  plain : String → String
  blank : String
  table : Table → String

end BusCycle
