-- A plain display: without colours, and wide enough for every line. Marks are left out, and tables stand
-- in boxes, with a title above them and a head between heavy lines.
import BusCycle.Command.Table

namespace BusCycle

/-! ## Tables in boxes -/

namespace Table

/-- The width of each column: that of its longest cell or of its head. -/
def widths (t : Table) : List Nat :=
  t.columns.mapIdx fun i c =>
    t.rows.foldl (fun w row => max w ((row[i]?.map String.length).getD 0)) c.head.length

def cell (c : Column) (width : Nat) (s : String) : String :=
  if c.atRight then Text.padStart width s else Text.padEnd width s

/-- A horizontal line: the left end, the stroke, the crossing and the right end. -/
def rule (widths : List Nat) (left stroke crossing right : String) : String :=
  left ++ String.intercalate crossing (widths.map fun w => String.join (List.replicate (w + 2) stroke)) ++
    right

def cells (t : Table) (bar : String) (row : List String) : String :=
  let shown := (t.columns.zip (t.widths.zip row)).map fun (c, w, s) => " " ++ cell c w s ++ " "
  bar ++ String.intercalate bar shown ++ bar

def lines (t : Table) : List String :=
  let ws := t.widths
  let total := ws.foldl (fun n w => n + w + 3) 1
  [Text.center total t.title, rule ws "┏" "━" "┳" "┓",
    t.cells "┃" (t.columns.map Column.head), rule ws "┡" "━" "╇" "┩"] ++
    t.rows.map (t.cells "│") ++ [rule ws "└" "─" "┴" "┘"]

end Table

/-! ## Marks -/

namespace Display

/-- The text with a backslash in front of each bracket that could open a mark. -/
def escaped (s : List Char) : List Char :=
  s.flatMap fun c => if c == '[' then ['\\', '['] else [c]

/-- The text without its marks, from inside of one or not. -/
def unmarked : Bool → List Char → List Char
  | _, [] => []
  | true, c :: rest => unmarked (c != ']') rest
  | false, '\\' :: '[' :: rest => '[' :: unmarked false rest
  | false, '[' :: rest => unmarked true rest
  | false, c :: rest => c :: unmarked false rest

/-- The plain display. -/
def withoutColours : Display where
  escape s := String.ofList (escaped s.toList)
  marked s := String.ofList (unmarked false s.toList) ++ "\n"
  plain s := s ++ "\n"
  blank := "\n"
  table t := String.join (t.lines.map (· ++ "\n"))

end Display

end BusCycle
