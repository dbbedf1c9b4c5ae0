-- Data of a settings document, and how a message shows a datum that it complains about.
import BusCycle.Number.Quantity
import BusCycle.Text.Quoted

namespace BusCycle

/-- A value of a settings document. The names in an object are different from each other. -/
inductive Datum
  | null
  | bool (b : Bool)
  | number (q : Quantity)
  | text (s : String)
  | list (items : List Datum)
  | object (fields : List (String × Datum))

namespace Datum

/-! ## Objects -/

/-- The value of a name in an object. -/
def field? (fields : List (String × Datum)) (name : String) : Option Datum := fields.lookup name

/-- The object with a name set to a value. A name that was there keeps its place. -/
def putField (fields : List (String × Datum)) (name : String) (value : Datum) :
    List (String × Datum) :=
  if fields.any (·.1 == name) then fields.map fun f => if f.1 == name then (name, value) else f
  else fields ++ [(name, value)]

/-! ## Display -/

mutual

/-- The datum as a message shows it: texts in quotes, lists in brackets, objects in braces. -/
def display : Datum → String
  | null => "None"
  | bool true => "True"
  | bool false => "False"
  | number q => q.display
  | text s => Text.quoted s
  | list items => "[" ++ String.intercalate ", " (displayItems items) ++ "]"
  | object fields => "\x7b" ++ String.intercalate ", " (displayFields fields) ++ "\x7d"

/-- Each item of a list as a message shows it. -/
def displayItems : List Datum → List String
  | [] => []
  | d :: ds => display d :: displayItems ds

/-- Each name of an object with its value as a message shows it. -/
def displayFields : List (String × Datum) → List String
  | [] => []
  | (name, d) :: fs => (Text.quoted name ++ ": " ++ display d) :: displayFields fs

end

/-- The datum inserted into a message that brings its own quotes: a text stands as it is. -/
def inserted : Datum → String
  | text s => s
  | d => display d

end Datum

end BusCycle
