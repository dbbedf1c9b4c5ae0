-- Paths: the form in which messages show them, and the character that no path may hold.

namespace BusCycle.Path

/-- The slashes that an absolute path starts with: exactly two stay two, else one is enough. -/
def root (path : List Char) : List Char :=
  match (path.takeWhile (· == '/')).length with
  | 0 => []
  | 2 => ['/', '/']
  | _ => ['/']

/-- The path without empty parts and without parts that stay where they are. The path to where one
stands is a point. -/
def normal (path : String) : String :=
  let parts := (path.toList.splitOn '/').filter fun p => !p.isEmpty && p != ['.']
  let text := root path.toList ++ ['/'].intercalate parts
  if text.isEmpty then "." else String.ofList text

/-- Whether a path holds the zero character. Nothing is looked for under such a path. -/
def hasZero (path : String) : Bool := path.toList.contains '\x00'

end BusCycle.Path
