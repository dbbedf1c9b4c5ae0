-- Reading a settings document: the usual notation of nested lists and objects, with the real
-- numbers `NaN`, `Infinity` and `-Infinity` added. Of two equal names in an object the last wins.
-- What is nested too deep is refused where it gets too deep.
import BusCycle.Document.Datum

namespace BusCycle.Document

/-- What a reader found at the start of a text, and the text after it. -/
abbrev Found (α : Type) : Type := Option (α × List Char)

/-- The text after its leading blanks: space, tab and the two line ends. -/
def skipBlanks (s : List Char) : List Char :=
  s.dropWhile fun c => c == ' ' || c == '\t' || c == '\n' || c == '\r'

/-! ## Texts -/

/-- The value of a hexadecimal digit in either case. -/
def hexValue? (c : Char) : Option Nat :=
  if '0' ≤ c && c ≤ '9' then some (c.toNat - '0'.toNat)
  else if 'a' ≤ c && c ≤ 'f' then some (c.toNat - 'a'.toNat + 10)
  else if 'A' ≤ c && c ≤ 'F' then some (c.toNat - 'A'.toNat + 10)
  else none

def hexUnit? (a b c d : Char) : Option Nat := do
  return ((← hexValue? a) * 16 + (← hexValue? b)) * 256 + (← hexValue? c) * 16 + (← hexValue? d)

/-- What an escape of one letter stands for. -/
def escape? : Char → Option Nat
  | '"' => some 0x22
  | '\\' => some 0x5C
  | '/' => some 0x2F
  | 'b' => some 0x08
  | 'f' => some 0x0C
  | 'n' => some 0x0A
  | 'r' => some 0x0D
  | 't' => some 0x09
  | _ => none

/-- The units of a text up to its closing quote. Controls have to be escaped. -/
def readUnits : List Char → Option (List Nat × List Char)
  | '"' :: r => some ([], r)
  | '\\' :: 'u' :: a :: b :: c :: d :: r => do
    let unit ← hexUnit? a b c d
    let (units, rest) ← readUnits r
    return (unit :: units, rest)
  | '\\' :: c :: r => do
    let unit ← escape? c
    let (units, rest) ← readUnits r
    return (unit :: units, rest)
  | c :: r =>
    if c.toNat < 0x20 then none
    else do
      let (units, rest) ← readUnits r
      return (c.toNat :: units, rest)
  | [] => none

/-- The characters that units spell. A high and a low surrogate make one character. -/
def ofUnits : List Nat → List Char
  | [] => []
  | h :: l :: r =>
    if 0xD800 ≤ h && h < 0xDC00 && 0xDC00 ≤ l && l < 0xE000 then
      Char.ofNat (0x10000 + (h - 0xD800) * 0x400 + (l - 0xDC00)) :: ofUnits r
    else character h :: ofUnits (l :: r)
  | [u] => [character u]
where
  /-- A lone surrogate is no character and becomes the replacement character. -/
  character (u : Nat) : Char := if 0xD800 ≤ u && u < 0xE000 then '\uFFFD' else Char.ofNat u

/-- A text after its opening quote. -/
def readText (s : List Char) : Found String :=
  (readUnits s).map fun (units, rest) => (String.ofList (ofUnits units), rest)

/-! ## Numbers -/

/-- The whole part of a number: a zero alone, or digits that start with another one. -/
def readWhole : List Char → Found (List Char)
  | '0' :: r => some (['0'], r)
  | s =>
    let (digits, r) := Number.spanDigits s
    if digits.isEmpty then none else some (digits, r)

/-- A point and the digits after it, if there is at least one. -/
def readFraction : List Char → Found (List Char)
  | '.' :: r =>
    let (digits, rest) := Number.spanDigits r
    if digits.isEmpty then none else some (digits, rest)
  | _ => none

/-- A power of ten, if it has at least one digit. -/
def readPower : List Char → Found Int
  | c :: r =>
    if c == 'e' || c == 'E' then
      let (negative, r) := Number.readSign r
      let (digits, rest) := Number.spanDigits r
      if digits.isEmpty then none
      else
        let n : Int := Number.ofDigits digits
        some (if negative then -n else n, rest)
    else none
  | [] => none

/-- A number. It is whole if it has neither a fraction nor a power of ten. -/
def readNumber (s : List Char) : Option (Quantity × List Char) := do
  let (negative, s) := match s with
    | '-' :: r => (true, r)
    | _ => (false, s)
  let (whole, rest) ← readWhole s
  let fraction := readFraction rest
  let rest := (fraction.map (·.2)).getD rest
  let power := readPower rest
  let rest := (power.map (·.2)).getD rest
  if fraction.isNone && power.isNone then
    let n : Int := Number.ofDigits whole
    return (.whole (if negative then -n else n), rest)
  else
    let digits := (fraction.map (·.1)).getD []
    let e := (power.map (·.1)).getD 0
    return (.real (.ofDecimal negative (Number.ofDigits (whole ++ digits)) (e - digits.length)), rest)

/-! ## Words -/

/-- The words of the notation and what they stand for. -/
def constants : List (List Char × Datum) :=
  [("null".toList, .null), ("true".toList, .bool true), ("false".toList, .bool false),
    ("NaN".toList, .number (.real .nan)), ("Infinity".toList, .number (.real (.infinite false))),
    ("-Infinity".toList, .number (.real (.infinite true)))]

/-- The word at the start of a text. -/
def readConstant (s : List Char) : Found Datum :=
  (constants.find? fun c => c.1.isPrefixOf s).map fun c => (c.2, s.drop c.1.length)

/-! ## Values -/

/-- What holds other values. -/
inductive Nest
  | list
  | object

/-- Why a text is no document. -/
inductive Fault
  | malformed
  | tooDeep (n : Nest)

/-- What a reader found at the start of a text, and the text after it, or what is wrong. -/
abbrev Reading (α : Type) : Type := Except Fault (α × List Char)

/-- What was found, if it was well formed. -/
def wellFormed {α : Type} : Found α → Reading α
  | some found => .ok found
  | none => .error .malformed

/-- How many lists and objects may stand one in another. -/
def greatestDepth : Nat := 990

mutual

/-- A value, with room for so many lists and objects one in another. Every value and every item takes
at least one character, so `fuel` of twice the length of the text never runs out. -/
def readValue : Nat → Nat → List Char → Reading Datum
  | 0, _, _ => .error .malformed
  | fuel + 1, room, s =>
    match s with
    | '"' :: r => (wellFormed (readText r)).map fun (t, rest) => (.text t, rest)
    | '[' :: r =>
      match room, skipBlanks r with
      | 0, _ => .error (.tooDeep .list)
      | _, ']' :: rest => .ok (.list [], rest)
      | room + 1, r => (readItems fuel room r).map fun (items, rest) => (.list items, rest)
    | '\x7b' :: r =>
      match room, skipBlanks r with
      | 0, _ => .error (.tooDeep .object)
      | _, '\x7d' :: rest => .ok (.object [], rest)
      | room + 1, r => (readFields fuel room [] r).map fun (fields, rest) => (.object fields, rest)
    | _ =>
      match readConstant s with
      | some found => .ok found
      | none => (wellFormed (readNumber s)).map fun (q, rest) => (.number q, rest)

/-- The items of a list up to its closing bracket. -/
def readItems : Nat → Nat → List Char → Reading (List Datum)
  | 0, _, _ => .error .malformed
  | fuel + 1, room, s =>
    match readValue fuel room s with
    | .error e => .error e
    | .ok (d, rest) =>
      match skipBlanks rest with
      | ']' :: rest => .ok ([d], rest)
      | ',' :: rest => (readItems fuel room (skipBlanks rest)).map fun (ds, rest) => (d :: ds, rest)
      | _ => .error .malformed

/-- The fields of an object up to its closing brace, put into those read so far. -/
def readFields : Nat → Nat → List (String × Datum) → List Char → Reading (List (String × Datum))
  | 0, _, _, _ => .error .malformed
  | fuel + 1, room, fields, s =>
    match s with
    | '"' :: r =>
      match readText r with
      | none => .error .malformed
      | some (name, rest) =>
        match skipBlanks rest with
        | ':' :: rest =>
          match readValue fuel room (skipBlanks rest) with
          | .error e => .error e
          | .ok (d, rest) =>
            let fields := Datum.putField fields name d
            match skipBlanks rest with
            | '\x7d' :: rest => .ok (fields, rest)
            | ',' :: rest => readFields fuel room fields (skipBlanks rest)
            | _ => .error .malformed
        | _ => .error .malformed
    | _ => .error .malformed

end

/-- The datum that a whole text denotes. -/
def read (s : List Char) : Except Fault Datum :=
  match readValue (2 * s.length + 2) greatestDepth (skipBlanks s) with
  | .error e => .error e
  | .ok (d, rest) => if (skipBlanks rest).isEmpty then .ok d else .error .malformed

end BusCycle.Document
