-- The register file: eight general registers, four segment registers, the instruction pointer
-- and the flags.
import BusCycle.Word

namespace BusCycle

/-! ## Names -/

/-- A general register. -/
inductive General
  | ax | bx | cx | dx | si | di | bp | sp
  deriving DecidableEq, Repr

/-- A segment register. -/
inductive Segment
  | cs | ss | ds | es
  deriving DecidableEq, Repr

/-- A register. -/
inductive Register
  | general (r : General)
  | segment (s : Segment)
  | ip
  | flags
  deriving DecidableEq, Repr

def General.name : General → String
  | ax => "AX"
  | bx => "BX"
  | cx => "CX"
  | dx => "DX"
  | si => "SI"
  | di => "DI"
  | bp => "BP"
  | sp => "SP"

def General.all : List General := [ax, bx, cx, dx, si, di, bp, sp]

def General.ofName? (name : String) : Option General := all.find? (·.name == name)

def Segment.name : Segment → String
  | cs => "CS"
  | ss => "SS"
  | ds => "DS"
  | es => "ES"

def Segment.all : List Segment := [cs, ss, ds, es]

def Segment.ofName? (name : String) : Option Segment := all.find? (·.name == name)

def Register.name : Register → String
  | general r => r.name
  | segment s => s.name
  | ip => "IP"
  | flags => "FLAGS"

/-- Every register, in the order in which tables list them. -/
def Register.all : List Register :=
  General.all.map .general ++ Segment.all.map .segment ++ [ip, flags]

def Register.ofName? (name : String) : Option Register := all.find? (·.name == name)

/-- In a list of everything, under names that are all different, a name finds just what it is of. -/
theorem find?_name_eq_some_iff {α : Type} {all : List α} {nameOf : α → String}
    (complete : ∀ a, a ∈ all) (injective : ∀ a ∈ all, ∀ b ∈ all, nameOf a = nameOf b → a = b)
    {name : String} {a : α} : all.find? (nameOf · == name) = some a ↔ name = nameOf a := by
  constructor
  · intro h
    exact (by simpa using List.find?_some h : nameOf a = name).symm
  · rintro rfl
    rcases found : all.find? (nameOf · == nameOf a) with _ | b
    · have missed := List.find?_eq_none.mp found a (complete a)
      simp at missed
    · have same : nameOf b = nameOf a := by simpa using List.find?_some found
      rw [injective b (complete b) a (complete a) same]

theorem General.ofName?_eq_some_iff {name : String} {r : General} :
    ofName? name = some r ↔ name = r.name :=
  find?_name_eq_some_iff (fun r => by cases r <;> decide) (by decide)

theorem Segment.ofName?_eq_some_iff {name : String} {s : Segment} :
    ofName? name = some s ↔ name = s.name :=
  find?_name_eq_some_iff (fun s => by cases s <;> decide) (by decide)

/-! ## Flags -/

/-- The flags word. Only three bits matter: the sign flag, the zero flag, and bit 1, which is
always set. -/
structure Flags where
  word : Word
  reserved : word.getLsbD 1 = true
  deriving DecidableEq

namespace Flags

def zeroMask : Word := 0x0040

def signMask : Word := 0x0080

/-- The flags that a word sets. -/
def ofWord (w : Word) : Flags := ⟨w ||| 0x0002, by simp⟩

def zero (f : Flags) : Bool := f.word.getLsbD 6

def sign (f : Flags) : Bool := f.word.getLsbD 7

/-- The zero and the sign flag taken from a word, all other bits kept. -/
def setZeroSign (f : Flags) (w : Word) : Flags :=
  ofWord ((f.word &&& ~~~(zeroMask ||| signMask)) ||| (w &&& (zeroMask ||| signMask)))

end Flags

/-! ## The file -/

/-- The contents of all registers. -/
structure Registers where
  ax : Word
  bx : Word
  cx : Word
  dx : Word
  si : Word
  di : Word
  bp : Word
  sp : Word
  cs : Word
  ss : Word
  ds : Word
  es : Word
  ip : Word
  flags : Flags
  deriving DecidableEq

namespace Registers

def general (r : Registers) : General → Word
  | .ax => r.ax
  | .bx => r.bx
  | .cx => r.cx
  | .dx => r.dx
  | .si => r.si
  | .di => r.di
  | .bp => r.bp
  | .sp => r.sp

def segment (r : Registers) : Segment → Word
  | .cs => r.cs
  | .ss => r.ss
  | .ds => r.ds
  | .es => r.es

def get (r : Registers) : Register → Word
  | .general g => r.general g
  | .segment s => r.segment s
  | .ip => r.ip
  | .flags => r.flags.word

/-- The file with a general register set. -/
def setGeneral (r : Registers) (g : General) (w : Word) : Registers :=
  match g with
  | .ax => { r with ax := w }
  | .bx => { r with bx := w }
  | .cx => { r with cx := w }
  | .dx => { r with dx := w }
  | .si => { r with si := w }
  | .di => { r with di := w }
  | .bp => { r with bp := w }
  | .sp => { r with sp := w }

/-- The file with a segment register set. -/
def setSegment (r : Registers) (s : Segment) (w : Word) : Registers :=
  match s with
  | .cs => { r with cs := w }
  | .ss => { r with ss := w }
  | .ds => { r with ds := w }
  | .es => { r with es := w }

/-- The file with a register set. The flags keep their reserved bit. -/
def set (r : Registers) (reg : Register) (w : Word) : Registers :=
  match reg with
  | .general g => r.setGeneral g w
  | .segment s => r.setSegment s w
  | .ip => { r with ip := w }
  | .flags => { r with flags := .ofWord w }

@[simp] theorem general_setGeneral_self (r : Registers) (g : General) (w : Word) :
    (r.setGeneral g w).general g = w := by
  cases g <;> rfl

theorem general_setGeneral_of_ne (r : Registers) {g h : General} (w : Word) (ne : h ≠ g) :
    (r.setGeneral g w).general h = r.general h := by
  cases g <;> cases h <;> first | rfl | exact absurd rfl ne

/-! ## Display -/

/-- The two flags as letters, a point for a flag that is not set. -/
def flagLetters (r : Registers) : String :=
  (if r.flags.sign then "S" else ".") ++ (if r.flags.zero then "Z" else ".")

/-- The registers in the order of the one-line display. -/
def displayOrder : List Register :=
  General.all.map .general ++ [.segment .cs, .segment .ds, .segment .es, .segment .ss, .ip, .flags]

def display (r : Registers) : String :=
  String.intercalate " " (displayOrder.map fun reg => reg.name ++ "=" ++ hexWord (r.get reg)) ++
    " [" ++ r.flagLetters ++ "]"

end Registers

end BusCycle
