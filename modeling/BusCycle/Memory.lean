-- The sparse memory of one megabyte. Only bytes that were written exist, and each of them carries
-- a tag that says what put it there. Two memories with the same cells are equal.
import BusCycle.Address

namespace BusCycle

/-! ## Cells -/

/-- A byte of memory with its tag. -/
structure Cell where
  value : Byte
  tag : String
  deriving DecidableEq

/-- What is read where nothing was written. -/
def Cell.absent : Cell := ⟨0, "Byte"⟩

/-- A memory: its cells in ascending order of their addresses. -/
structure Memory where
  cells : List (Address × Cell)
  ascending : cells.Pairwise fun a b => a.1.toNat < b.1.toNat
  deriving DecidableEq

namespace Memory

/-- The memory that nothing was written to. -/
def empty : Memory := ⟨[], .nil⟩

/-- The cell at an address, if it was written. -/
def cell? (m : Memory) (a : Address) : Option Cell := m.cells.lookup a

/-! ## Writing -/

/-- The cells with one of them set, in its place in the order. -/
def putCell (a : Address) (c : Cell) : List (Address × Cell) → List (Address × Cell)
  | [] => [(a, c)]
  | (b, d) :: rest =>
    if a.toNat < b.toNat then (a, c) :: (b, d) :: rest
    else if a = b then (a, c) :: rest
    else (b, d) :: putCell a c rest

theorem mem_putCell {a : Address} {c : Cell} {x : Address × Cell} {cs : List (Address × Cell)}
    (h : x ∈ putCell a c cs) : x = (a, c) ∨ x ∈ cs := by
  induction cs with
  | nil => simpa [putCell] using h
  | cons y rest ih =>
    obtain ⟨b, d⟩ := y
    simp only [putCell] at h
    split at h
    · simpa using h
    · split at h
      · rcases List.mem_cons.mp h with h | h
        · exact Or.inl h
        · exact Or.inr (List.mem_cons_of_mem _ h)
      · rcases List.mem_cons.mp h with h | h
        · exact Or.inr (by simp [h])
        · exact (ih h).imp id (List.mem_cons_of_mem _)

theorem ascending_putCell {a : Address} {c : Cell} {cs : List (Address × Cell)}
    (h : cs.Pairwise fun a b => a.1.toNat < b.1.toNat) :
    (putCell a c cs).Pairwise fun a b => a.1.toNat < b.1.toNat := by
  induction cs with
  | nil => simp [putCell]
  | cons y rest ih =>
    obtain ⟨b, d⟩ := y
    obtain ⟨hb, hr⟩ := List.pairwise_cons.mp h
    simp only [putCell]
    split
    · refine List.pairwise_cons.mpr ⟨fun x hx => ?_, h⟩
      rcases List.mem_cons.mp hx with rfl | hx
      · assumption
      · exact Nat.lt_trans ‹a.toNat < b.toNat› (hb x hx)
    · split
      · subst a
        exact List.pairwise_cons.mpr ⟨hb, hr⟩
      · rename_i hlt hne
        refine List.pairwise_cons.mpr ⟨fun x hx => ?_, ih hr⟩
        rcases mem_putCell hx with rfl | hx
        · have : a.toNat ≠ b.toNat := fun e => hne (BitVec.eq_of_toNat_eq e)
          show b.toNat < a.toNat
          omega
        · exact hb x hx

/-- The memory with one cell set. The last write to a cell wins. -/
def put (m : Memory) (a : Address) (c : Cell) : Memory :=
  ⟨putCell a c m.cells, ascending_putCell m.ascending⟩

/-- The memory with a byte and its tag written at an address. -/
def write (m : Memory) (a : Int) (v : Byte) (tag : String) : Memory :=
  m.put (Address.ofInt a) ⟨v, tag⟩

/-- The memory with a word written at an address, low byte first. -/
def writeWord (m : Memory) (a : Int) (w : Word) (lowTag highTag : String) : Memory :=
  (m.write a (lowByte w) lowTag).write (a + 1) (highByte w) highTag

/-! ## Reading -/

/-- The cell that is read at an address. -/
def cellAt (m : Memory) (a : Int) : Cell := (m.cell? (Address.ofInt a)).getD .absent

/-- The byte at an address, zero if it was never written. -/
def read (m : Memory) (a : Int) : Byte := (m.cellAt a).value

def tagAt (m : Memory) (a : Int) : String := (m.cellAt a).tag

/-- The word at an address, low byte first. -/
def readWord (m : Memory) (a : Int) : Word := wordOf (m.read a) (m.read (a + 1))

/-- Whether the byte at an address was written. -/
def contains (m : Memory) (a : Int) : Bool := (m.cell? (Address.ofInt a)).isSome

/-! ## The table -/

/-- The number of bytes that were written. -/
def size (m : Memory) : Nat := m.cells.length

/-- The rows of the memory table: key, value and tag in ascending order of addresses. -/
def rows (m : Memory) : List (String × Byte × String) :=
  m.cells.map fun (a, c) => (a.key, c.value, c.tag)

/-- The memory table as text: address, byte and description. -/
def dump (m : Memory) : String :=
  let header := Text.padEnd 7 "ADDR" ++ " " ++ Text.padEnd 4 "VAL" ++ " DESCRIPTION"
  let lines := m.rows.map fun (key, value, tag) => key ++ "H  " ++ hexByte value ++ "H  " ++ tag
  String.intercalate "\n" (header :: lines)

/-! ## Laws -/

theorem lookup_putCell_self (a : Address) (c : Cell) (cs : List (Address × Cell)) :
    (putCell a c cs).lookup a = some c := by
  induction cs with
  | nil => simp [putCell]
  | cons y rest ih =>
    obtain ⟨b, d⟩ := y
    simp only [putCell]
    split
    · simp
    · split
      · simp
      · rename_i hne
        rw [List.lookup_cons, beq_eq_false_iff_ne.mpr hne]
        exact ih

theorem lookup_putCell_of_ne {a b : Address} (c : Cell) (cs : List (Address × Cell)) (ne : b ≠ a) :
    (putCell a c cs).lookup b = cs.lookup b := by
  induction cs with
  | nil => simp [putCell, List.lookup_cons, beq_eq_false_iff_ne.mpr ne]
  | cons y rest ih =>
    obtain ⟨e, d⟩ := y
    simp only [putCell]
    split
    · rw [List.lookup_cons, beq_eq_false_iff_ne.mpr ne]
    · split
      · rename_i h
        subst h
        simp [List.lookup_cons, beq_eq_false_iff_ne.mpr ne]
      · rw [List.lookup_cons, List.lookup_cons, ih]

@[simp] theorem cell?_put_self (m : Memory) (a : Address) (c : Cell) :
    (m.put a c).cell? a = some c :=
  lookup_putCell_self a c m.cells

theorem cell?_put_of_ne (m : Memory) {a b : Address} (c : Cell) (ne : b ≠ a) :
    (m.put a c).cell? b = m.cell? b :=
  lookup_putCell_of_ne c m.cells ne

/-- One cell of a memory after one was set. -/
theorem cell?_put (m : Memory) (a b : Address) (c : Cell) :
    (m.put a c).cell? b = if b = a then some c else m.cell? b := by
  split
  · subst b
    exact cell?_put_self m a c
  · rename_i ne
    exact cell?_put_of_ne m c ne

@[simp] theorem cell?_empty (a : Address) : empty.cell? a = none := rfl

end Memory

end BusCycle
