-- The memory told with text keys and whole numbers. The keys stand in the order of their first writes,
-- every address and value is masked where it comes in, and the table is sorted by what its keys are
-- read as. Up to the order of the cells it is the memory itself.
import BusCycle.Memory
import BusCycle.Proofs.Number.Masks
import BusCycle.Proofs.Text.Hexadecimal
import Mathlib.Data.List.Nodup

namespace BusCycle

/-! ## The store -/

/-- A cell whose value is a whole number. -/
structure KeyedCell where
  value : Int
  tag : String
  deriving DecidableEq

def KeyedCell.ofCell (c : Cell) : KeyedCell := ⟨c.value.toNat, c.tag⟩

/-- A memory under text keys. -/
structure KeyedMemory where
  cells : List (String × KeyedCell)
  deriving DecidableEq

namespace KeyedMemory

/-- The store that nothing was written to. -/
def empty : KeyedMemory := ⟨[]⟩

/-- The key of an address, after its bits above bit 19 were cleared. -/
def keyAt (a : Int) : String := Text.hex 5 (mask 20 a)

/-- The cells with one of them set. A new key goes to the end. -/
def setCell (key : String) (c : KeyedCell) : List (String × KeyedCell) → List (String × KeyedCell)
  | [] => [(key, c)]
  | (k, d) :: rest => if k = key then (k, c) :: rest else (k, d) :: setCell key c rest

/-- The store with the low byte of a number written at an address. -/
def write (m : KeyedMemory) (a v : Int) (tag : String) : KeyedMemory :=
  ⟨setCell (keyAt a) ⟨mask 8 v, tag⟩ m.cells⟩

/-- The store with the two lowest bytes of a number written at an address. -/
def writeWord (m : KeyedMemory) (a v : Int) (lowTag highTag : String) : KeyedMemory :=
  (m.write a (mask 8 v) lowTag).write (a + 1) (mask 8 (v >>> (8 : Nat))) highTag

def cell? (m : KeyedMemory) (a : Int) : Option KeyedCell := m.cells.lookup (keyAt a)

def read (m : KeyedMemory) (a : Int) : Int := ((m.cell? a).map (·.value)).getD 0

def tagAt (m : KeyedMemory) (a : Int) : String := ((m.cell? a).map (·.tag)).getD "Byte"

def readWord (m : KeyedMemory) (a : Int) : Int := Int.lor (m.read a) (m.read (a + 1) <<< (8 : Nat))

def contains (m : KeyedMemory) (a : Int) : Bool := (m.cell? a).isSome

def size (m : KeyedMemory) : Nat := m.cells.length

/-- The rows of the table, sorted by what their keys are read as. -/
def rows (m : KeyedMemory) : List (String × Int × String) :=
  (m.cells.mergeSort fun x y => Address.parseKey x.1 ≤ Address.parseKey y.1).map
    fun (key, c) => (key, c.value, c.tag)

/-! ## Keys -/

theorem keyAt_eq (a : Int) : keyAt a = (Address.ofInt a).key := by
  rw [keyAt, Address.key, Address.ofInt, toNat_ofInt_eq_mask]

end KeyedMemory

/-- In a list with one entry for each key, the entry of a key is the one that is found. -/
theorem lookup_eq_some_iff_mem {α β : Type} [BEq α] [LawfulBEq α] {l : List (α × β)} {k : α} {v : β}
    (keys : (l.map (·.1)).Nodup) : l.lookup k = some v ↔ (k, v) ∈ l := by
  induction l with
  | nil => simp
  | cons x rest ih =>
    obtain ⟨j, w⟩ := x
    rw [List.map_cons, List.nodup_cons] at keys
    rw [List.lookup_cons, List.mem_cons, Prod.mk.injEq]
    by_cases same : k = j
    · subst k
      have alone : (j, v) ∉ rest := fun h => keys.1 (List.mem_map.mpr ⟨_, h, rfl⟩)
      simp [alone, eq_comm]
    · rw [beq_eq_false_iff_ne.mpr same]
      simp [same, ih keys.2]

/-- The order of the entries does not matter to what is found. -/
theorem lookup_eq_of_perm {α β : Type} [BEq α] [LawfulBEq α] {l l' : List (α × β)} (h : l.Perm l')
    (keys : (l'.map (·.1)).Nodup) (k : α) : l.lookup k = l'.lookup k := by
  have keysLeft : (l.map (·.1)).Nodup := ((h.map _).nodup_iff).mpr keys
  ext v
  rw [lookup_eq_some_iff_mem keysLeft, lookup_eq_some_iff_mem keys, h.mem_iff]

/-! ## Cells in any order -/

namespace Memory

theorem nodup_addresses (m : Memory) : (m.cells.map (·.1)).Nodup := by
  refine List.pairwise_map.mpr (m.ascending.imp ?_)
  intro x y lt same
  rw [same] at lt
  exact Nat.lt_irrefl _ lt

/-- A cell that is set stands before the others. -/
theorem putCell_perm (a : Address) (c : Cell) {cs : List (Address × Cell)}
    (h : cs.Pairwise fun a b => a.1.toNat < b.1.toNat) :
    (putCell a c cs).Perm ((a, c) :: cs.filter (·.1 ≠ a)) := by
  induction cs with
  | nil => exact .refl _
  | cons x rest ih =>
    obtain ⟨b, d⟩ := x
    obtain ⟨first, others⟩ := List.pairwise_cons.mp h
    have above : ∀ {e : Address}, e.toNat ≤ b.toNat → rest.filter (·.1 ≠ e) = rest := by
      intro e le
      refine List.filter_eq_self.mpr fun y hy => decide_eq_true fun same => ?_
      have lt : b.toNat < y.1.toNat := first y hy
      rw [same] at lt
      omega
    simp only [putCell]
    split
    · rename_i lt
      have ne : b ≠ a := fun same => by simp [same] at lt
      rw [List.filter_cons_of_pos (by simpa using ne), above (Nat.le_of_lt lt)]
    · split
      · rename_i same
        rw [List.filter_cons_of_neg (by simp [same]), above (by rw [same])]
      · rename_i ne
        rw [List.filter_cons_of_pos (by simpa using Ne.symm ne)]
        exact ((ih others).cons _).trans (.swap _ _ _)

end Memory

namespace KeyedMemory

/-- A cell that is set stands before the others. -/
theorem setCell_perm (key : String) (c : KeyedCell) {cs : List (String × KeyedCell)}
    (keys : (cs.map (·.1)).Nodup) :
    (setCell key c cs).Perm ((key, c) :: cs.filter (·.1 ≠ key)) := by
  induction cs with
  | nil => exact .refl _
  | cons x rest ih =>
    obtain ⟨k, d⟩ := x
    rw [List.map_cons, List.nodup_cons] at keys
    simp only [setCell]
    split
    · rename_i same
      subst key
      have others : rest.filter (·.1 ≠ k) = rest :=
        List.filter_eq_self.mpr fun y hy =>
          decide_eq_true fun same => keys.1 (List.mem_map.mpr ⟨y, hy, same⟩)
      rw [List.filter_cons_of_neg (by simp), others]
    · rename_i ne
      rw [List.filter_cons_of_pos (by simpa using ne)]
      exact ((ih keys.2).cons _).trans (.swap _ _ _)

/-! ## The same memory -/

/-- An entry of a memory with its key as a text. -/
def entryOf (x : Address × Cell) : String × KeyedCell := (x.1.key, .ofCell x.2)

/-- A store has the cells of a memory, in whatever order. -/
def Shows (k : KeyedMemory) (m : Memory) : Prop := k.cells.Perm (m.cells.map entryOf)

theorem nodup_keys (m : Memory) : ((m.cells.map entryOf).map (·.1)).Nodup := by
  have keys : (m.cells.map entryOf).map (·.1) = (m.cells.map (·.1)).map Address.key := by
    rw [List.map_map, List.map_map]
    rfl
  rw [keys]
  exact List.Nodup.map Address.key_injective m.nodup_addresses

theorem lookup_entries (cs : List (Address × Cell)) (a : Address) :
    (cs.map entryOf).lookup a.key = (cs.lookup a).map .ofCell := by
  induction cs with
  | nil => rfl
  | cons x rest ih =>
    obtain ⟨b, d⟩ := x
    rw [List.map_cons, entryOf, List.lookup_cons, List.lookup_cons, ih]
    by_cases same : a = b
    · simp [same]
    · have other : a.key ≠ b.key := fun h => same (Address.key_injective h)
      rw [beq_eq_false_iff_ne.mpr same, beq_eq_false_iff_ne.mpr other]

namespace Shows

variable {k : KeyedMemory} {m : Memory}

theorem empty : KeyedMemory.empty.Shows Memory.empty := .refl _

theorem cell? (h : k.Shows m) (a : Int) :
    k.cell? a = (m.cell? (.ofInt a)).map KeyedCell.ofCell := by
  rw [KeyedMemory.cell?, keyAt_eq, lookup_eq_of_perm h (nodup_keys m), lookup_entries]
  rfl

theorem put (h : k.Shows m) (a : Address) (c : Cell) :
    Shows ⟨setCell a.key (.ofCell c) k.cells⟩ (m.put a c) := by
  have keys : (k.cells.map (·.1)).Nodup := ((h.map _).nodup_iff).mpr (nodup_keys m)
  have others : (m.cells.map entryOf).filter (·.1 ≠ a.key) =
      (m.cells.filter (·.1 ≠ a)).map entryOf := by
    rw [List.filter_map]
    congr 1
    exact List.filter_congr fun x _ => by simp [entryOf]
  calc setCell a.key (.ofCell c) k.cells
      _ |>.Perm ((a.key, .ofCell c) :: k.cells.filter (·.1 ≠ a.key)) := setCell_perm _ _ keys
      _ |>.Perm ((a.key, .ofCell c) :: (m.cells.map entryOf).filter (·.1 ≠ a.key)) :=
        (h.filter _).cons _
      _ = ((a, c) :: m.cells.filter (·.1 ≠ a)).map entryOf := by rw [others]; rfl
      _ |>.Perm ((m.put a c).cells.map entryOf) := ((Memory.putCell_perm a c m.ascending).map _).symm

/-- A write of a number shows as a write of its low byte. -/
theorem write (h : k.Shows m) (a v : Int) (tag : String) :
    (k.write a v tag).Shows (m.write a (.ofInt 8 v) tag) := by
  have cell : (⟨mask 8 v, tag⟩ : KeyedCell) = .ofCell ⟨.ofInt 8 v, tag⟩ := by
    rw [KeyedCell.ofCell, toNat_ofInt_eq_mask]
  rw [KeyedMemory.write, keyAt_eq, cell]
  exact h.put _ _

/-- A word write of a number shows as a write of the word it is cut to. -/
theorem writeWord (h : k.Shows m) (a v : Int) (lowTag highTag : String) :
    (k.writeWord a v lowTag highTag).Shows (m.writeWord a (.ofInt 16 v) lowTag highTag) := by
  have low : BitVec.ofInt 8 (mask 8 v) = lowByte (.ofInt 16 v) := by
    rw [← toNat_lowByte_ofInt, BitVec.ofInt_natCast, BitVec.ofNat_toNat, BitVec.setWidth_eq]
  have high : BitVec.ofInt 8 (mask 8 (v >>> (8 : Nat))) = highByte (.ofInt 16 v) := by
    rw [← toNat_highByte_ofInt, BitVec.ofInt_natCast, BitVec.ofNat_toNat, BitVec.setWidth_eq]
  rw [Memory.writeWord, ← low, ← high]
  exact (h.write a _ lowTag).write (a + 1) _ highTag

theorem read (h : k.Shows m) (a : Int) : k.read a = (m.read a).toNat := by
  rw [KeyedMemory.read, h.cell?, Memory.read, Memory.cellAt]
  cases m.cell? (.ofInt a) with
  | none => rfl
  | some c => rfl

theorem tagAt (h : k.Shows m) (a : Int) : k.tagAt a = m.tagAt a := by
  rw [KeyedMemory.tagAt, h.cell?, Memory.tagAt, Memory.cellAt]
  cases m.cell? (.ofInt a) with
  | none => rfl
  | some c => rfl

theorem contains (h : k.Shows m) (a : Int) : k.contains a = m.contains a := by
  rw [KeyedMemory.contains, h.cell?, Memory.contains, Option.isSome_map]

theorem readWord (h : k.Shows m) (a : Int) : k.readWord a = (m.readWord a).toNat := by
  rw [KeyedMemory.readWord, h.read, h.read, lor_shiftLeft_bytes]
  rfl

theorem size (h : k.Shows m) : k.size = m.size := by
  rw [KeyedMemory.size, h.length_eq, List.length_map, Memory.size]

/-- Sorting by the keys brings the cells into the order of their addresses. -/
theorem rows (h : k.Shows m) :
    k.rows = m.rows.map fun (key, v, tag) => (key, (v.toNat : Int), tag) := by
  have ascending : (m.cells.map entryOf).Pairwise
      fun x y => decide (Address.parseKey x.1 ≤ Address.parseKey y.1) = true := by
    refine List.pairwise_map.mpr (m.ascending.imp fun lt => ?_)
    simpa [entryOf] using Nat.le_of_lt lt
  have sorted :
      (k.cells.mergeSort fun x y => Address.parseKey x.1 ≤ Address.parseKey y.1).Pairwise
        fun x y => decide (Address.parseKey x.1 ≤ Address.parseKey y.1) = true := by
    apply List.pairwise_mergeSort
    · intro x y z xy yz
      rw [decide_eq_true_eq] at xy yz ⊢
      exact Nat.le_trans xy yz
    · intro x y
      rw [Bool.or_eq_true, decide_eq_true_eq, decide_eq_true_eq]
      exact Nat.le_total _ _
  have order : (k.cells.mergeSort fun x y => Address.parseKey x.1 ≤ Address.parseKey y.1) =
      m.cells.map entryOf := by
    refine List.Perm.eq_of_pairwise ?_ sorted ascending ((List.mergeSort_perm _ _).trans h)
    intro x y hx hy xy yx
    have hx := h.mem_iff.mp ((List.mergeSort_perm _ _).mem_iff.mp hx)
    obtain ⟨p, _, rfl⟩ := List.mem_map.mp hx
    obtain ⟨q, _, rfl⟩ := List.mem_map.mp hy
    simp only [entryOf, Address.parseKey_key, decide_eq_true_eq] at xy yx
    have same : p.1 = q.1 := BitVec.eq_of_toNat_eq (Nat.le_antisymm xy yx)
    exact List.inj_on_of_nodup_map (nodup_keys m) hx hy (congrArg Address.key same)
  rw [KeyedMemory.rows, order, Memory.rows, List.map_map, List.map_map]
  rfl

end Shows

/-- What can be asked of a store is what can be asked of a memory, with the same answers. -/
structure AnswersAs (k : KeyedMemory) (m : Memory) : Prop where
  read : ∀ a, k.read a = (m.read a).toNat
  readWord : ∀ a, k.readWord a = (m.readWord a).toNat
  tagAt : ∀ a, k.tagAt a = m.tagAt a
  contains : ∀ a, k.contains a = m.contains a
  size : k.size = m.size
  rows : k.rows = m.rows.map fun (key, v, tag) => (key, (v.toNat : Int), tag)

theorem Shows.answersAs {k : KeyedMemory} {m : Memory} (h : k.Shows m) : k.AnswersAs m :=
  ⟨h.read, h.readWord, h.tagAt, h.contains, h.size, h.rows⟩

end KeyedMemory

end BusCycle
