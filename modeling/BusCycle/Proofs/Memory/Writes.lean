-- The memory after any sequence of writes: what is read at an address is the last byte that was
-- written to its cell, whatever numbers were given as addresses and values. The table has one row for
-- each cell that was written to.
import BusCycle.Proofs.Machine.Frame
import BusCycle.Proofs.Memory.Keyed
import BusCycle.Session.Snapshot
import Mathlib.Data.Finset.Card

namespace BusCycle

/-! ## Writes -/

/-- A write of a byte, or of a word with a tag for each of its bytes. -/
inductive MemoryWrite
  | byte (address value : Int) (tag : String)
  | word (address value : Int) (lowTag highTag : String)

namespace MemoryWrite

/-- The bytes that a write puts, each with its address. -/
def bytes : MemoryWrite → List (Int × KeyedCell)
  | byte a v tag => [(a, ⟨v % 256, tag⟩)]
  | word a v lowTag highTag => [(a, ⟨v % 256, lowTag⟩), (a + 1, ⟨v / 256 % 256, highTag⟩)]

/-- The last byte that was written to the cell of an address. -/
def lastTo (a : Int) (written : List (Int × KeyedCell)) : Option KeyedCell :=
  (written.reverse.find? fun b => b.1 % 0x100000 = a % 0x100000).map (·.2)

/-- The addresses that were written to, without what lies above bit 19. -/
def residues (written : List (Int × KeyedCell)) : Finset Int :=
  (written.map (·.1 % 0x100000)).toFinset

theorem lastTo_append_singleton (a b : Int) (c : KeyedCell) (written : List (Int × KeyedCell)) :
    lastTo a (written ++ [(b, c)]) =
      if b % 0x100000 = a % 0x100000 then some c else lastTo a written := by
  unfold lastTo
  rw [List.reverse_append, List.reverse_singleton, List.singleton_append, List.find?_cons]
  by_cases same : b % 0x100000 = a % 0x100000 <;> simp [same]

theorem isSome_lastTo (a : Int) (written : List (Int × KeyedCell)) :
    (lastTo a written).isSome ↔ a % 0x100000 ∈ residues written := by
  rw [lastTo, Option.isSome_map, List.find?_isSome, residues, List.mem_toFinset, List.mem_map]
  simp only [List.mem_reverse, decide_eq_true_eq]

/-- What is the residue of a write is a number of twenty bits. -/
theorem emod_of_mem_residues {n : Int} {written : List (Int × KeyedCell)}
    (h : n ∈ residues written) : n % 0x100000 = n := by
  rw [residues, List.mem_toFinset, List.mem_map] at h
  obtain ⟨b, _, rfl⟩ := h
  exact Int.emod_emod_of_dvd _ (Int.dvd_refl _)

end MemoryWrite

open MemoryWrite

/-- What a write does to a memory. -/
def Memory.perform (m : Memory) : MemoryWrite → Memory
  | .byte a v tag => m.write a (.ofInt 8 v) tag
  | .word a v lowTag highTag => m.writeWord a (.ofInt 16 v) lowTag highTag

def Memory.afterWrites (ws : List MemoryWrite) : Memory := ws.foldl perform .empty

/-- What a write does to a store under text keys. -/
def KeyedMemory.perform (k : KeyedMemory) : MemoryWrite → KeyedMemory
  | .byte a v tag => k.write a v tag
  | .word a v lowTag highTag => k.writeWord a v lowTag highTag

def KeyedMemory.afterWrites (ws : List MemoryWrite) : KeyedMemory := ws.foldl perform .empty

theorem KeyedMemory.Shows.afterWrites (ws : List MemoryWrite) :
    (KeyedMemory.afterWrites ws).Shows (Memory.afterWrites ws) := by
  induction ws using List.reverseRecOn with
  | nil => exact .empty
  | append_singleton ws w ih =>
    rw [KeyedMemory.afterWrites, Memory.afterWrites, List.foldl_concat, List.foldl_concat]
    cases w with
    | byte a v tag => exact ih.write a v tag
    | word a v lowTag highTag => exact ih.writeWord a v lowTag highTag

/-! ## Cells after writes -/

namespace Memory

/-- Each cell has the last byte that was written to it, and no other cell exists. -/
def Keeps (m : Memory) (written : List (Int × KeyedCell)) : Prop :=
  ∀ a, (m.cell? (.ofInt a)).map KeyedCell.ofCell = lastTo a written

variable {m : Memory} {written : List (Int × KeyedCell)}

/-- One more byte is the last one of its cell. -/
theorem Keeps.write (h : m.Keeps written) (a : Int) (b : Byte) (tag : String) :
    (m.write a b tag).Keeps (written ++ [(a, ⟨b.toNat, tag⟩)]) := by
  intro e
  rw [cell?_write, lastTo_append_singleton, ← h e]
  by_cases same : Address.ofInt e = Address.ofInt a
  · rw [if_pos same, if_pos (Address.ofInt_eq_ofInt_iff.mp same).symm]
    rfl
  · rw [if_neg same, if_neg fun h => same (Address.ofInt_eq_ofInt_iff.mpr h.symm)]

theorem Keeps.perform (h : m.Keeps written) (w : MemoryWrite) :
    (m.perform w).Keeps (written ++ w.bytes) := by
  cases w with
  | byte a v tag =>
    have value : ((BitVec.ofInt 8 v).toNat : Int) = v % 256 := by
      rw [toNat_ofInt_eq_mask, mask_eq_emod]
      rfl
    rw [bytes, ← value]
    exact h.write a _ tag
  | word a v lowTag highTag =>
    have low : ((lowByte (.ofInt 16 v)).toNat : Int) = v % 256 := by
      rw [toNat_lowByte_ofInt, mask_eq_emod]
      rfl
    have high : ((highByte (.ofInt 16 v)).toNat : Int) = v / 256 % 256 := by
      rw [toNat_highByte_ofInt, mask_eq_emod, Int.shiftRight_eq_div_pow]
      rfl
    rw [bytes, ← low, ← high, List.append_cons]
    exact (h.write a _ lowTag).write (a + 1) _ highTag

theorem keeps_afterWrites (ws : List MemoryWrite) :
    (afterWrites ws).Keeps (ws.flatMap MemoryWrite.bytes) := by
  induction ws using List.reverseRecOn with
  | nil => exact fun a => rfl
  | append_singleton ws w ih =>
    rw [afterWrites, List.foldl_concat, List.flatMap_append, List.flatMap_singleton]
    exact ih.perform w

/-! ## Rows -/

theorem mem_cells_iff {a : Address} {c : Cell} : (a, c) ∈ m.cells ↔ m.cell? a = some c :=
  (lookup_eq_some_iff_mem m.nodup_addresses).symm

/-- A row of the table is a cell, listed under the key of its address. -/
theorem mem_rows_iff {key : String} {v : Byte} {tag : String} :
    (key, v, tag) ∈ m.rows ↔ ∃ a : Address, a.key = key ∧ m.cell? a = some ⟨v, tag⟩ := by
  rw [rows, List.mem_map]
  constructor
  · rintro ⟨⟨a, c⟩, found, eq⟩
    obtain ⟨rfl, rfl, rfl⟩ := eq
    exact ⟨a, rfl, mem_cells_iff.mp found⟩
  · rintro ⟨a, rfl, found⟩
    exact ⟨(a, ⟨v, tag⟩), mem_cells_iff.mpr found, rfl⟩

theorem rows_ascending (m : Memory) :
    m.rows.Pairwise fun r s => Address.parseKey r.1 < Address.parseKey s.1 := by
  refine List.pairwise_map.mpr (m.ascending.imp fun lt => ?_)
  simpa using lt

/-- The addresses of the cells that exist are those that were written to. -/
theorem Keeps.isSome_cell? (h : m.Keeps written) (a : Address) :
    (m.cell? a).isSome ↔ (a.toNat : Int) ∈ residues written := by
  have small : (a.toNat : Int) % 0x100000 = a.toNat := by
    have := a.isLt
    omega
  rw [← small, ← isSome_lastTo, ← h, Option.isSome_map, Address.ofInt_toNat]

/-- There are as many cells as were written to. -/
theorem Keeps.size (h : m.Keeps written) : m.size = (residues written).card := by
  have injective : Function.Injective fun a : Address => (a.toNat : Int) :=
    fun a b same => BitVec.eq_of_toNat_eq (Int.natCast_inj.mp same)
  have same : residues written = ((m.cells.map (·.1)).map fun a => (a.toNat : Int)).toFinset := by
    ext n
    rw [List.mem_toFinset, List.mem_map]
    constructor
    · intro written
      have number : ((Address.ofInt n).toNat : Int) = n := by
        rw [Address.toNat_ofInt, emod_of_mem_residues written]
      rw [← number, ← h.isSome_cell?, Option.isSome_iff_exists] at written
      obtain ⟨c, found⟩ := written
      exact ⟨_, List.mem_map_of_mem (mem_cells_iff.mpr found), number⟩
    · rintro ⟨a, listed, rfl⟩
      obtain ⟨⟨b, c⟩, found, rfl⟩ := List.mem_map.mp listed
      exact (h.isSome_cell? b).mp (Option.isSome_iff_exists.mpr ⟨c, mem_cells_iff.mp found⟩)
  rw [same, List.toFinset_card_of_nodup (m.nodup_addresses.map injective), List.length_map,
    List.length_map, Memory.size]

/-- A key has one row at most. -/
theorem eq_of_mem_rows {r r' : String × Byte × String} (hr : r ∈ m.rows) (hr' : r' ∈ m.rows)
    (same : r.1 = r'.1) : r = r' := by
  obtain ⟨key, v, tag⟩ := r
  obtain ⟨key', v', tag'⟩ := r'
  obtain ⟨a, rfl, found⟩ := mem_rows_iff.mp hr
  obtain ⟨a', rfl, found'⟩ := mem_rows_iff.mp hr'
  obtain rfl := Address.key_injective same
  rw [found, Option.some_inj, Cell.mk.injEq] at found'
  rw [found'.1, found'.2]

end Memory

/-! ## Snapshots -/

namespace Session

theorem mem_memory_snapshot {s : Session} {row : MemoryRow} :
    row ∈ s.snapshot.memory ↔ (row.key, row.value, row.tag) ∈ s.machine.memory.rows := by
  rw [snapshot, List.mem_map]
  constructor
  · rintro ⟨_, listed, rfl⟩
    exact listed
  · exact fun listed => ⟨_, listed, rfl⟩

/-- The row of a key in a snapshot is the row of that key in the table. -/
theorem memoryAt?_eq_some_iff (s : Session) {key : String} {row : MemoryRow} :
    s.snapshot.memoryAt? key = some row ↔
      (row.key, row.value, row.tag) ∈ s.machine.memory.rows ∧ row.key = key := by
  rw [Snapshot.memoryAt?]
  constructor
  · intro found
    exact ⟨mem_memory_snapshot.mp (List.mem_of_find?_eq_some found), by
      simpa using List.find?_some found⟩
  · rintro ⟨listed, rfl⟩
    cases found : s.snapshot.memory.find? (·.key == row.key) with
    | none =>
      have other := List.find?_eq_none.mp found row (mem_memory_snapshot.mpr listed)
      exact absurd (beq_self_eq_true row.key) other
    | some first =>
      have key : first.key = row.key := by simpa using List.find?_some found
      have listedFirst := mem_memory_snapshot.mp (List.mem_of_find?_eq_some found)
      have same := Memory.eq_of_mem_rows listedFirst listed key
      rw [Prod.mk.injEq, Prod.mk.injEq] at same
      cases first
      cases row
      exact congrArg some ((MemoryRow.mk.injEq ..).mpr same)

/-- A snapshot has no row of a key exactly if no cell has that key. -/
theorem memoryAt?_eq_none_iff (s : Session) {key : String} :
    s.snapshot.memoryAt? key = none ↔ ∀ x ∈ s.machine.memory.cells, x.1.key ≠ key := by
  rw [Snapshot.memoryAt?, List.find?_eq_none]
  constructor
  · intro other x listed same
    have row : (⟨x.1.key, x.2.value, x.2.tag⟩ : MemoryRow) ∈ s.snapshot.memory :=
      mem_memory_snapshot.mpr (List.mem_map_of_mem listed)
    exact other _ row (by simp [same])
  · intro other row listed same
    obtain ⟨x, cell, eq⟩ := List.mem_map.mp (mem_memory_snapshot.mp listed)
    have key : x.1.key = row.key := congrArg Prod.fst eq
    exact other x cell (key.trans (beq_iff_eq.mp same))

end Session

namespace Memory

/-! ## The law of a memory -/

/-- A memory answers every question by what was written last, and lists what was written. -/
structure Tells (m : Memory) (written : List (Int × KeyedCell)) : Prop where
  read : ∀ a, (m.read a).toNat = ((lastTo a written).map (·.value)).getD 0
  tagAt : ∀ a, m.tagAt a = ((lastTo a written).map (·.tag)).getD "Byte"
  contains : ∀ a, m.contains a = (lastTo a written).isSome
  readWord : ∀ a, (m.readWord a).toNat = (m.read a).toNat + 256 * (m.read (a + 1)).toNat
  size : m.size = (residues written).card
  rows_ascending : m.rows.Pairwise fun r s => Address.parseKey r.1 < Address.parseKey s.1
  /-- Each cell that was written to has one row, under five hexadecimal digits of its address. -/
  rows_of_residue : ∀ n ∈ residues written,
    ∃! row, row ∈ m.rows ∧ Text.IsHexField 5 row.1 n.toNat
  /-- There are no other rows, and each shows what was written last. -/
  rows_only : ∀ row ∈ m.rows, ∃ n ∈ residues written, Text.IsHexField 5 row.1 n.toNat ∧
    lastTo n written = some ⟨row.2.1.toNat, row.2.2⟩
  memoryAt : ∀ s : Session, s.machine.memory = m → ∀ key row,
    s.snapshot.memoryAt? key = some row ↔
      (row.key, row.value, row.tag) ∈ m.rows ∧ row.key = key
  memoryAt_none : ∀ s : Session, s.machine.memory = m → ∀ key,
    s.snapshot.memoryAt? key = none ↔ ∀ x ∈ m.cells, x.1.key ≠ key

variable {m : Memory} {written : List (Int × KeyedCell)}

theorem Keeps.rows_of_residue (h : m.Keeps written) {n : Int} (hn : n ∈ residues written) :
    ∃! row, row ∈ m.rows ∧ Text.IsHexField 5 row.1 n.toNat := by
  have number : ((Address.ofInt n).toNat : Int) = n := by
    rw [Address.toNat_ofInt, emod_of_mem_residues hn]
  have digits : n.toNat = (Address.ofInt n).toNat := by omega
  rw [← number, ← h.isSome_cell?, Option.isSome_iff_exists] at hn
  obtain ⟨c, found⟩ := hn
  rw [digits]
  refine ⟨((Address.ofInt n).key, c.value, c.tag),
    ⟨mem_rows_iff.mpr ⟨_, rfl, found⟩, Address.isHexField_key _⟩, ?_⟩
  rintro ⟨key, v, tag⟩ ⟨listed, field⟩
  obtain ⟨a, rfl, found'⟩ := mem_rows_iff.mp listed
  have same : a = Address.ofInt n :=
    BitVec.eq_of_toNat_eq (a.isHexField_key.value.symm.trans field.value)
  subst same
  rw [found, Option.some_inj] at found'
  rw [found']

theorem Keeps.rows_only (h : m.Keeps written) {row : String × Byte × String} (listed : row ∈ m.rows) :
    ∃ n ∈ residues written, Text.IsHexField 5 row.1 n.toNat ∧
      lastTo n written = some ⟨row.2.1.toNat, row.2.2⟩ := by
  obtain ⟨key, v, tag⟩ := row
  obtain ⟨a, rfl, found⟩ := mem_rows_iff.mp listed
  refine ⟨a.toNat, ?_, a.isHexField_key, ?_⟩
  · rw [← h.isSome_cell?, found]
    rfl
  · rw [← h, Address.ofInt_toNat, found]
    rfl

theorem Keeps.tells (h : m.Keeps written) : m.Tells written where
  read a := by
    rw [Memory.read, cellAt, ← h]
    cases m.cell? (.ofInt a) with
    | none => rfl
    | some c => rfl
  tagAt a := by
    rw [Memory.tagAt, cellAt, ← h]
    cases m.cell? (.ofInt a) with
    | none => rfl
    | some c => rfl
  contains a := by rw [Memory.contains, ← h, Option.isSome_map]
  readWord a := by rw [Memory.readWord, toNat_wordOf]
  size := h.size
  rows_ascending := m.rows_ascending
  rows_of_residue _ hn := h.rows_of_residue hn
  rows_only _ listed := h.rows_only listed
  memoryAt s hs key row := hs ▸ s.memoryAt?_eq_some_iff
  memoryAt_none s hs key := hs ▸ s.memoryAt?_eq_none_iff

/-- After any writes, with any numbers as addresses and values, the memory tells what was written
last, and so does the store under text keys. -/
theorem tells_afterWrites (ws : List MemoryWrite) :
    (afterWrites ws).Tells (ws.flatMap MemoryWrite.bytes) ∧
      (KeyedMemory.afterWrites ws).AnswersAs (afterWrites ws) :=
  ⟨(keeps_afterWrites ws).tells, (KeyedMemory.Shows.afterWrites ws).answersAs⟩

/-- A negative word at the last address has its high byte in the first cell. -/
example : (afterWrites [.word (-1) (-2) "Data low" "Data high"]).rows =
    [("00000", 0xFF, "Data high"), ("FFFFF", 0xFE, "Data low")] := by
  decide +kernel

end Memory

end BusCycle
