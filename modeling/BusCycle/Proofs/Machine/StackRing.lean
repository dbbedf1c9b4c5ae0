-- The stack by itself: words are pushed one after another and as many are popped. Up to 32768 words
-- have room in the stack segment, and they come off in the reverse of the order they went on. One
-- word more goes over the first one, since the stack pointer has come round to it.
import BusCycle.Proofs.Machine.Raw
import BusCycle.Proofs.Session.StackDiscipline
import Mathlib.Data.List.Induction

namespace BusCycle

namespace Machine

/-- The machine after words were pushed, the first of them first. -/
def pushAll (m : Machine) (words : List Word) : Machine := words.foldl push m

/-- The words that so many pops bring, in their order, and the machine after them. -/
def popMany (m : Machine) : Nat → List Word × Machine
  | 0 => ([], m)
  | n + 1 =>
    let (word, m) := m.pop
    let (words, m) := m.popMany n
    (word :: words, m)

/-- The address `n` words above the top of the stack. -/
def stackPlace (m : Machine) (n : Nat) : Int :=
  physicalAddress m.registers.ss.toNat (above m.registers.sp n).toNat

theorem pushAll_concat (m : Machine) (words : List Word) (w : Word) :
    m.pushAll (words ++ [w]) = (m.pushAll words).push w := by
  rw [pushAll, List.foldl_append]
  rfl

/-- The stack pointer comes round after 32768 words. -/
theorem stackPlace_mod (m : Machine) (n : Nat) : m.stackPlace (n % 32768) = m.stackPlace n := by
  simp only [stackPlace, toNat_above]
  congr 2
  omega

/-! ## One push -/

theorem registers_push (m : Machine) (w : Word) :
    (m.push w).registers = { m.registers with sp := m.registers.sp - 2 } :=
  (m.did_push w).registers

theorem memory_push (m : Machine) (w : Word) :
    (m.push w).memory =
      m.memory.writeWord ((m.push w).stackPlace 0) w "Stack low" "Stack high" := by
  have written := (m.did_push w).memory
  rw [stackPlace, above_zero, registers_push]
  exact written

theorem stackPlace_push (m : Machine) (w : Word) (n : Nat) :
    (m.push w).stackPlace (n + 1) = m.stackPlace n := by
  simp only [stackPlace, registers_push, above_sub_two]

/-- The word that is pushed and a word fewer than 32768 words above it lie in different cells. -/
theorem stackPlace_disjoint (m : Machine) {n : Nat} (pos : 0 < n) (near : n < 32768) {a : Address}
    (h : a ∈ Memory.wordCells (m.stackPlace n)) : a ∉ Memory.wordCells (m.stackPlace 0) := by
  intro top
  rw [stackPlace, above_zero] at top
  exact wordCells_disjoint (ne_above pos near) (parity_above _ _) top h

/-! ## What the stack holds -/

/-- The words lie on the stack, the first of them on top. -/
def HoldsWords (m : Machine) (words : List Word) : Prop :=
  ∀ (n : Nat) (w : Word), words[n]? = some w → m.memory.readWord (m.stackPlace n) = w

/-- A push puts a word on top. Of the words that were there, the ones that have room keep theirs. -/
theorem HoldsWords.push {m : Machine} {words : List Word} (h : m.HoldsWords words) (w : Word) :
    (m.push w).HoldsWords ((w :: words).take 32768) := by
  intro n v hv
  obtain ⟨near, hv⟩ : n < 32768 ∧ (w :: words)[n]? = some v := by
    rw [List.getElem?_take] at hv
    split at hv
    · exact ⟨‹_›, hv⟩
    · cases hv
  cases n with
  | zero =>
    obtain rfl := Option.some.inj hv
    rw [memory_push]
    exact Memory.readWord_writeWord ..
  | succ n =>
    rw [← h n v hv, ← m.stackPlace_push w n]
    apply Memory.readWord_congr
    intro a ha
    rw [memory_push]
    exact Memory.cell?_writeWord_of_not_mem _ w _ _
      (stackPlace_disjoint _ (Nat.succ_pos n) near ha)

/-- After any number of pushes the stack holds the words that were pushed last, as many as have
room. -/
theorem holdsWords_pushAll (m : Machine) (words : List Word) :
    (m.pushAll words).HoldsWords (words.reverse.take 32768) := by
  induction words using List.reverseRecOn with
  | nil =>
    intro n w hw
    simp at hw
  | append_singleton words w ih =>
    have pushed := ih.push w
    rw [List.take_cons (by decide), List.take_take] at pushed
    rw [pushAll_concat, List.reverse_append, List.reverse_singleton, List.singleton_append,
      List.take_cons (by decide)]
    exact pushed

/-! ## Registers and cells that stay -/

theorem registers_pushAll (m : Machine) (words : List Word) :
    above (m.pushAll words).registers.sp words.length = m.registers.sp ∧
      { (m.pushAll words).registers with sp := m.registers.sp } = m.registers := by
  induction words using List.reverseRecOn with
  | nil => exact ⟨above_zero _, rfl⟩
  | append_singleton words w ih =>
    rw [pushAll_concat, registers_push, List.length_append, List.length_singleton, above_sub_two]
    exact ih

/-- The cells that the word pushed after `n` others goes to. -/
def pushedCells (m : Machine) (n : Nat) : List Address :=
  Memory.wordCells (16 * m.registers.ss.toNat + ((m.registers.sp.toNat : Int) - 2 * (n + 1)) % 65536)

theorem stackPlace_push_pushAll (m : Machine) (words : List Word) (w : Word) :
    Memory.wordCells (((m.pushAll words).push w).stackPlace 0) = m.pushedCells words.length := by
  obtain ⟨sp, others⟩ := m.registers_pushAll words
  have ss := congrArg Registers.ss others
  dsimp only at ss
  have two : (2 : Word).toNat = 2 := rfl
  have lower := congrArg BitVec.toNat sp
  rw [toNat_above] at lower
  rw [stackPlace, above_zero, registers_push, ss, pushedCells, physicalAddress]
  congr 2
  rw [BitVec.toNat_sub, two]
  omega

theorem cell?_pushAll (m : Machine) {words : List Word} {a : Address}
    (apart : ∀ n < words.length, a ∉ m.pushedCells n) :
    (m.pushAll words).memory.cell? a = m.memory.cell? a := by
  induction words using List.reverseRecOn with
  | nil => rfl
  | append_singleton words w ih =>
    rw [List.length_append, List.length_singleton] at apart
    have last := apart words.length (Nat.lt_succ_self _)
    rw [← m.stackPlace_push_pushAll words w] at last
    rw [pushAll_concat, memory_push, Memory.cell?_writeWord_of_not_mem _ w _ _ last]
    exact ih fun n hn => apart n (by omega)

/-! ## Pops -/

theorem registers_pop (m : Machine) :
    m.pop.2.registers = { m.registers with sp := m.registers.sp + 2 } := m.did_pop.registers

theorem memory_pop (m : Machine) : m.pop.2.memory = m.memory := m.did_pop.memory

theorem registers_popMany (m : Machine) (n : Nat) :
    (m.popMany n).2.registers = { m.registers with sp := above m.registers.sp n } := by
  induction n generalizing m with
  | zero => rw [above_zero]; rfl
  | succ n ih =>
    have next := ih m.pop.2
    rw [registers_pop, above_add_two] at next
    exact next

theorem memory_popMany (m : Machine) (n : Nat) : (m.popMany n).2.memory = m.memory := by
  induction n generalizing m with
  | zero => rfl
  | succ n ih => exact (ih m.pop.2).trans m.memory_pop

@[simp] theorem length_popMany (m : Machine) (n : Nat) : (m.popMany n).1.length = n := by
  induction n generalizing m with
  | zero => rfl
  | succ n ih => exact congrArg Nat.succ (ih m.pop.2)

/-- Pops read upward from the top of the stack. -/
theorem getElem?_popMany (m : Machine) {n i : Nat} (h : i < n) :
    (m.popMany n).1[i]? = some (m.memory.readWord (m.stackPlace i)) := by
  induction n generalizing m i with
  | zero => cases h
  | succ n ih =>
    cases i with
    | zero =>
      rw [stackPlace, above_zero]
      rfl
    | succ i =>
      have later := ih m.pop.2 (Nat.lt_of_succ_lt_succ h)
      rw [memory_pop, stackPlace, registers_pop, above_add_two] at later
      exact later

/-- As many pops as there were pushes bring the words in the reverse of their order, and after 32768
words the same ones once more. -/
theorem getElem?_popMany_pushAll (m : Machine) (words : List Word) {i : Nat}
    (h : i < words.length) :
    ((m.pushAll words).popMany words.length).1[i]? = words.reverse[i % 32768]? := by
  have inside : i % 32768 < words.reverse.length := by
    rw [List.length_reverse]
    omega
  have held := m.holdsWords_pushAll words (i % 32768) words.reverse[i % 32768]
  rw [List.getElem?_take_of_lt (Nat.mod_lt i (by decide)), List.getElem?_eq_getElem inside,
    stackPlace_mod] at held
  rw [getElem?_popMany _ h, held rfl, List.getElem?_eq_getElem inside]

theorem popMany_pushAll_of_le (m : Machine) {words : List Word} (room : words.length ≤ 32768) :
    ((m.pushAll words).popMany words.length).1 = words.reverse := by
  apply List.ext_getElem?
  intro i
  by_cases h : i < words.length
  · rw [m.getElem?_popMany_pushAll words h, Nat.mod_eq_of_lt (by omega)]
  · rw [List.getElem?_eq_none (by simpa using h), List.getElem?_eq_none (by simpa using h)]

/-- With one word more than has room, the first word is gone, and the last one comes twice. -/
theorem popMany_pushAll_of_eq (m : Machine) {words : List Word} (full : words.length = 32769) :
    ((m.pushAll words).popMany words.length).1 = words.tail.reverse ++ words.getLast?.toList := by
  obtain ⟨first, rest, rfl⟩ := List.exists_cons_of_length_eq_add_one full
  rw [List.length_cons, Nat.add_right_cancel_iff] at full
  have once : (first :: rest).getLast?.toList.length = 1 := by
    rw [List.getLast?_cons]
    rfl
  apply List.ext_getElem?
  intro i
  rcases Nat.lt_trichotomy i 32768 with h | rfl | h
  · rw [m.getElem?_popMany_pushAll _ (by simp; omega), Nat.mod_eq_of_lt h, List.reverse_cons,
      List.tail_cons, List.getElem?_append_left (by simp; omega),
      List.getElem?_append_left (by simp; omega)]
  · rw [m.getElem?_popMany_pushAll _ (by simp; omega), Nat.mod_self, List.tail_cons,
      List.getElem?_append_right (by simp; omega), List.length_reverse, full, Nat.sub_self,
      List.getLast?_eq_head?_reverse, List.head?_eq_getElem?]
    generalize (first :: rest).reverse[0]? = top
    cases top <;> rfl
  · rw [List.getElem?_eq_none (by simp; omega), List.getElem?_eq_none (by simp; omega)]

end Machine

/-! ## Numbers that are pushed -/

namespace RawMachine

/-- The machine after numbers were pushed, the first of them first. -/
def pushAll (k : RawMachine) (values : List Int) : RawMachine := values.foldl push k

/-- The numbers that so many pops bring, in their order, and the machine after them. -/
def popMany (k : RawMachine) : Nat → List Int × RawMachine
  | 0 => ([], k)
  | n + 1 =>
    let (value, k) := k.pop
    let (values, k) := k.popMany n
    (value :: values, k)

namespace Shows

variable {k : RawMachine} {m : Machine}

/-- The number that is popped is the word itself. -/
theorem pop_value (h : k.Shows m) : k.pop.1 = m.pop.1.toNat := by
  have reference := h.dataReference (.segment .ss) "SP" (h.registers.word (.general .sp))
  have formed := h.refer (m.dataReference (.segment .ss) "SP" m.registers.sp)
  unfold RawMachine.pop RawMachine.readWord
  rw [reference]
  exact formed.memory.readWord _

theorem pushAll (h : k.Shows m) (values : List Int) :
    (k.pushAll values).Shows (m.pushAll (values.map (BitVec.ofInt 16))) := by
  induction values generalizing k m with
  | nil => exact h
  | cons v values ih => exact ih (h.push rfl)

theorem popMany (h : k.Shows m) (n : Nat) :
    (k.popMany n).1 = (m.popMany n).1.map (fun w => (w.toNat : Int)) ∧
      (k.popMany n).2.Shows (m.popMany n).2 := by
  induction n generalizing k m with
  | zero => exact ⟨rfl, h⟩
  | succ n ih =>
    obtain ⟨values, shows⟩ := ih h.pop.2
    exact ⟨List.cons_eq_cons.mpr ⟨h.pop_value, values⟩, shows⟩

end Shows

end RawMachine

/-! ## Pushes and as many pops -/

namespace Machine

/-- What is found when numbers were pushed and then as many popped. The registers are as they were, and
so is every cell that no pushed word went to. Up to 32768 numbers come back in the reverse of their
order. Of 32769 the first does not come back, and the last one comes first and once more at the end. -/
structure Unwound (m : Machine) (pushed popped : List Int) (next : Machine) : Prop where
  registers : next.registers = m.registers
  memory : ∀ a : Address, (∀ n < pushed.length, a ∉ m.pushedCells n) →
    next.memory.cell? a = m.memory.cell? a
  within : pushed.length ≤ 32768 → popped = pushed.reverse.map (· % 65536)
  beyond : pushed.length = 32769 →
    popped = (pushed.tail.reverse ++ pushed.getLast?.toList).map (· % 65536)

theorem map_toNat_ofInt (values : List Int) :
    (values.map (BitVec.ofInt 16)).map (fun w => (w.toNat : Int)) = values.map (· % 65536) := by
  rw [List.map_map]
  apply List.map_congr_left
  intro v _
  exact (toNat_ofInt_eq_mask 16 v).trans (mask_eq_emod 16 v)

/-- Words come off the stack in the reverse of the order they went on, up to a full segment and no
further, and what else the machine holds stays. The same numbers come back where a machine of whole
numbers is given any numbers to push and cuts them down to words itself. -/
theorem unwound_popMany_pushAll (m : Machine) (values : List Int) :
    let pops := (m.pushAll (values.map (BitVec.ofInt 16))).popMany values.length
    m.Unwound values (pops.1.map fun w => (w.toNat : Int)) pops.2 ∧
      ∀ k : RawMachine, k.Shows m →
        let rawPops := (k.pushAll values).popMany values.length
        m.Unwound values rawPops.1 pops.2 ∧ rawPops.2.Shows pops.2 := by
  intro pops
  have length : (values.map (BitVec.ofInt 16)).length = values.length := List.length_map _
  have unwound : m.Unwound values (pops.1.map fun w => (w.toNat : Int)) pops.2 := by
    refine ⟨?registers, ?memory, ?within, ?beyond⟩
    case registers =>
      obtain ⟨sp, others⟩ := m.registers_pushAll (values.map (BitVec.ofInt 16))
      rw [length] at sp
      rw [registers_popMany, sp]
      exact others
    case memory =>
      intro a apart
      rw [memory_popMany]
      apply m.cell?_pushAll
      rwa [length]
    case within =>
      intro room
      have words := m.popMany_pushAll_of_le (length.trans_le room)
      rw [length] at words
      rw [words, ← List.map_reverse, map_toNat_ofInt]
    case beyond =>
      intro full
      have words := m.popMany_pushAll_of_eq (length.trans full)
      have last : (values.map (BitVec.ofInt 16)).getLast?.toList =
          values.getLast?.toList.map (BitVec.ofInt 16) := by
        rw [List.getLast?_map]
        cases values.getLast? <;> rfl
      rw [length, last, ← List.map_tail, ← List.map_reverse, ← List.map_append] at words
      rw [words, map_toNat_ofInt]
  refine ⟨unwound, ?_⟩
  intro k shows
  obtain ⟨numbers, shown⟩ := (shows.pushAll values).popMany values.length
  dsimp only
  rw [numbers]
  exact ⟨unwound, shown⟩

/-- A machine whose stack pointer is odd and about to come round, in a stack segment that reaches over
the end of the memory. -/
def atOddStack : Machine :=
  fresh { Config.default.preset.registers with ss := 0xFFFF, sp := 1 } (.ofInt 8)

/-- The same machine in whole numbers. -/
def rawAtOddStack : RawMachine :=
  .fresh (.load fun reg => ((atOddStack.registers.get reg).toNat : Int)) (.ofInt 8)

/-- Three numbers come back cut down to words; of 32769 the first one does not come back. -/
theorem unwound_atOddStack :
    rawAtOddStack.Shows atOddStack ∧ [70000, -2, 5].length ≤ 32768 ∧
      ((rawAtOddStack.pushAll [70000, -2, 5]).popMany 3).1 = [5, 65534, 4464] ∧
      (1 :: List.replicate 32767 7 ++ [9] : List Int).length = 32769 ∧
      ((rawAtOddStack.pushAll (1 :: List.replicate 32767 7 ++ [9])).popMany 32769).1 =
        9 :: List.replicate 32767 7 ++ [9] := by
  have shows : rawAtOddStack.Shows atOddStack :=
    .fresh (RawRegisters.shows_load atOddStack.registers) (.ofInt 8)
  obtain ⟨few, -⟩ := (atOddStack.unwound_popMany_pushAll [70000, -2, 5]).2 _ shows
  refine ⟨shows, by decide, few.within (by decide), ?_⟩
  have length : (List.replicate 32767 7 : List Int).length = 32767 := List.length_replicate
  have reverse : (List.replicate 32767 7 : List Int).reverse = List.replicate 32767 7 :=
    List.reverse_replicate
  have words : (List.replicate 32767 7 : List Int).map (· % 65536) = List.replicate 32767 7 :=
    List.map_replicate
  -- So that nothing goes through the list word by word.
  generalize (List.replicate 32767 7 : List Int) = sevens at length reverse words ⊢
  have long : (1 :: sevens ++ [9]).length = 32769 := by
    rw [List.length_append, List.length_cons, List.length_singleton]
    omega
  obtain ⟨many, -⟩ := (atOddStack.unwound_popMany_pushAll (1 :: sevens ++ [9])).2 _ shows
  have popped := many.beyond long
  rw [long, List.getLast?_concat, List.cons_append, List.tail_cons, List.reverse_append, reverse,
    List.map_append, List.map_append, words] at popped
  exact ⟨long, popped⟩

end Machine

end BusCycle
